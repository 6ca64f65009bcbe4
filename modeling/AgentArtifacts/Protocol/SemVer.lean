import AgentArtifacts.Domain
import Mathlib.Data.List.Lex
import Mathlib.Data.Prod.Lex
import Mathlib.Data.String.Basic
import Mathlib.Data.Sum.Order
import Mathlib.Order.WithBot

/-!
# Semantic versions

Precedence compares the core numbers, then the prerelease identifiers, and
ignores build metadata. It is the order of a key in a linear order, in which a
release stands above its prereleases and a number below a text.
-/

namespace AgentArtifacts

inductive PrereleaseIdentifier where
  | number (value : Nat)
  | text (value : String)
deriving DecidableEq

structure SemVer where
  major : Nat
  minor : Nat
  patch : Nat
  prerelease : List PrereleaseIdentifier := []
  build : List String := []
deriving DecidableEq

def PrereleaseIdentifier.str : PrereleaseIdentifier → String
  | .number value => toString value
  | .text value => value

def SemVer.str (version : SemVer) : String :=
  toString version.major ++ "." ++ toString version.minor ++ "." ++ toString version.patch ++
    (if version.prerelease = [] then ""
      else "-" ++ String.intercalate "." (version.prerelease.map (·.str))) ++
    (if version.build = [] then "" else "+" ++ String.intercalate "." version.build)

/-- Equality of versions, as Python compares them. -/
def SemVer.samePrecedence (left right : SemVer) : Bool :=
  left.major == right.major && left.minor == right.minor && left.patch == right.patch &&
    left.prerelease == right.prerelease

def PrereleaseIdentifier.less : PrereleaseIdentifier → PrereleaseIdentifier → Bool
  | .number a, .number b => a < b
  | .number _, .text _ => true
  | .text _, .number _ => false
  | .text a, .text b => a < b

/-- The first identifiers that differ decide, else the number of them. -/
def identifiersLess : List PrereleaseIdentifier → List PrereleaseIdentifier → Bool
  | left :: lefts, right :: rights => if left = right then identifiersLess lefts rights else left.less right
  | lefts, rights => lefts.length < rights.length

def prereleaseLess (left right : List PrereleaseIdentifier) : Bool :=
  if left = [] then false else if right = [] then true else identifiersLess left right

def SemVer.less (left right : SemVer) : Bool :=
  if left.major ≠ right.major then left.major < right.major
  else if left.minor ≠ right.minor then left.minor < right.minor
  else if left.patch ≠ right.patch then left.patch < right.patch
  else prereleaseLess left.prerelease right.prerelease

structure VersionBounds where
  minInclusive : Option SemVer := none
  maxExclusive : Option SemVer := none
deriving DecidableEq

def VersionBounds.allows (bounds : VersionBounds) (version : SemVer) : Bool :=
  if bounds.minInclusive.any fun least => version.less least then false
  else bounds.maxExclusive.all fun bound => version.less bound

/-! ## Precedence as an order -/

abbrev IdentifierKey := ℕ ⊕ₗ String

abbrev PrecedenceKey := ℕ ×ₗ ℕ ×ₗ ℕ ×ₗ WithTop (List IdentifierKey)

def PrereleaseIdentifier.key : PrereleaseIdentifier → IdentifierKey
  | .number value => Sum.inlₗ value
  | .text value => Sum.inrₗ value

/-- A release has no prerelease part and stands above all that have one. -/
def prereleaseKey : List PrereleaseIdentifier → WithTop (List IdentifierKey)
  | [] => ⊤
  | identifiers => ((identifiers.map (·.key) : List IdentifierKey) : WithTop (List IdentifierKey))

def SemVer.key (version : SemVer) : PrecedenceKey :=
  toLex (version.major, toLex (version.minor, toLex (version.patch, prereleaseKey version.prerelease)))

theorem PrereleaseIdentifier.key_injective : Function.Injective PrereleaseIdentifier.key := by
  intro a b h
  cases a with
  | number m =>
      cases b with
      | number n => exact congrArg PrereleaseIdentifier.number (Sum.inl_injective (toLex_inj.mp h))
      | text t => exact absurd (toLex_inj.mp h) Sum.inl_ne_inr
  | text s =>
      cases b with
      | number n => exact absurd (toLex_inj.mp h) Sum.inr_ne_inl
      | text t => exact congrArg PrereleaseIdentifier.text (Sum.inr_injective (toLex_inj.mp h))

theorem PrereleaseIdentifier.less_iff (a b : PrereleaseIdentifier) : a.less b = true ↔ a.key < b.key := by
  cases a with
  | number m =>
      cases b with
      | number n =>
          rw [less, decide_eq_true_eq]
          exact Sum.Lex.inl_lt_inl_iff.symm
      | text t => exact iff_of_true rfl (Sum.Lex.inl_lt_inr m t)
  | text s =>
      cases b with
      | number n => exact iff_of_false (by simp [less]) Sum.Lex.not_inr_lt_inl
      | text t =>
          rw [less, decide_eq_true_eq]
          exact Sum.Lex.inr_lt_inr_iff.symm

theorem identifiersLess_iff (lefts rights : List PrereleaseIdentifier) :
    identifiersLess lefts rights = true ↔ lefts.map (·.key) < rights.map (·.key) := by
  induction lefts generalizing rights with
  | nil =>
      cases rights with
      | nil => simp [identifiersLess]
      | cons right others => simp [identifiersLess]
  | cons left more ih =>
      cases rights with
      | nil => simp [identifiersLess]
      | cons right others =>
          rw [List.map_cons, List.map_cons, List.cons_lt_cons_iff, identifiersLess]
          by_cases h : left = right
          · simp [h, ih]
          · have hkey : left.key ≠ right.key := fun heq => h (PrereleaseIdentifier.key_injective heq)
            simp [h, hkey, PrereleaseIdentifier.less_iff]

theorem prereleaseLess_iff (left right : List PrereleaseIdentifier) :
    prereleaseLess left right = true ↔ prereleaseKey left < prereleaseKey right := by
  cases left with
  | nil => simp [prereleaseLess, prereleaseKey]
  | cons a lefts =>
      cases right with
      | nil => simp [prereleaseLess, prereleaseKey]
      | cons b rights =>
          simp only [prereleaseLess, reduceCtorEq, if_false, prereleaseKey, WithTop.coe_lt_coe]
          exact identifiersLess_iff (a :: lefts) (b :: rights)

theorem prereleaseKey_injective : Function.Injective prereleaseKey := by
  intro left right h
  cases left with
  | nil =>
      cases right with
      | nil => rfl
      | cons b rights => exact absurd h (by simp [prereleaseKey])
  | cons a lefts =>
      cases right with
      | nil => exact absurd h (by simp [prereleaseKey])
      | cons b rights =>
          simp only [prereleaseKey, WithTop.coe_inj] at h
          exact List.map_injective_iff.mpr PrereleaseIdentifier.key_injective h

theorem SemVer.less_iff (left right : SemVer) : left.less right = true ↔ left.key < right.key := by
  simp only [key, Prod.Lex.toLex_lt_toLex, less]
  by_cases hmajor : left.major = right.major
  · by_cases hminor : left.minor = right.minor
    · by_cases hpatch : left.patch = right.patch
      · simp [hmajor, hminor, hpatch, prereleaseLess_iff]
      · simp [hmajor, hminor, hpatch]
    · simp [hmajor, hminor]
  · simp [hmajor]

theorem SemVer.samePrecedence_iff (left right : SemVer) :
    left.samePrecedence right = true ↔ left.key = right.key := by
  simp only [samePrecedence, key, Bool.and_eq_true, beq_iff_eq, toLex_inj, Prod.mk.injEq,
    prereleaseKey_injective.eq_iff, and_assoc]

end AgentArtifacts
