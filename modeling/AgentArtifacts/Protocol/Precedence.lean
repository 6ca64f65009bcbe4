import AgentArtifacts.Protocol.SemVer

/-!
# Precedence of versions

The comparisons of two versions are those of Semantic Versioning 2.0: the core numbers
decide first, a release stands above its prereleases, and two prereleases are told apart
by the first identifiers that differ.
-/

namespace AgentArtifacts

/-- What is hashed of a version. -/
def SemVer.hashKey (version : SemVer) : (Nat × Nat × Nat) × List PrereleaseIdentifier :=
  ((version.major, version.minor, version.patch), version.prerelease)

/-- `<=`, as the total ordering of the class derives it. -/
def SemVer.atMost (left right : SemVer) : Bool := left.less right || left.samePrecedence right

/-! ## The standard -/

/-- Numbers compare as numbers and stand below texts; texts compare character by character. -/
inductive PrereleaseIdentifier.Below : PrereleaseIdentifier → PrereleaseIdentifier → Prop
  | numbers {a b : Nat} (h : a < b) : Below (.number a) (.number b)
  | numberText {a : Nat} {t : String} : Below (.number a) (.text t)
  | texts {s t : String} (h : s < t) : Below (.text s) (.text t)

/-- The first identifiers that differ decide; of a list and its extension, the extension is above. -/
inductive IdentifiersBelow : List PrereleaseIdentifier → List PrereleaseIdentifier → Prop
  | differ (common lefts rights : List PrereleaseIdentifier) {left right : PrereleaseIdentifier}
      (h : left.Below right) : IdentifiersBelow (common ++ left :: lefts) (common ++ right :: rights)
  | extended (common : List PrereleaseIdentifier) {rest : List PrereleaseIdentifier} (h : rest ≠ []) :
      IdentifiersBelow common (common ++ rest)

inductive SemVer.Precedes (left right : SemVer) : Prop
  | major (h : left.major < right.major)
  | minor (hmajor : left.major = right.major) (h : left.minor < right.minor)
  | patch (hmajor : left.major = right.major) (hminor : left.minor = right.minor) (h : left.patch < right.patch)
  | release (hcore : left.hashKey.1 = right.hashKey.1) (hleft : left.prerelease ≠ []) (hright : right.prerelease = [])
  | prerelease (hcore : left.hashKey.1 = right.hashKey.1) (hleft : left.prerelease ≠ [])
      (h : IdentifiersBelow left.prerelease right.prerelease)

theorem PrereleaseIdentifier.less_iff_below {left right : PrereleaseIdentifier} :
    left.less right = true ↔ left.Below right := by
  constructor
  · intro h
    cases left with
    | number a =>
        cases right with
        | number b => exact .numbers (of_decide_eq_true h)
        | text t => exact .numberText
    | text s =>
        cases right with
        | number b => cases h
        | text t => exact .texts (of_decide_eq_true h)
  · intro h
    cases h with
    | numbers h => exact decide_eq_true h
    | numberText => rfl
    | texts h => exact decide_eq_true h

theorem PrereleaseIdentifier.Below.ne {left right : PrereleaseIdentifier} (h : left.Below right) : left ≠ right := by
  cases h with
  | numbers h => simpa using ne_of_lt h
  | numberText => simp
  | texts h => simpa using ne_of_lt h

theorem IdentifiersBelow.cons {lefts rights : List PrereleaseIdentifier} (h : IdentifiersBelow lefts rights)
    (first : PrereleaseIdentifier) : IdentifiersBelow (first :: lefts) (first :: rights) := by
  cases h with
  | differ common lefts rights h => exact .differ (first :: common) lefts rights h
  | extended _ h => exact .extended (first :: lefts) h

/-- By the identifiers in common: each step of the comparison takes one off both lists. -/
theorem identifiersLess_iff_below {lefts rights : List PrereleaseIdentifier} :
    identifiersLess lefts rights = true ↔ IdentifiersBelow lefts rights := by
  constructor
  · intro h
    induction lefts generalizing rights with
    | nil =>
        cases rights with
        | nil => simp [identifiersLess] at h
        | cons right others => exact .extended [] (List.cons_ne_nil right others)
    | cons left more ih =>
        cases rights with
        | nil => simp [identifiersLess] at h
        | cons right others =>
            rw [identifiersLess] at h
            split at h
            · rename_i hsame
              subst hsame
              exact (ih h).cons left
            · exact .differ [] more others (PrereleaseIdentifier.less_iff_below.mp h)
  · intro h
    cases h with
    | differ common lefts rights h =>
        induction common with
        | nil =>
            rw [List.nil_append, List.nil_append, identifiersLess, if_neg h.ne]
            exact PrereleaseIdentifier.less_iff_below.mpr h
        | cons first common ih =>
            rw [List.cons_append, List.cons_append, identifiersLess, if_pos rfl]
            exact ih
    | @extended _ rest h =>
        induction lefts with
        | nil =>
            cases rest with
            | nil => exact absurd rfl h
            | cons first rest => simp [identifiersLess]
        | cons first common ih =>
            rw [List.cons_append, identifiersLess, if_pos rfl]
            exact ih

theorem prereleaseLess_iff_below {left right : List PrereleaseIdentifier} :
    prereleaseLess left right = true ↔ left ≠ [] ∧ (right = [] ∨ IdentifiersBelow left right) := by
  unfold prereleaseLess
  by_cases hleft : left = []
  · simp [hleft]
  · by_cases hright : right = []
    · simp [hleft, hright]
    · simp [hleft, hright, identifiersLess_iff_below]

theorem SemVer.less_iff_precedes {left right : SemVer} : left.less right = true ↔ left.Precedes right := by
  unfold less
  constructor
  · intro h
    split at h
    · exact .major (of_decide_eq_true h)
    · rename_i hmajor
      have hmajor : left.major = right.major := not_not.mp hmajor
      split at h
      · exact .minor hmajor (of_decide_eq_true h)
      · rename_i hminor
        have hminor : left.minor = right.minor := not_not.mp hminor
        split at h
        · exact .patch hmajor hminor (of_decide_eq_true h)
        · rename_i hpatch
          have hcore : left.hashKey.1 = right.hashKey.1 := by
            simp [hashKey, hmajor, hminor, not_not.mp hpatch]
          obtain ⟨hleft, hright | hbelow⟩ := prereleaseLess_iff_below.mp h
          · exact .release hcore hleft hright
          · exact .prerelease hcore hleft hbelow
  · intro h
    cases h with
    | major h => simp [h, ne_of_lt h]
    | minor hmajor h => simp [hmajor, h, ne_of_lt h]
    | patch hmajor hminor h => simp [hmajor, hminor, h, ne_of_lt h]
    | release hcore hleft hright =>
        simp only [hashKey, Prod.mk.injEq] at hcore
        simp [hcore, prereleaseLess_iff_below, hleft, hright]
    | prerelease hcore hleft h =>
        simp only [hashKey, Prod.mk.injEq] at hcore
        simp [hcore, prereleaseLess_iff_below, hleft, h]

/-! ## Comparisons by the key -/

theorem SemVer.atMost_iff {left right : SemVer} : left.atMost right = true ↔ left.key ≤ right.key := by
  rw [atMost, Bool.or_eq_true, less_iff, samePrecedence_iff, le_iff_lt_or_eq]

theorem VersionBounds.allows_iff {bounds : VersionBounds} {version : SemVer} :
    bounds.allows version = true ↔
      (∀ least, bounds.minInclusive = some least → least.key ≤ version.key) ∧
        ∀ bound, bounds.maxExclusive = some bound → version.key < bound.key := by
  obtain ⟨least, bound⟩ := bounds
  unfold allows
  cases least with
  | none => cases bound <;> simp [SemVer.less_iff]
  | some least =>
      by_cases hlow : version.key < least.key
      · simp [SemVer.less_iff, hlow]
      · cases bound <;> simp [SemVer.less_iff, hlow, not_lt.mp hlow]

theorem SemVer.hashKey_eq_iff {left right : SemVer} :
    left.hashKey = right.hashKey ↔ { left with build := [] } = { right with build := [] } := by
  simp [hashKey, and_assoc]

/-- Precedence is a strict total order of the versions up to their build metadata, it is the
order of the standard, and the bounds of a version hold an interval of it. -/
theorem SemVer.precedence_total :
    (∀ a b : SemVer,
      (a.less b = true ∧ a.samePrecedence b = false ∧ b.less a = false) ∨
        (a.less b = false ∧ a.samePrecedence b = true ∧ b.less a = false) ∨
        (a.less b = false ∧ a.samePrecedence b = false ∧ b.less a = true)) ∧
      (∀ a b c : SemVer, a.less b = true → b.less c = true → a.less c = true) ∧
      (∀ a b : SemVer, a.samePrecedence b = true ↔ a.hashKey = b.hashKey) ∧
      (∀ a b : SemVer, a.samePrecedence b = true ↔ { a with build := [] } = { b with build := [] }) ∧
      (∀ a b : SemVer, a.less b = true ↔ a.Precedes b) ∧
      ∀ (bounds : VersionBounds) (a b c : SemVer), bounds.allows a = true → bounds.allows c = true →
        a.atMost b = true → b.atMost c = true → bounds.allows b = true := by
  have hkeys (a b : SemVer) : a.samePrecedence b = true ↔ a.hashKey = b.hashKey := by
    simp [samePrecedence, hashKey, and_assoc]
  refine ⟨fun a b => ?_, fun a b c hab hbc => ?_, hkeys, fun a b => ?_, fun a b => less_iff_precedes,
    fun bounds a b c ha hc hab hbc => ?_⟩
  · simp only [← Bool.not_eq_true, less_iff, samePrecedence_iff]
    rcases lt_trichotomy a.key b.key with h | h | h
    · exact Or.inl ⟨h, ne_of_lt h, lt_asymm h⟩
    · exact Or.inr (Or.inl ⟨not_lt_of_ge (ge_of_eq h), h, not_lt_of_ge (le_of_eq h)⟩)
    · exact Or.inr (Or.inr ⟨lt_asymm h, ne_of_gt h, h⟩)
  · rw [less_iff] at hab hbc ⊢
    exact lt_trans hab hbc
  · rw [hkeys, hashKey_eq_iff]
  · rw [VersionBounds.allows_iff] at ha hc ⊢
    rw [atMost_iff] at hab hbc
    constructor
    · intro least hleast
      exact le_trans (ha.1 least hleast) hab
    · intro bound hbound
      exact lt_of_le_of_lt hbc (hc.2 bound hbound)

end AgentArtifacts
