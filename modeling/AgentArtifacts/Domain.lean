import Mathlib.Algebra.Ring.Int.Defs
import Mathlib.Algebra.Ring.Nat
import Mathlib.Data.List.Basic
import Mathlib.Data.List.Forall2

/-!
# Identifiers, diagnostics and results

The nominal values shared by every bounded context. A slug carries the proof
that it matches the protocol grammar, so a source alias, an artifact name or a
profile name that reaches a plan never contains a path separator; the owner of
an object reference is a path of slugs and determines each of its segments.
-/

namespace AgentArtifacts

/-- What holds of the letters of a text is decided along the text, never over every letter. -/
instance (priority := high) decidableLetters (letters : List Char) (p : Char → Prop) [DecidablePred p] :
    Decidable (∀ c ∈ letters, p c) :=
  List.decidableBAll p letters

/-- Contents of files, as the adapters read and write them. -/
abbrev Bytes := List UInt8

/-! ## Results -/

structure DiagnosticCode where
  value : String
deriving DecidableEq

/-- Every diagnostic raised by the modelled services has severity `error`. -/
structure Diagnostic where
  code : DiagnosticCode
  message : String
deriving DecidableEq

abbrev Result (α : Type) := Except (List Diagnostic) α

def error {α : Type} (code : DiagnosticCode) (message : String) : Result α :=
  .error [⟨code, message⟩]

/-- Messages of a failed result joined as the services render them. -/
def messages (diagnostics : List Diagnostic) : String :=
  String.intercalate "; " (diagnostics.map (·.message))

variable {α β : Type}

/-- A computation that succeeded passed through a value of its first part. -/
theorem Result.of_bind_ok {first : Result α} {next : α → Result β} {b : β}
    (h : (first >>= next) = .ok b) : ∃ a, first = .ok a ∧ next a = .ok b := by
  rcases first with diagnostics | a
  · exact absurd h (by simp [bind, Except.bind])
  · exact ⟨a, rfl, h⟩

theorem Result.of_map_ok {first : Result α} {f : α → β} {b : β} (h : first.map f = .ok b) :
    ∃ a, first = .ok a ∧ b = f a := by
  rcases first with diagnostics | a
  · exact absurd h (by simp [Except.map])
  · exact ⟨a, rfl, (Except.ok.inj h).symm⟩

/-- A check that was passed did not hold, and the rest of the computation ran. -/
theorem Result.of_check_ok {α : Type} {p : Prop} [Decidable p] {diagnostics : List Diagnostic}
    {rest : Result α} {a : α} (h : (if p then .error diagnostics else rest) = .ok a) :
    ¬ p ∧ rest = .ok a := by
  split at h
  · exact absurd h (by simp)
  · exact ⟨‹¬ p›, h⟩

theorem Result.forall₂_of_mapM_ok {f : α → Result β} {items : List α} {results : List β}
    (h : items.mapM f = .ok results) :
    List.Forall₂ (fun item result => f item = .ok result) items results := by
  induction items generalizing results with
  | nil =>
      rw [List.mapM_nil] at h
      obtain rfl : [] = results := Except.ok.inj h
      exact .nil
  | cons item rest ih =>
      rw [List.mapM_cons] at h
      obtain ⟨first, hfirst, h⟩ := Result.of_bind_ok h
      obtain ⟨others, hothers, h⟩ := Result.of_bind_ok h
      obtain rfl : first :: others = results := Except.ok.inj h
      exact .cons hfirst (ih hothers)

theorem Result.mapM_of_forall_ok {f : α → Result β} {g : α → β} {items : List α}
    (h : ∀ item ∈ items, f item = .ok (g item)) : items.mapM f = .ok (items.map g) := by
  induction items with
  | nil => rfl
  | cons item rest ih =>
      rw [List.mapM_cons, h item List.mem_cons_self, ih fun other hother => h other (List.mem_cons_of_mem _ hother)]
      rfl

/-- Every result of a computation over a list comes from one of its items. -/
theorem exists_of_forall₂_mem {related : α → β → Prop} {items : List α} {results : List β}
    (h : List.Forall₂ related items results) {result : β} (hmem : result ∈ results) :
    ∃ item ∈ items, related item result := by
  induction h with
  | nil => exact absurd hmem (by simp)
  | cons hfirst _ ih =>
      rcases List.mem_cons.mp hmem with rfl | hrest
      · exact ⟨_, List.mem_cons_self, hfirst⟩
      · obtain ⟨item, hitem, hrelated⟩ := ih hrest
        exact ⟨item, List.mem_cons_of_mem _ hitem, hrelated⟩

/-- Every item of a computation over a list that succeeded has a result. -/
theorem Result.ok_of_mapM_ok {f : α → Result β} {items : List α} {results : List β}
    (h : items.mapM f = .ok results) {item : α} (hitem : item ∈ items) :
    ∃ result ∈ results, f item = .ok result :=
  exists_of_forall₂_mem (List.Forall₂.flip (R := fun result item => f item = .ok result)
    (Result.forall₂_of_mapM_ok h)) hitem

theorem Result.exists_mapM_ok {f : α → Result β} {items : List α}
    (h : ∀ item ∈ items, ∃ result, f item = .ok result) : ∃ results, items.mapM f = .ok results := by
  induction items with
  | nil => exact ⟨[], rfl⟩
  | cons item rest ih =>
      obtain ⟨first, hfirst⟩ := h item List.mem_cons_self
      obtain ⟨others, hothers⟩ := ih fun other hother => h other (List.mem_cons_of_mem _ hother)
      exact ⟨first :: others, by rw [List.mapM_cons, hfirst, hothers]; rfl⟩

theorem Result.eq_ok_get {α : Type} {result : Result α} (h : result.toOption.isSome = true) :
    result = .ok (result.toOption.get h) := by
  cases result with
  | error diagnostics => exact absurd h (by simp [Except.toOption])
  | ok value => rfl

/-! ## Slugs -/

def isLowerLetter (c : Char) : Bool := 'a' ≤ c && c ≤ 'z'

def isLowerAlphanumeric (c : Char) : Bool := isLowerLetter c || ('0' ≤ c && c ≤ '9')

/-- The part of `[a-z][a-z0-9]*(?:-[a-z0-9]+)*` after the first letter; a hyphen
has to be followed by a letter or a digit. -/
def slugRest : Bool → List Char → Bool
  | afterHyphen, [] => !afterHyphen
  | afterHyphen, c :: rest =>
      if c = '-' then !afterHyphen && slugRest true rest
      else isLowerAlphanumeric c && slugRest false rest

def isSlugChars : List Char → Bool
  | [] => false
  | c :: rest => isLowerLetter c && slugRest false rest

def isSlug (value : String) : Bool := isSlugChars value.toList

structure Slug where
  value : String
  valid : isSlug value = true
deriving DecidableEq

theorem mem_slugRest {afterHyphen : Bool} {chars : List Char}
    (h : slugRest afterHyphen chars = true) {c : Char} (hc : c ∈ chars) :
    isLowerAlphanumeric c = true ∨ c = '-' := by
  induction chars generalizing afterHyphen with
  | nil => exact absurd hc (by simp)
  | cons first rest ih =>
      unfold slugRest at h
      rcases List.mem_cons.mp hc with rfl | hc
      · split at h
        · exact Or.inr ‹_›
        · simp only [Bool.and_eq_true] at h
          exact Or.inl h.1
      · split at h
        · simp only [Bool.and_eq_true] at h
          exact ih h.2 hc
        · simp only [Bool.and_eq_true] at h
          exact ih h.2 hc

/-- A slug consists of lower-case letters, digits and hyphens. -/
theorem Slug.mem_value (slug : Slug) {c : Char} (hc : c ∈ slug.value.toList) :
    isLowerAlphanumeric c = true ∨ c = '-' := by
  have h := slug.valid
  unfold isSlug isSlugChars at h
  split at h
  · exact absurd h (by simp)
  · rename_i first rest hchars
    simp only [Bool.and_eq_true] at h
    rw [hchars] at hc
    rcases List.mem_cons.mp hc with rfl | hc
    · exact Or.inl (by simp [isLowerAlphanumeric, h.1])
    · exact mem_slugRest h.2 hc

theorem Slug.not_mem (slug : Slug) {c : Char} (hletter : isLowerAlphanumeric c = false)
    (hhyphen : c ≠ '-') : c ∉ slug.value.toList := by
  intro hc
  rcases slug.mem_value hc with hin | heq
  · rw [hletter] at hin
    exact absurd hin (by simp)
  · exact hhyphen heq

theorem Slug.slash_not_mem (slug : Slug) : '/' ∉ slug.value.toList :=
  slug.not_mem (by decide) (by decide)

/-! ## Identities -/

/-- The kinds an installation record may carry. -/
inductive ArtifactKind where
  | skill
  | guideline
  | mcp
  | hook
  | memory
deriving DecidableEq

def ArtifactKind.value : ArtifactKind → String
  | .skill => "skill"
  | .guideline => "guideline"
  | .mcp => "mcp"
  | .hook => "hook"
  | .memory => "memory"

/-- Source aliases are slugs wherever they are recorded. -/
abbrev SourceAlias := Slug

abbrev SourceId := Slug

structure ArtifactIdentity where
  kind : ArtifactKind
  name : Slug
deriving DecidableEq

def ArtifactIdentity.str (identity : ArtifactIdentity) : String :=
  identity.kind.value ++ "/" ++ identity.name.value

structure ArtifactCoordinate where
  source : SourceAlias
  artifact : ArtifactIdentity
  version : Option String := none
deriving DecidableEq

def ArtifactCoordinate.str (coordinate : ArtifactCoordinate) : String :=
  coordinate.source.value ++ "/" ++ coordinate.artifact.str ++
    (match coordinate.version with
      | none => ""
      | some version => "@" ++ version)

/-- A digest of the one algorithm the protocol admits. -/
structure ObjectDigest where
  value : String
deriving DecidableEq

def ObjectDigest.str (digest : ObjectDigest) : String := "sha256:" ++ digest.value

inductive InstallScope where
  | project
  | user
deriving DecidableEq

def InstallScope.value : InstallScope → String
  | .project => "project"
  | .user => "user"

inductive InstallMode where
  | copy
  | symlink
deriving DecidableEq

def InstallMode.value : InstallMode → String
  | .copy => "copy"
  | .symlink => "symlink"

inductive MemoryMode where
  | replace
  | prepend
  | append
  | skip
deriving DecidableEq

theorem ArtifactKind.slash_not_mem (kind : ArtifactKind) : '/' ∉ kind.value.toList := by
  cases kind <;> decide

theorem ArtifactKind.value_injective {a b : ArtifactKind} (h : a.value = b.value) : a = b := by
  cases a <;> cases b <;> first | rfl | exact absurd h (by decide)

theorem InstallScope.slash_not_mem (scope : InstallScope) : '/' ∉ scope.value.toList := by
  cases scope <;> decide

theorem InstallScope.value_injective {a b : InstallScope} (h : a.value = b.value) : a = b := by
  cases a <;> cases b <;> first | rfl | exact absurd h (by decide)

/-! ## Slash-separated segments -/

/-- Segments joined by single slashes. -/
def slashJoin (segments : List String) : String := String.intercalate "/" segments

theorem slashJoin_toList (segments : List String) :
    (slashJoin segments).toList = ['/'].intercalate (segments.map String.toList) := by
  simp [slashJoin, String.toList_intercalate]

/-- Segments without a slash are determined by their joined path. -/
theorem slashJoin_injective {left right : List String}
    (hleft : ∀ s ∈ left, '/' ∉ s.toList) (hright : ∀ s ∈ right, '/' ∉ s.toList)
    (hleftNe : left ≠ []) (hrightNe : right ≠ [])
    (h : slashJoin left = slashJoin right) : left = right := by
  have hsplit (segments : List String) (hno : ∀ s ∈ segments, '/' ∉ s.toList)
      (hne : segments ≠ []) :
      List.splitOn '/' (slashJoin segments).toList = segments.map String.toList := by
    rw [slashJoin_toList]
    refine List.splitOn_intercalate '/' ?_ (by simpa using hne)
    intro chars hchars
    obtain ⟨s, hs, rfl⟩ := List.mem_map.mp hchars
    exact hno s hs
  have hmap : left.map String.toList = right.map String.toList := by
    rw [← hsplit left hleft hleftNe, ← hsplit right hright hrightNe, h]
  exact List.map_injective_iff.mpr (fun a b hab => String.toList_inj.mp hab) hmap

end AgentArtifacts
