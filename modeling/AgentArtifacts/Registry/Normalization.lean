import AgentArtifacts.InstallState.ManifestBytes
import AgentArtifacts.Library.Arrangements
import AgentArtifacts.Protocol.Rereading
import AgentArtifacts.Registry.GraphBytes
import AgentArtifacts.Registry.History

/-!
# Normal forms forget order

What a source and its artifacts list is listed in some order. The constructor of a source and the
normal form of an artifact forget it, except that requirements are put in order by identity alone.
-/

namespace AgentArtifacts.Registry

open Arrangements (Arranged)
open Manifest (identity_str_injective slug_eq_of_value)
open Schema (sortedBy_eq_of_perm sortedSet_eq_of_perm)

/-! ## Arrangements of sources -/

structure SetupArranged (a b : IndexSetup) : Prop where
  recipe : a.recipe = b.recipe
  platforms : a.platforms.Perm b.platforms
  capabilities : a.capabilities.Perm b.capabilities

/-- The artifacts differ in the order of what they list. -/
structure ArtifactArranged (a b : IndexArtifact) : Prop where
  rest : { b with
    compatibility := a.compatibility, install := a.install, setup := a.setup
    collections := a.collections, requires := a.requires } = a
  profiles : a.compatibility.profiles.Perm b.compatibility.profiles
  platforms : a.compatibility.platforms.Perm b.compatibility.platforms
  scopes : a.install.scopes.Perm b.install.scopes
  modes : a.install.modes.Perm b.install.modes
  effects : a.install.effects.Perm b.install.effects
  setup : Option.Rel SetupArranged a.setup b.setup
  collections : a.collections.Perm b.collections
  requires : a.requires.Perm b.requires

/-- The sources differ in the order of what they and their artifacts list. -/
structure SourceArranged (a b : GraphSource) : Prop where
  sourceAlias : a.sourceAlias = b.sourceAlias
  sourceId : a.sourceId = b.sourceId
  requiredCapabilities : a.requiredCapabilities.Perm b.requiredCapabilities
  artifacts : Arranged ArtifactArranged a.artifacts b.artifacts
  collections : a.collections.Perm b.collections

/-- No two different requirements of an artifact name one identity. -/
def RequiresOnce (artifact : IndexArtifact) : Prop :=
  ∀ a ∈ artifact.requires, ∀ b ∈ artifact.requires, a.identity = b.identity → a = b

theorem SetupArranged.symm {a b : IndexSetup} (h : SetupArranged a b) : SetupArranged b a :=
  ⟨h.recipe.symm, h.platforms.symm, h.capabilities.symm⟩

variable {a b : IndexArtifact}

theorem ArtifactArranged.symm (h : ArtifactArranged a b) : ArtifactArranged b a where
  rest := by
    rw [← h.rest]
  profiles := h.profiles.symm
  platforms := h.platforms.symm
  scopes := h.scopes.symm
  modes := h.modes.symm
  effects := h.effects.symm
  setup := by
    have hsetup := h.setup
    revert hsetup
    cases a.setup <;> cases b.setup <;> rintro ⟨⟩
    · exact .none
    · exact .some (SetupArranged.symm ‹_›)
  collections := h.collections.symm
  requires := h.requires.symm

theorem SourceArranged.symm {a b : GraphSource} (h : SourceArranged a b) : SourceArranged b a :=
  ⟨h.sourceAlias.symm, h.sourceId.symm, h.requiredCapabilities.symm,
    h.artifacts.flip.mono fun _ _ harranged => harranged.symm, h.collections.symm⟩

theorem RequiresOnce.arranged (h : ArtifactArranged a b) (honce : RequiresOnce a) : RequiresOnce b :=
  fun first hfirst second hsecond =>
    honce first (h.requires.mem_iff.mpr hfirst) second (h.requires.mem_iff.mpr hsecond)

/-! ## Sets with an equality of their own -/

section Distinct

variable {α : Type} {same : α → α → Bool}

theorem foldl_distinct {items kept : List α} (hkept : kept.Nodup)
    (hsame : ∀ a ∈ items ++ kept, ∀ b ∈ items ++ kept, same a b = true ↔ a = b) :
    (items.foldl (fun kept item => if kept.any (same item) then kept else kept ++ [item]) kept).Nodup ∧
      ∀ x, x ∈ items.foldl (fun kept item => if kept.any (same item) then kept else kept ++ [item]) kept ↔
        x ∈ items ∨ x ∈ kept := by
  induction items generalizing kept with
  | nil => exact ⟨hkept, by simp⟩
  | cons item rest ih =>
      have hany : kept.any (same item) = true ↔ item ∈ kept := by
        rw [List.any_eq_true]
        constructor
        · rintro ⟨other, hother, heq⟩
          obtain rfl := (hsame item (by simp) other (by simp [hother])).mp heq
          exact hother
        · intro hitem
          exact ⟨item, hitem, (hsame item (by simp) item (by simp)).mpr rfl⟩
      rw [List.foldl_cons]
      by_cases hitem : item ∈ kept
      · rw [if_pos (hany.mpr hitem)]
        obtain ⟨hnodup, hmem⟩ := ih hkept (fun a ha b hb =>
          hsame a (List.mem_cons_of_mem _ ha) b (List.mem_cons_of_mem _ hb))
        refine ⟨hnodup, fun x => (hmem x).trans ?_⟩
        rw [List.mem_cons]
        constructor
        · exact Or.imp_left Or.inr
        · rintro ((rfl | hx) | hx)
          · exact Or.inr hitem
          · exact Or.inl hx
          · exact Or.inr hx
      · rw [if_neg (fun hyes => hitem (hany.mp hyes))]
        have hnew : (kept ++ [item]).Nodup := by
          rw [List.nodup_append]
          refine ⟨hkept, List.nodup_singleton _, ?_⟩
          rintro a ha b hb rfl
          exact hitem (List.mem_singleton.mp hb ▸ ha)
        have hpart (a : α) (ha : a ∈ rest ++ (kept ++ [item])) : a ∈ item :: rest ++ kept := by
          simp only [List.mem_append, List.mem_cons] at ha ⊢
          tauto
        obtain ⟨hnodup, hmem⟩ := ih hnew (fun a ha b hb => hsame a (hpart a ha) b (hpart b hb))
        refine ⟨hnodup, fun x => (hmem x).trans ?_⟩
        simp only [List.mem_append, List.mem_cons]
        tauto

/-- Where items that are the same are equal, the set of them is what `dedup` leaves. -/
theorem perm_distinctBy {left right : List α} (hsame : ∀ a ∈ left, ∀ b ∈ left, same a b = true ↔ a = b)
    (h : left.Perm right) : (distinctBy same left).Perm (distinctBy same right) := by
  have hleft : (distinctBy same left).Nodup ∧ ∀ x, x ∈ distinctBy same left ↔ x ∈ left ∨ x ∈ [] :=
    foldl_distinct List.nodup_nil (by simpa using hsame)
  have hright : (distinctBy same right).Nodup ∧ ∀ x, x ∈ distinctBy same right ↔ x ∈ right ∨ x ∈ [] :=
    foldl_distinct List.nodup_nil (by
    intro a ha b hb
    rw [List.append_nil] at ha hb
    exact hsame a (h.mem_iff.mpr ha) b (h.mem_iff.mpr hb))
  refine (List.perm_ext_iff_of_nodup hleft.1 hright.1).mpr fun x => ?_
  rw [hleft.2 x, hright.2 x, h.mem_iff]

end Distinct

/-! ## Normal forms -/

theorem samePrecedence_self (version : SemVer) : version.samePrecedence version = true := by
  rw [SemVer.samePrecedence_iff]

theorem sameVersion?_self (version : Option SemVer) : sameVersion? version version = true := by
  cases version with
  | none => rfl
  | some version => exact samePrecedence_self version

theorem sameSelector_self (selector : ArtifactSelector) : sameSelector selector selector = true := by
  unfold sameSelector
  cases selector.version with
  | none => simp
  | some bounds => simp [sameVersion?_self]

theorem RequiresOnce.same_iff {artifact : IndexArtifact} (h : RequiresOnce artifact) :
    ∀ a ∈ artifact.requires, ∀ b ∈ artifact.requires, sameSelector a b = true ↔ a = b := by
  intro a ha b hb
  constructor
  · intro hsame
    have hidentity : a.identity = b.identity := by
      rw [sameSelector, Bool.and_eq_true, beq_iff_eq] at hsame
      exact hsame.1
    exact h a ha b hb hidentity
  · rintro rfl
    exact sameSelector_self a

theorem normalizeRequires_eq (h : ArtifactArranged a b) (honce : RequiresOnce a) :
    sortedBy (·.identity.str) (distinctBy sameSelector a.requires) =
      sortedBy (·.identity.str) (distinctBy sameSelector b.requires) := by
  have hmem (selector : ArtifactSelector) (hselector : selector ∈ distinctBy sameSelector a.requires) :
      selector ∈ a.requires := by
    have hset : (distinctBy sameSelector a.requires).Nodup ∧
        ∀ x, x ∈ distinctBy sameSelector a.requires ↔ x ∈ a.requires ∨ x ∈ [] :=
      foldl_distinct List.nodup_nil (by simpa using honce.same_iff)
    simpa using (hset.2 selector).mp hselector
  refine Arrangements.sortOn_eq_of_perm ?_ (perm_distinctBy honce.same_iff h.requires)
  intro x hx y hy hkey
  exact honce x (hmem x hx) y (hmem y hy) (identity_str_injective hkey)

theorem capability_value_injective : Function.Injective Capability.value := fun _ _ h => congrArg Capability.mk h

theorem normalizeSetup_eq {a b : Option IndexSetup} (h : Option.Rel SetupArranged a b) :
    (a.map fun setup => { setup with
      platforms := sortedSet setup.platforms
      capabilities := sortedBy (·.value) setup.capabilities.dedup }) =
    b.map fun setup => { setup with
      platforms := sortedSet setup.platforms
      capabilities := sortedBy (·.value) setup.capabilities.dedup } := by
  cases h with
  | none => rfl
  | some hsetup =>
      rw [Option.map_some, Option.map_some, hsetup.recipe, sortedSet_eq_of_perm hsetup.platforms,
        sortedBy_eq_of_perm capability_value_injective hsetup.capabilities.dedup]

theorem installEffect_value_injective {a b : InstallEffect} (h : a.value = b.value) : a = b := by
  cases a <;> cases b <;> first
    | rfl
    | exact absurd h (by decide)

/-- Artifacts that differ in order only have one normal form, where no identity is required twice. -/
theorem normalizeArtifact_eq (h : ArtifactArranged a b) (honce : RequiresOnce a) :
    normalizeArtifact a = normalizeArtifact b := by
  have hscopes : sortedBy (·.value) a.install.scopes.dedup = sortedBy (·.value) b.install.scopes.dedup :=
    sortedBy_eq_of_perm (fun _ _ heq => InstallScope.value_injective heq) h.scopes.dedup
  have hmodes : sortedBy (·.value) a.install.modes.dedup = sortedBy (·.value) b.install.modes.dedup :=
    sortedBy_eq_of_perm (fun _ _ heq => Manifest.InstallMode.value_injective heq) h.modes.dedup
  have heffects : sortedBy (·.value) a.install.effects.dedup = sortedBy (·.value) b.install.effects.dedup :=
    sortedBy_eq_of_perm (fun _ _ heq => installEffect_value_injective heq) h.effects.dedup
  have hfields : normalizeArtifact a = { a with
      compatibility := (normalizeArtifact b).compatibility, install := (normalizeArtifact b).install
      setup := (normalizeArtifact b).setup, collections := (normalizeArtifact b).collections
      requires := (normalizeArtifact b).requires } := by
    unfold normalizeArtifact
    rw [sortedSet_eq_of_perm h.profiles, sortedSet_eq_of_perm h.platforms, hscopes, hmodes, heffects,
      normalizeSetup_eq h.setup, sortedSet_eq_of_perm h.collections, normalizeRequires_eq h honce]
  rw [hfields, ← h.rest]
  rfl

end AgentArtifacts.Registry
