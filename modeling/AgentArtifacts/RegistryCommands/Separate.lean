import AgentArtifacts.Library.Runs
import AgentArtifacts.RegistryCommands.Writes
import AgentArtifacts.Store.PathTexts

/-!
# Changes at separate paths

Two changes are separate when neither names the path of the other or a directory above it.
Separate changes are projected in every order or in none, and what stands at a path
afterwards does not depend on the order.
-/

namespace AgentArtifacts.RegistryCommands

open Maintenance (setEntry entryAt_setEntry)
open Registry (entryAt)

variable {entries : List SnapshotEntry} {change other : RegistryWorkspaceChange} {path : String}

/-- Neither change stands in the way of the other. -/
structure Separate (change other : RegistryWorkspaceChange) : Prop where
  paths : change.path.str ≠ other.path.str
  below : ∀ above ∈ properAncestors other.path, above.str ≠ change.path.str
  above : ∀ above ∈ properAncestors change.path, above.str ≠ other.path.str

theorem Separate.symm (h : Separate change other) : Separate other change := ⟨h.paths.symm, h.above, h.below⟩

theorem find?_above_eq_none {directory : SafeRelativePath} (h : ∀ above ∈ properAncestors directory, above.str ≠ path) :
    (properAncestors directory).find? (fun above => above.str == path) = none := by
  simpa using h

/-- At the path of a separate change nothing happens. -/
theorem Separate.entryAt_performed (h : Separate change other) :
    entryAt (performed entries change) other.path.str = entryAt entries other.path.str := by
  unfold performed
  split
  · rw [entryAt_deleteEntry, if_neg h.paths.symm]
  · rw [entryAt_writeEntry, if_neg h.paths.symm, find?_above_eq_none h.above, Option.map_none, Option.or_none]

/-- Whether a directory may stand above a separate change is not touched. -/
theorem Separate.directory_performed (h : Separate change other) {above : SafeRelativePath}
    (habove : above ∈ properAncestors other.path) :
    (∀ entry, entryAt (performed entries change) above.str = some entry → entry.kind = .directory) ↔
      ∀ entry, entryAt entries above.str = some entry → entry.kind = .directory := by
  have hpath : above.str ≠ change.path.str := h.below above habove
  unfold performed
  split
  · rw [entryAt_deleteEntry, if_neg hpath]
  · rw [entryAt_writeEntry, if_neg hpath]
    cases entryAt entries above.str with
    | some known => rw [Option.some_or]
    | none =>
        refine iff_of_true (fun entry hentry => ?_) (by simp)
        rw [Option.none_or] at hentry
        obtain ⟨directory, _, rfl⟩ := Option.map_eq_some_iff.mp hentry
        rfl

theorem Separate.clearAbove_performed (h : Separate change other) :
    ClearAbove (performed entries change) other.path ↔ ClearAbove entries other.path :=
  forall₂_congr fun _ habove => h.directory_performed habove

/-- The directories above a file are other paths. -/
theorem clearAbove_setEntry {entry : SnapshotEntry} (h : ∀ above ∈ properAncestors entry.path, above.str ≠ entry.path.str) :
    ClearAbove (setEntry entries entry) entry.path ↔ ClearAbove entries entry.path := by
  refine forall₂_congr fun above habove => ?_
  rw [entryAt_setEntry, if_neg (h above habove)]

section Projecting

variable [StandardLibrary]

theorem Separate.suits_performed (h : Separate change other) :
    Suits (performed entries change) other ↔ Suits entries other := by
  have habove : ClearAbove (setEntry (performed entries change) ⟨other.path, .file, other.content, other.executable⟩)
      other.path ↔ ClearAbove (setEntry entries ⟨other.path, .file, other.content, other.executable⟩) other.path := by
    refine forall₂_congr fun above hmem => ?_
    rw [entryAt_setEntry, entryAt_setEntry]
    split
    · rfl
    · exact h.directory_performed hmem
  constructor
  · intro hsuits
    exact ⟨by rw [← h.entryAt_performed]; exact hsuits.file, by rw [← h.entryAt_performed]; exact hsuits.before,
      fun hkind => habove.mp (hsuits.above hkind)⟩
  · intro hsuits
    exact ⟨by rw [h.entryAt_performed]; exact hsuits.file, by rw [h.entryAt_performed]; exact hsuits.before,
      fun hkind => habove.mpr (hsuits.above hkind)⟩

theorem guarded_projectChange : Independence.Guarded projectChange Suits performed Separate where
  ok _ _ _ := projectChange_eq_ok
  keeps _ _ _ h := h.suits_performed
  symm _ _ h := h.symm

end Projecting

/-! ## What stands at a path afterwards -/

section Afterwards

variable {changes : List RegistryWorkspaceChange}

def RegistryWorkspaceChange.entry (change : RegistryWorkspaceChange) : SnapshotEntry :=
  ⟨change.path, .file, change.content, change.executable⟩

/-- The changes that write make the directories above their paths. -/
def MadeBy (changes : List RegistryWorkspaceChange) (directory : SafeRelativePath) : Prop :=
  ∃ change ∈ changes, change.kind ≠ .removed ∧ directory ∈ properAncestors change.path

instance (directory : SafeRelativePath) : Decidable (MadeBy changes directory) :=
  inferInstanceAs (Decidable (∃ change ∈ changes, change.kind ≠ .removed ∧ directory ∈ properAncestors change.path))

theorem madeBy_cons {directory : SafeRelativePath} :
    MadeBy (change :: changes) directory ↔
      (change.kind ≠ .removed ∧ directory ∈ properAncestors change.path) ∨ MadeBy changes directory := by
  unfold MadeBy
  rw [List.exists_mem_cons_iff]

def pathOf (text : String) : SafeRelativePath := ⟨splitChar '/' text⟩

@[simp] theorem str_pathOf (text : String) : (pathOf text).str = text := Manifest.slashJoin_splitChar text

variable [StandardLibrary]

theorem pathOf_str {directory : SafeRelativePath} (h : Canonical directory) : pathOf directory.str = directory :=
  (parseRelativePath_parts h).symm

theorem find?_above {directory : SafeRelativePath} (h : Canonical directory) :
    (properAncestors directory).find? (fun above => above.str == path) =
      if pathOf path ∈ properAncestors directory then some (pathOf path) else none := by
  split
  · rename_i hmem
    cases hfound : (properAncestors directory).find? fun above => above.str == path with
    | some above =>
        have hpath : above.str = path := by simpa using List.find?_some hfound
        have habove := ancestor_of_text h (List.mem_of_find?_eq_some hfound)
        rw [hpath] at habove
        exact congrArg some habove
    | none => exact absurd (str_pathOf path) (by simpa using List.find?_eq_none.mp hfound _ hmem)
  · rename_i hmem
    refine find?_above_eq_none fun above habove hpath => hmem ?_
    have hform := ancestor_of_text h habove
    rw [hpath] at hform
    rwa [pathOf, ← hform]

theorem entryAt_performed_other (hnamed : Canonical change.path) (h : path ≠ change.path.str) :
    entryAt (performed entries change) path = (entryAt entries path).or
      (if change.kind ≠ .removed ∧ pathOf path ∈ properAncestors change.path then some (directoryAt (pathOf path))
      else none) := by
  unfold performed
  by_cases hkind : change.kind = .removed
  · rw [if_pos hkind, if_neg (fun hboth => hboth.1 hkind), entryAt_deleteEntry, if_neg h, Option.or_none]
  · rw [if_neg hkind, entryAt_writeEntry, if_neg h, find?_above hnamed]
    congr 1
    by_cases hmem : pathOf path ∈ properAncestors change.path
    · rw [if_pos hmem, if_pos ⟨hkind, hmem⟩, Option.map_some]
    · rw [if_neg hmem, if_neg (fun hboth => hmem hboth.2), Option.map_none]

/-- At a path that no change names what stands stays, or a directory is made. -/
theorem entryAt_foldl_other (hnamed : ∀ change ∈ changes, Canonical change.path)
    (h : ∀ change ∈ changes, path ≠ change.path.str) :
    entryAt (changes.foldl performed entries) path = (entryAt entries path).or
      (if MadeBy changes (pathOf path) then some (directoryAt (pathOf path)) else none) := by
  induction changes generalizing entries with
  | nil =>
      rw [if_neg (by simp [MadeBy]), Option.or_none]
      rfl
  | cons change rest ih =>
      obtain ⟨hfirst, hnamed⟩ := List.forall_mem_cons.mp hnamed
      obtain ⟨hpath, hrest⟩ := List.forall_mem_cons.mp h
      rw [List.foldl_cons, ih hnamed hrest, entryAt_performed_other hfirst hpath, Option.or_assoc]
      congr 1
      by_cases hmakes : change.kind ≠ .removed ∧ pathOf path ∈ properAncestors change.path
      · rw [if_pos hmakes, if_pos (madeBy_cons.mpr (Or.inl hmakes)), Option.some_or]
      · rw [if_neg hmakes, Option.none_or]
        simp only [madeBy_cons, hmakes, false_or]

omit [StandardLibrary] in
theorem entryAt_foldl_separate (h : ∀ other ∈ changes, Separate other change) :
    entryAt (changes.foldl performed entries) change.path.str = entryAt entries change.path.str := by
  induction changes generalizing entries with
  | nil => rfl
  | cons first rest ih =>
      obtain ⟨hfirst, hrest⟩ := List.forall_mem_cons.mp h
      rw [List.foldl_cons, ih hrest, hfirst.entryAt_performed]

omit [StandardLibrary] in
/-- At the path of a change stands what it writes, if anything. -/
theorem entryAt_foldl_of_mem (hseparate : changes.Pairwise Separate) (hmem : change ∈ changes) :
    entryAt (changes.foldl performed entries) change.path.str =
      if change.kind = .removed then none else some change.entry := by
  induction changes generalizing entries with
  | nil => exact absurd hmem List.not_mem_nil
  | cons first rest ih =>
      obtain ⟨hfirst, hrest⟩ := List.pairwise_cons.mp hseparate
      rw [List.foldl_cons]
      rcases List.mem_cons.mp hmem with rfl | hmem
      · rw [entryAt_foldl_separate fun later hlater => (hfirst later hlater).symm]
        unfold performed
        split
        · rw [entryAt_deleteEntry, if_pos rfl]
        · rw [entryAt_writeEntry, if_pos rfl]
          rfl
      · exact ih hrest hmem

end Afterwards

/-! ## Writes that go through in one order -/

section Writes

variable [StandardLibrary] {changes : List RegistryWorkspaceChange} {next : List SnapshotEntry}

theorem str_ne_of_ancestor {directory above : SafeRelativePath} (h : Canonical directory)
    (habove : above ∈ properAncestors directory) : above.str ≠ directory.str := by
  intro hsame
  have hform := ancestor_of_text h habove
  rw [hsame, ← parseRelativePath_parts h] at hform
  exact not_mem_properAncestors_self directory (hform ▸ habove)

theorem entryAt_performed_directory (hsuits : Suits entries change) (hkind : change.kind ≠ .removed)
    (hnamed : Canonical change.path) {above : SafeRelativePath} (habove : above ∈ properAncestors change.path) :
    ∃ entry, entryAt (performed entries change) above.str = some entry ∧ entry.kind = .directory := by
  have hpath := str_ne_of_ancestor hnamed habove
  have hform : pathOf above.str = above := (ancestor_of_text hnamed habove).symm
  rw [entryAt_performed_other hnamed hpath, hform, if_pos ⟨hkind, habove⟩]
  cases hfound : entryAt entries above.str with
  | none => exact ⟨_, rfl, rfl⟩
  | some known =>
      refine ⟨known, rfl, hsuits.above hkind above habove known ?_⟩
      rw [entryAt_setEntry, if_neg hpath]
      exact hfound

theorem entryAt_performed_of_some (hnamed : Canonical change.path) (h : path ≠ change.path.str)
    {entry : SnapshotEntry} (hentry : entryAt entries path = some entry) :
    entryAt (performed entries change) path = some entry := by
  rw [entryAt_performed_other hnamed h, hentry, Option.some_or]

/-- By induction, no change is projected to the path of a directory. -/
theorem paths_ne_of_directory (hnamed : ∀ change ∈ changes, Canonical change.path)
    {entry : SnapshotEntry} (hentry : entryAt entries path = some entry) (hkind : entry.kind = .directory)
    (h : changes.foldlM projectChange entries = .ok next) : ∀ change ∈ changes, change.path.str ≠ path := by
  induction changes generalizing entries with
  | nil => simp
  | cons change rest ih =>
      obtain ⟨hfirst, hnamed⟩ := List.forall_mem_cons.mp hnamed
      rw [List.foldlM_cons] at h
      obtain ⟨mid, hmid, h⟩ := Result.of_bind_ok h
      obtain ⟨hsuits, rfl⟩ := projectChange_eq_ok.mp hmid
      have hpath : change.path.str ≠ path := by
        rintro rfl
        have hfile := hsuits.file entry hentry
        rw [hkind] at hfile
        exact absurd hfile (by decide)
      exact List.forall_mem_cons.mpr
        ⟨hpath, ih hnamed (entryAt_performed_of_some hfirst hpath.symm hentry) h⟩

/-- By induction, no change is projected below a file that stays. -/
theorem above_ne_of_file (hnamed : ∀ change ∈ changes, Canonical change.path)
    (hwrites : ∀ change ∈ changes, change.kind ≠ .removed) (hpaths : ∀ change ∈ changes, change.path.str ≠ path)
    {entry : SnapshotEntry} (hentry : entryAt entries path = some entry) (hkind : entry.kind = .file)
    (h : changes.foldlM projectChange entries = .ok next) :
    ∀ change ∈ changes, ∀ above ∈ properAncestors change.path, above.str ≠ path := by
  induction changes generalizing entries with
  | nil => simp
  | cons change rest ih =>
      obtain ⟨hfirst, hnamed⟩ := List.forall_mem_cons.mp hnamed
      obtain ⟨hwrite, hwrites⟩ := List.forall_mem_cons.mp hwrites
      obtain ⟨hpath, hpaths⟩ := List.forall_mem_cons.mp hpaths
      rw [List.foldlM_cons] at h
      obtain ⟨mid, hmid, h⟩ := Result.of_bind_ok h
      obtain ⟨hsuits, rfl⟩ := projectChange_eq_ok.mp hmid
      refine List.forall_mem_cons.mpr
        ⟨?_, ih hnamed hwrites hpaths (entryAt_performed_of_some hfirst hpath.symm hentry) h⟩
      rintro above habove rfl
      have hdirectory := hsuits.above hwrite above habove entry (by
        rw [entryAt_setEntry, if_neg hpath.symm]
        exact hentry)
      rw [hkind] at hdirectory
      exact absurd hdirectory (by decide)

theorem separate_of_foldlM (hnamed : ∀ change ∈ changes, Canonical change.path)
    (hwrites : ∀ change ∈ changes, change.kind ≠ .removed)
    (hdistinct : changes.Pairwise fun change other => change.path.str ≠ other.path.str)
    (h : changes.foldlM projectChange entries = .ok next) : changes.Pairwise Separate := by
  induction changes generalizing entries with
  | nil => exact List.Pairwise.nil
  | cons change rest ih =>
      obtain ⟨hfirst, hnamed⟩ := List.forall_mem_cons.mp hnamed
      obtain ⟨hwrite, hwrites⟩ := List.forall_mem_cons.mp hwrites
      obtain ⟨hpaths, hdistinct⟩ := List.pairwise_cons.mp hdistinct
      rw [List.foldlM_cons] at h
      obtain ⟨mid, hmid, h⟩ := Result.of_bind_ok h
      obtain ⟨hsuits, rfl⟩ := projectChange_eq_ok.mp hmid
      have hwritten : entryAt (performed entries change) change.path.str = some change.entry := by
        unfold performed
        rw [if_neg hwrite, entryAt_writeEntry, if_pos rfl]
        rfl
      refine List.pairwise_cons.mpr ⟨fun later hlater => ⟨hpaths later hlater, ?_, fun above habove => ?_⟩,
        ih hnamed hwrites hdistinct h⟩
      · exact above_ne_of_file hnamed hwrites (fun later hlater => (hpaths later hlater).symm) hwritten rfl h later hlater
      · obtain ⟨entry, hentry, hkind⟩ := entryAt_performed_directory hsuits hwrite hfirst habove
        exact (paths_ne_of_directory hnamed hentry hkind h later hlater).symm

end Writes

end AgentArtifacts.RegistryCommands
