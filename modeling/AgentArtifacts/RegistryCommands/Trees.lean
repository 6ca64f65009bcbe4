import AgentArtifacts.RegistryCommands.Landing

/-!
# What changes leave is a tree

Distinct paths stay distinct under changes, and a file tree in which every change lands is a
file tree afterwards.
-/

namespace AgentArtifacts.RegistryCommands

open Maintenance (setEntry entryAt_setEntry)
open Registry (entryAt entryAt_eq_none mem_of_entryAt entryAt_of_mem entryAt_eq_some)

variable {entries : List SnapshotEntry} {entry : SnapshotEntry} {change : RegistryWorkspaceChange}
  {changes : List RegistryWorkspaceChange}

/-! ## Distinct paths -/

theorem nodup_append_entry (h : (entries.map (·.path.str)).Nodup) (hnew : entryAt entries entry.path.str = none) :
    ((entries ++ [entry]).map (·.path.str)).Nodup := by
  rw [List.map_append, List.nodup_append]
  refine ⟨h, List.nodup_singleton _, fun a ha b hb hsame => ?_⟩
  obtain ⟨known, hknown, rfl⟩ := List.mem_map.mp ha
  obtain rfl : b = entry.path.str := by simpa using hb
  exact entryAt_eq_none.mp hnew known hknown hsame

theorem nodup_setEntry (h : (entries.map (·.path.str)).Nodup) : ((setEntry entries entry).map (·.path.str)).Nodup := by
  unfold setEntry
  split
  · have hsame : (entries.map fun known => if known.path.str = entry.path.str then entry else known).map (·.path.str) =
        entries.map (·.path.str) := by
      rw [List.map_map]
      refine List.map_congr_left fun known _ => ?_
      show (if known.path.str = entry.path.str then entry else known).path.str = known.path.str
      split
      · exact Eq.symm ‹_›
      · rfl
    rw [hsame]
    exact h
  · rename_i hnone
    exact nodup_append_entry h (by simpa using hnone)

theorem nodup_makeDirectories {directories : List SafeRelativePath} (h : (entries.map (·.path.str)).Nodup) :
    ((directories.foldl makeDirectory entries).map (·.path.str)).Nodup := by
  induction directories generalizing entries with
  | nil => exact h
  | cons directory rest ih =>
      rw [List.foldl_cons]
      refine ih ?_
      unfold makeDirectory
      split
      · exact h
      · rename_i hnone
        have hnew : entryAt entries (directoryAt directory).path.str = none := Option.not_isSome_iff_eq_none.mp hnone
        exact nodup_append_entry h hnew

theorem nodup_performed (h : (entries.map (·.path.str)).Nodup) : ((performed entries change).map (·.path.str)).Nodup := by
  unfold performed
  split
  · exact h.sublist (List.filter_sublist.map _)
  · exact nodup_makeDirectories (nodup_setEntry h)

theorem nodup_foldl_performed (h : (entries.map (·.path.str)).Nodup) :
    ((changes.foldl performed entries).map (·.path.str)).Nodup := by
  induction changes generalizing entries with
  | nil => exact h
  | cons change rest ih => exact ih (nodup_performed h)

/-- What stands at a path does not depend on the order of separate changes. -/
theorem entryAt_foldl_perm [StandardLibrary] {others : List RegistryWorkspaceChange} (hperm : changes.Perm others)
    (hnamed : ∀ change ∈ changes, Canonical change.path) (hseparate : changes.Pairwise Separate) (path : String) :
    entryAt (changes.foldl performed entries) path = entryAt (others.foldl performed entries) path := by
  have hothers : others.Pairwise Separate := (hperm.pairwise_iff fun {a b} => Separate.symm).mp hseparate
  by_cases hpath : ∀ change ∈ changes, path ≠ change.path.str
  · rw [entryAt_foldl_other hnamed hpath, entryAt_foldl_other (fun change h => hnamed change (hperm.mem_iff.mpr h))
      fun change h => hpath change (hperm.mem_iff.mpr h)]
    have hmade : MadeBy changes (pathOf path) ↔ MadeBy others (pathOf path) := by
      simp only [MadeBy, hperm.mem_iff]
    simp only [hmade]
  · simp only [not_forall, not_not, exists_prop] at hpath
    obtain ⟨change, hmem, rfl⟩ := hpath
    rw [entryAt_foldl_of_mem hseparate hmem, entryAt_foldl_of_mem hothers (hperm.mem_iff.mp hmem)]

/-! ## File trees -/

section Sound

variable [StandardLibrary] {checkout : Checkout}

omit [StandardLibrary] in
theorem Checkout.Sound.entryAt_directory (hsound : checkout.Sound) {directory : SafeRelativePath}
    (hmem : entry ∈ checkout.entries) (h : directory ∈ properAncestors entry.path) :
    entryAt checkout.entries directory.str = some (directoryAt directory) :=
  entryAt_of_mem hsound.distinct (hsound.closed entry hmem directory h)

omit [StandardLibrary] in
/-- Directories of a tree are determined by their texts. -/
theorem Checkout.Sound.eq_directoryAt (hsound : checkout.Sound) {directory : SafeRelativePath}
    (hform : pathOf directory.str = directory) (hentry : entryAt checkout.entries directory.str = some entry)
    (hkind : entry.kind = .directory) : entry = directoryAt directory := by
  obtain ⟨hmem, hpath⟩ := mem_of_entryAt hentry
  obtain ⟨hne, hnames⟩ := hsound.named entry hmem
  have hsame : entry.path = directory := by
    rw [← hform, ← hpath, pathOf, SafeRelativePath.str, Manifest.splitChar_slashJoin hnames hne]
  rw [hsound.bare entry hmem hkind, hsame]

theorem Checkout.Sound.after (hsound : checkout.Sound) (hnamed : Canonical change.path) (hlands : Lands checkout change) :
    (checkout.after change).Sound := by
  have hdistinct : ((checkout.after change).entries.map (·.path.str)).Nodup := nodup_performed hsound.distinct
  obtain ⟨hne, hsafe, _, _⟩ := canonical_iff.mp hnamed
  -- an entry is the written file, a directory above it or one that was there
  have hcases (entry : SnapshotEntry) (h : entry ∈ (checkout.after change).entries) :
      (change.kind ≠ .removed ∧ entry = change.entry) ∨
      (change.kind ≠ .removed ∧ ∃ above ∈ properAncestors change.path, entry = directoryAt above) ∨
      (entry ∈ checkout.entries ∧ entry.path.str ≠ change.path.str) := by
    have hfound : entryAt (performed checkout.entries change) entry.path.str = some entry := entryAt_of_mem hdistinct h
    by_cases hpath : entry.path.str = change.path.str
    · rw [hpath] at hfound
      unfold performed at hfound
      split at hfound
      · rw [entryAt_deleteEntry, if_pos rfl] at hfound
        exact absurd hfound (by simp)
      · rename_i hkind
        rw [entryAt_writeEntry, if_pos rfl] at hfound
        exact Or.inl ⟨hkind, (Option.some.inj hfound).symm⟩
    · rw [entryAt_performed_other hnamed hpath] at hfound
      cases hold : entryAt checkout.entries entry.path.str with
      | some known =>
          rw [hold, Option.some_or] at hfound
          obtain rfl := Option.some.inj hfound
          exact Or.inr (Or.inr ⟨(mem_of_entryAt hold).1, hpath⟩)
      | none =>
          rw [hold, Option.none_or] at hfound
          split at hfound
          · rename_i hmade
            exact Or.inr (Or.inl ⟨hmade.1, _, hmade.2, (Option.some.inj hfound).symm⟩)
          · exact absurd hfound (by simp)
  have habove (hkind : change.kind ≠ .removed) (above : SafeRelativePath) (h : above ∈ properAncestors change.path) :
      directoryAt above ∈ (checkout.after change).entries := by
    have hform : pathOf above.str = above := (ancestor_of_text hnamed h).symm
    have hfound : entryAt (performed checkout.entries change) above.str = some (directoryAt above) := by
      rw [entryAt_performed_other hnamed (str_ne_of_ancestor hnamed h), hform, if_pos ⟨hkind, h⟩]
      cases hold : entryAt checkout.entries above.str with
      | none => rfl
      | some known =>
          rw [hsound.eq_directoryAt hform hold (hlands.above above h known hold)]
          rfl
    exact (mem_of_entryAt hfound).1
  refine ⟨fun entry h => ?_, hdistinct, fun entry h parent hparent => ?_, fun entry h hkind => ?_⟩
  · rcases hcases entry h with ⟨_, rfl⟩ | ⟨_, above, hmem, rfl⟩ | ⟨hmem, _⟩
    · exact ⟨hne, fun part hpart => (hsafe part hpart).slash⟩
    · obtain ⟨n, hpos, hn, rfl⟩ := mem_properAncestors.mp hmem
      refine ⟨fun hnil => ?_, fun part hpart => (hsafe part (List.mem_of_mem_take hpart)).slash⟩
      have hlength := congrArg List.length (show change.path.parts.take n = [] from hnil)
      rw [List.length_take, List.length_nil] at hlength
      omega
    · exact hsound.named entry hmem
  · rcases hcases entry h with ⟨hkind, rfl⟩ | ⟨hkind, above, hmem, rfl⟩ | ⟨hmem, _⟩
    · exact habove hkind parent hparent
    · exact habove hkind parent (properAncestors_trans hmem hparent)
    · have hold := hsound.entryAt_directory hmem hparent
      have hpath : parent.str ≠ change.path.str := by
        intro hsame
        rw [hsame] at hold
        exact absurd (hlands.file _ hold).1 (by simp [directoryAt])
      exact (mem_of_entryAt (entryAt_performed_of_some hnamed hpath hold)).1
  · rcases hcases entry h with ⟨_, rfl⟩ | ⟨_, above, _, rfl⟩ | ⟨hmem, _⟩
    · exact absurd hkind (by simp [RegistryWorkspaceChange.entry])
    · rfl
    · exact hsound.bare entry hmem hkind

theorem Checkout.Sound.foldl_after (hsound : checkout.Sound) (hnamed : ∀ change ∈ changes, Canonical change.path)
    (hseparate : changes.Pairwise Separate) (hlands : ∀ change ∈ changes, Lands checkout change) :
    (changes.foldl Checkout.after checkout).Sound := by
  induction changes generalizing checkout with
  | nil => exact hsound
  | cons change rest ih =>
      obtain ⟨hfirst, hnamed⟩ := List.forall_mem_cons.mp hnamed
      obtain ⟨happart, hseparate⟩ := List.pairwise_cons.mp hseparate
      obtain ⟨hland, hlands⟩ := List.forall_mem_cons.mp hlands
      exact ih (hsound.after hfirst hland) hnamed hseparate fun later hlater =>
        (happart later hlater).lands_after.mpr (hlands later hlater)

end Sound

end AgentArtifacts.RegistryCommands
