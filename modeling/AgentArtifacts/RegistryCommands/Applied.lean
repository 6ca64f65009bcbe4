import AgentArtifacts.RegistryCommands.Planned
import AgentArtifacts.RegistryCommands.Reread

/-!
# Plans that are made and applied

Between a plan and its application stand the mode of the files that are replaced, the
directories that the walk leaves out and the bounds of the reader. A plan is applied exactly
when none of them is in its way. The planner raises nothing exactly when no file changes its
mode, when there is a change and every pruned file is managed.
-/

namespace AgentArtifacts.RegistryCommands

open Registry (entryAt entryAt_of entryAt_of_perm entryAt_of_mem mem_of_entryAt entryAt_eq_some sortedBy perm_sortedBy mem_sortedBy snapshot_ext)
open Schema (pairwise_sortedBy refuse)

/-! ## The order of the walk -/

section Walk

theorem path_of_walkKey {a b : SnapshotEntry} {left right : Bool} (ha : a.path.parts ≠ []) (hb : b.path.parts ≠ [])
    (h : walkKey left a.path = walkKey right b.path) : a.path = b.path := by
  have hpair := toLex.injective h
  have hinit : a.path.parts.dropLast = b.path.parts.dropLast := congrArg Prod.fst hpair
  have hlast : lastName a.path = lastName b.path :=
    congrArg (fun pair => (ofLex pair).2) (congrArg Prod.snd hpair)
  have hform (path : SafeRelativePath) (hne : path.parts ≠ []) : path.parts = path.parts.dropLast ++ [lastName path] := by
    rw [lastName, List.getLastD_eq_getLast?, List.getLast?_eq_some_getLast hne, Option.getD_some]
    exact (List.dropLast_append_getLast hne).symm
  have hparts : a.path.parts = b.path.parts := by
    rw [hform a.path ha, hform b.path hb, hinit, hlast]
  cases hp : a.path
  cases hq : b.path
  rw [hp, hq] at hparts
  exact congrArg SafeRelativePath.mk hparts

/-- Entries in the order of the walk are determined by what they are. -/
theorem Checkout.walked_eq_walkOrder {checkout : Checkout} {entries : List SnapshotEntry} (hsound : checkout.Sound)
    (hperm : checkout.walked.Perm entries) (hkinds : ∀ entry ∈ entries, entry.kind = .directory ∨ entry.kind = .file) :
    checkout.walked = walkOrder entries := by
  have hboth : checkout.walked.Perm (walkOrder entries) := hperm.trans (perm_sortedBy _ _).symm
  have hwalked : checkout.walked.Pairwise fun a b =>
      walkKey (a.kind == .directory) a.path ≤ walkKey (b.kind == .directory) b.path := by
    refine (pairwise_sortedBy _ _).imp_of_mem fun {a b} ha hb hle => ?_
    rw [← amongDirectories_of_kind (hkinds a (hperm.mem_iff.mp ha)),
      ← amongDirectories_of_kind (hkinds b (hperm.mem_iff.mp hb))]
    exact hle
  refine hboth.eq_of_pairwise (fun a b ha hb hab hba => ?_) hwalked (pairwise_sortedBy _ _)
  have ha' := (Checkout.mem_walked.mp ha).1
  have hb' := (Checkout.mem_walked.mp (hboth.mem_iff.mpr hb)).1
  have hpath := path_of_walkKey (hsound.named a ha').1 (hsound.named b hb').1 (le_antisymm hab hba)
  exact List.inj_on_of_nodup_map hsound.distinct ha' hb' (by rw [hpath])

end Walk

/-! ## The workspace that is wanted -/

def DesiredFile.entry (file : DesiredFile) : SnapshotEntry := ⟨pathOf file.path, .file, file.content, file.executable⟩

/-- The snapshot with the desired files in it and the pruned ones gone. -/
def workspaceAfter (snapshot : SourceSnapshot) (desired : List DesiredFile) (pruned : List SnapshotEntry) : SourceSnapshot :=
  SourceSnapshot.of snapshot.origin (pruned.foldl (fun tree entry => deleteEntry tree entry.path.str)
    (desired.foldl (fun tree file => writeEntry tree file.entry) snapshot.entries))

/-- What the applier and the reader ask beyond the plan. -/
structure Fits (checkout : Checkout) (snapshot : SourceSnapshot) (desired : List DesiredFile) (pruned : List SnapshotEntry) :
    Prop where
  modes : ∀ file ∈ desired, ∀ entry, entryAt snapshot.entries file.path = some entry → entry.executable = file.executable
  visible : ∀ file ∈ desired, Visible (pathOf file.path)
  seen : ∀ file ∈ desired, (entryAt checkout.entries file.path).isSome → (entryAt snapshot.entries file.path).isSome
  sizes : ∀ file ∈ desired, file.content.length ≤ maxFileBytes
  bounds : WithinBounds (walkOrder (workspaceAfter snapshot desired pruned).entries)

section Workspace

variable [StandardLibrary] {checkout left : Checkout} {snapshot : SourceSnapshot} {operation : RegistryOperation}
  {desired : List DesiredFile} {pruneUnder : Option String} {expected next : ObjectDigest}

/-- A snapshot of a checkout is a tree of plain files. -/
theorem Checkout.Sound.closed_snapshot (hsound : checkout.Sound) (hread : checkout.snapshot = .ok snapshot)
    (hdigest : sourceSnapshotDigest snapshot = .ok expected) : Closed snapshot.entries := by
  have hhashable := hashable_of_digest hdigest
  refine ⟨hhashable, fun entry hentry parent hparent => ?_⟩
  have hfound : entryAt snapshot.entries entry.path.str = some entry := entryAt_of_mem hhashable.distinct hentry
  rw [hsound.entryAt_snapshot hread] at hfound
  obtain ⟨hdisk, hlisted⟩ := Option.filter_eq_some_iff.mp hfound
  have hentered : entered entry.path = true := by
    unfold Checkout.listed at hlisted
    exact (Bool.and_eq_true_iff.mp hlisted).1
  have habove := List.all_eq_true.mp hentered parent hparent
  have hdirectory := hsound.entryAt_directory (mem_of_entryAt hdisk).1 hparent
  have hparentListed : checkout.listed (directoryAt parent) = true := by
    have hname : lastName parent ≠ ".git" := by simpa using (Bool.and_eq_true_iff.mp habove).1
    refine listed_of_managed ?_ (Bool.and_eq_true_iff.mp habove).2 fun _ => hname
    refine List.all_eq_true.mpr fun higher hhigher => ?_
    exact List.all_eq_true.mp hentered higher (properAncestors_trans hparent hhigher)
  have hparentFound : entryAt snapshot.entries parent.str = some (directoryAt parent) := by
    rw [hsound.entryAt_snapshot hread, hdirectory]
    exact Option.filter_some_pos hparentListed
  exact (mem_of_entryAt hparentFound).1

/-- What the changes of a plan make of a snapshot, in any order. -/
theorem workspaceAfter_eq (hclosed : Closed snapshot.entries) (hdesired : ∀ file ∈ desired, Managed file)
    (hdistinct : (desired.map DesiredFile.path).Nodup) (hplaced : Placed snapshot.entries desired)
    {changes : List RegistryWorkspaceChange} (hperm : changes.Perm (plannedChanges snapshot.entries desired pruneUnder)) :
    SourceSnapshot.of snapshot.origin (changes.foldl performed snapshot.entries) =
      workspaceAfter snapshot desired (prunedFiles snapshot.entries desired pruneUnder) := by
  have hseparate : (plannedChanges snapshot.entries desired pruneUnder).Pairwise Separate :=
    separate_plannedChanges hclosed hdesired hdistinct hplaced
  have hnamed : ∀ change ∈ changes, Canonical change.path := fun change hmem =>
    named_plannedChanges hclosed hdesired change (hperm.mem_iff.mp hmem)
  have hunsorted : changes.Perm (desired.map (writtenChange snapshot.entries) ++
      (prunedFiles snapshot.entries desired pruneUnder).map removalChange) :=
    hperm.trans (List.Perm.append_right _ ((perm_sortedBy DesiredFile.path desired).map _))
  have hwrites (tree : List SnapshotEntry) : (desired.map (writtenChange snapshot.entries)).foldl performed tree =
      desired.foldl (fun tree file => writeEntry tree file.entry) tree := by
    rw [List.foldl_map]
    refine congrArg (fun step => List.foldl step tree desired) ?_
    funext tree file
    exact if_neg changeKind_ne_removed
  have hafter : (desired.map (writtenChange snapshot.entries) ++
      (prunedFiles snapshot.entries desired pruneUnder).map removalChange).foldl performed snapshot.entries =
      (prunedFiles snapshot.entries desired pruneUnder).foldl (fun tree entry => deleteEntry tree entry.path.str)
        (desired.foldl (fun tree file => writeEntry tree file.entry) snapshot.entries) := by
    rw [List.foldl_append, hwrites, List.foldl_map]
    rfl
  have hnodup := hclosed.hashable.distinct
  unfold workspaceAfter
  rw [← hafter]
  refine snapshot_ext rfl ?_ ?_ fun path => ?_
  · exact ((perm_sortByPath _).map _).nodup_iff.mpr (nodup_foldl_performed hnodup)
  · exact ((perm_sortByPath _).map _).nodup_iff.mpr (nodup_foldl_performed hnodup)
  · rw [entryAt_of (nodup_foldl_performed hnodup), entryAt_of (nodup_foldl_performed hnodup)]
    exact entryAt_foldl_perm hunsorted hnamed ((hperm.pairwise_iff fun {a b} => Separate.symm).mpr hseparate) path

theorem projectChanges_eq_after (hclosed : Closed snapshot.entries) (hdigest : sourceSnapshotDigest snapshot = .ok expected)
    (hdesired : ∀ file ∈ desired, Managed file) (hdistinct : (desired.map DesiredFile.path).Nodup)
    {projected : SourceSnapshot} :
    projectChanges snapshot (plannedChanges snapshot.entries desired pruneUnder) = .ok projected ↔
      Placed snapshot.entries desired ∧
        projected = workspaceAfter snapshot desired (prunedFiles snapshot.entries desired pruneUnder) := by
  rw [projectChanges_planned_iff hclosed hdigest hdesired hdistinct]
  refine and_congr_right fun hplaced => ?_
  rw [workspaceAfter_eq hclosed hdesired hdistinct hplaced (List.Perm.refl _)]

omit [StandardLibrary] in
theorem perm_sortChanges (changes : List RegistryWorkspaceChange) : (sortChanges changes).Perm changes := perm_sortedBy _ _

/-- A plan is projected again to the workspace that is wanted. -/
theorem projectPlan_planned (hclosed : Closed snapshot.entries) (hdigest : sourceSnapshotDigest snapshot = .ok expected)
    (hdesired : ∀ file ∈ desired, Managed file) (hdistinct : (desired.map DesiredFile.path).Nodup)
    (hplaced : Placed snapshot.entries desired)
    (hnext : sourceSnapshotDigest (workspaceAfter snapshot desired (prunedFiles snapshot.entries desired pruneUnder)) =
      .ok next) :
    projectRegistryWorkspacePlan snapshot
      (reviewedPlan operation expected next (sortChanges (plannedChanges snapshot.entries desired pruneUnder))) =
        .ok (workspaceAfter snapshot desired (prunedFiles snapshot.entries desired pruneUnder)) := by
  have hperm := perm_sortChanges (plannedChanges snapshot.entries desired pruneUnder)
  have hseparate : (plannedChanges snapshot.entries desired pruneUnder).Pairwise Separate :=
    separate_plannedChanges hclosed hdesired hdistinct hplaced
  have hfold := (guarded_projectChange.foldlM_eq_ok hseparate snapshot.entries _).mpr
    ⟨suits_plannedChanges hclosed hdesired hplaced, rfl⟩
  have hsorted := guarded_projectChange.foldlM_ok_of_perm hseparate hperm.symm hfold
  have hfiles : files snapshot = .ok snapshot.entries := by
    unfold files
    rw [hdigest]
  have hprojected : projectChanges snapshot (sortChanges (plannedChanges snapshot.entries desired pruneUnder)) =
      .ok (workspaceAfter snapshot desired (prunedFiles snapshot.entries desired pruneUnder)) := by
    unfold projectChanges
    rw [hfiles]
    simp only [bind, Except.bind, hsorted]
    exact congrArg Except.ok (workspaceAfter_eq hclosed hdesired hdistinct hplaced hperm)
  unfold projectRegistryWorkspacePlan reviewedPlan
  rw [hdigest]
  simp only [bind, Except.bind, refuse, bne_self_eq_false, Bool.false_eq_true, if_false, hprojected, hnext]
  rfl

/-- A plan whose changes can be projected. -/
structure Drafted (checkout : Checkout) (snapshot : SourceSnapshot) (desired : List DesiredFile)
    (pruneUnder : Option String) : Prop where
  sound : checkout.Sound
  read : checkout.snapshot = .ok snapshot
  closed : Closed snapshot.entries
  managed : ∀ file ∈ desired, Managed file
  distinct : (desired.map DesiredFile.path).Nodup
  placed : Placed snapshot.entries desired
  pruned : ∀ entry ∈ prunedFiles snapshot.entries desired pruneUnder, managedPath entry.path = true

theorem Drafted.reviewed (h : Drafted checkout snapshot desired pruneUnder) :
    Reviewed checkout snapshot (sortChanges (plannedChanges snapshot.entries desired pruneUnder)) := by
  obtain ⟨hsound, hread, hclosed, hdesired, hdistinct, hplaced, hmanaged⟩ := h
  have hperm := perm_sortChanges (plannedChanges snapshot.entries desired pruneUnder)
  have hseparate : (plannedChanges snapshot.entries desired pruneUnder).Pairwise Separate :=
    separate_plannedChanges hclosed hdesired hdistinct hplaced
  refine ⟨hsound, hread, fun change hmem => named_plannedChanges hclosed hdesired change (hperm.mem_iff.mp hmem),
    fun change hmem => ?_, (hperm.pairwise_iff fun {a b} => Separate.symm).mpr hseparate,
    fun change hmem => suits_plannedChanges hclosed hdesired hplaced change (hperm.mem_iff.mp hmem),
    fun change hmem hkind => ?_⟩
  · rcases List.mem_append.mp (hperm.mem_iff.mp hmem) with hmem | hmem
    · obtain ⟨file, hfile, rfl⟩ := List.mem_map.mp hmem
      exact (hdesired file (mem_sortedBy.mp hfile)).managed
    · obtain ⟨entry, hentry, rfl⟩ := List.mem_map.mp hmem
      exact hmanaged entry hentry
  · rcases List.mem_append.mp (hperm.mem_iff.mp hmem) with hmem | hmem
    · obtain ⟨file, hfile, rfl⟩ := List.mem_map.mp hmem
      have hfile := mem_sortedBy.mp hfile
      show entryAt snapshot.entries (pathOf file.path).str = some file.entry
      rw [str_pathOf]
      have hkind : changeKind file (entryAt snapshot.entries file.path) = .unchanged := hkind
      cases hfound : entryAt snapshot.entries file.path with
      | none =>
          rw [hfound] at hkind
          exact absurd hkind (by simp [changeKind])
      | some entry =>
          rw [hfound, changeKind] at hkind
          split at hkind
          · rename_i hsame
            obtain ⟨hentry, hpath⟩ := mem_of_entryAt hfound
            have hform : pathOf file.path = entry.path := by
              rw [← hpath]
              exact pathOf_str (hclosed.hashable.paths entry hentry)
            have hregular := hplaced.targets file hfile entry hfound
            rw [DesiredFile.entry, hform, ← hsame.1, ← hsame.2, file_of_kind hregular]
          · exact absurd hkind (by decide)
    · obtain ⟨entry, _, rfl⟩ := List.mem_map.mp hmem
      exact absurd hkind (by simp [removalChange])

/-- What the changes of a plan are, in any order. -/
theorem mem_sortedChanges {change : RegistryWorkspaceChange} :
    change ∈ sortChanges (plannedChanges snapshot.entries desired pruneUnder) ↔
      (∃ file ∈ desired, change = writtenChange snapshot.entries file) ∨
        ∃ entry ∈ prunedFiles snapshot.entries desired pruneUnder, change = removalChange entry := by
  rw [(perm_sortChanges _).mem_iff, plannedChanges, List.mem_append, List.mem_map, List.mem_map]
  simp only [mem_sortedBy, eq_comm (a := change)]

/-- What stands above a desired file in the checkout was read. -/
theorem Drafted.clearAbove (h : Drafted checkout snapshot desired pruneUnder) {file : DesiredFile} (hfile : file ∈ desired)
    (hvisible : Visible (pathOf file.path)) : ClearAbove checkout.entries (pathOf file.path) := by
  intro above habove entry hentry
  have hmanaged := h.managed file hfile
  obtain ⟨hmem, hpath⟩ := mem_of_entryAt hentry
  obtain ⟨hne, hnames⟩ := h.sound.named entry hmem
  have hform : entry.path = above := by
    rw [ancestor_of_text hmanaged.canonical habove, ← hpath, SafeRelativePath.str, Manifest.splitChar_slashJoin hnames hne]
  have hlisted : checkout.listed entry = true :=
    listed_above hmanaged.canonical hmanaged.managed hvisible (hform ▸ habove)
  refine h.placed.above file hfile above habove entry ?_
  rw [h.sound.entryAt_snapshot h.read, hentry]
  exact Option.filter_some_pos hlisted

variable {entry : SnapshotEntry}

theorem Drafted.size_of_snapshot (h : Drafted checkout snapshot desired pruneUnder)
    (hentry : entry ∈ snapshot.entries) : entry.content.length ≤ maxFileBytes := by
  obtain ⟨hreadable, _, rfl⟩ := h.sound.snapshot_eq_ok.mp h.read
  exact (hreadable entry ((perm_sortByPath _).mem_iff.mp hentry)).size

/-- Every change lands that the plan makes. -/
theorem Drafted.lands (h : Drafted checkout snapshot desired pruneUnder)
    (hmodes : ∀ file ∈ desired, ∀ entry, entryAt snapshot.entries file.path = some entry → entry.executable = file.executable)
    (hvisible : ∀ file ∈ desired, Visible (pathOf file.path))
    (hseen : ∀ file ∈ desired, (entryAt checkout.entries file.path).isSome → (entryAt snapshot.entries file.path).isSome) :
    ∀ change ∈ sortChanges (plannedChanges snapshot.entries desired pruneUnder), Lands checkout change := by
  intro change hmem
  rcases mem_sortedChanges.mp hmem with ⟨file, hfile, rfl⟩ | ⟨entry, hentry, rfl⟩
  · have hpath : (writtenChange snapshot.entries file).path.str = file.path := str_pathOf file.path
    have hsame : entryAt checkout.entries file.path = entryAt snapshot.entries file.path := by
      cases hfound : entryAt snapshot.entries file.path with
      | some entry => exact h.reviewed.entryAt_of_snapshot hfound
      | none =>
          by_contra hne
          have hthere := hseen file hfile (Option.isSome_iff_ne_none.mpr hne)
          rw [hfound] at hthere
          exact absurd hthere (by simp)
    refine ⟨fun entry hentry => ?_, by rw [hpath, hsame]; rfl, h.clearAbove hfile (hvisible file hfile)⟩
    rw [hpath, hsame] at hentry
    exact ⟨h.placed.targets file hfile entry hentry, h.size_of_snapshot (mem_of_entryAt hentry).1,
      hmodes file hfile entry hentry⟩
  · obtain ⟨hentry, hkind, _⟩ := mem_prunedFiles hentry
    have hfound : entryAt checkout.entries (removalChange entry).path.str = some entry :=
      h.reviewed.entryAt_of_snapshot (entryAt_of_mem h.closed.hashable.distinct hentry)
    refine ⟨fun other hother => ?_, by rw [hfound]; rfl, fun above habove other hother => ?_⟩
    · obtain rfl := Option.some.inj (hfound.symm.trans hother)
      exact ⟨hkind, h.size_of_snapshot hentry, rfl⟩
    · have hdirectory := h.sound.entryAt_directory (mem_of_entryAt hfound).1 habove
      obtain rfl := Option.some.inj (hdirectory.symm.trans hother)
      rfl

omit [StandardLibrary] in
/-- Entries with the same lookups are the same up to their order. -/
theorem perm_of_lookup {left right : List SnapshotEntry} (hleft : (left.map (·.path.str)).Nodup)
    (hright : (right.map (·.path.str)).Nodup) (h : ∀ path, entryAt left path = entryAt right path) : left.Perm right := by
  refine (List.perm_ext_iff_of_nodup (List.Nodup.of_map _ hleft) (List.Nodup.of_map _ hright)).mpr fun entry => ?_
  constructor
  · intro hmem
    exact (mem_of_entryAt ((h entry.path.str).symm.trans (entryAt_of_mem hleft hmem))).1
  · intro hmem
    exact (mem_of_entryAt ((h entry.path.str).trans (entryAt_of_mem hright hmem))).1

/-- What stands at a path in the workspace that is wanted. -/
theorem Drafted.entryAt_after (h : Drafted checkout snapshot desired pruneUnder) (path : String) :
    entryAt (workspaceAfter snapshot desired (prunedFiles snapshot.entries desired pruneUnder)).entries path =
      entryAt ((sortChanges (plannedChanges snapshot.entries desired pruneUnder)).foldl performed snapshot.entries) path := by
  rw [← workspaceAfter_eq h.closed h.managed h.distinct h.placed (perm_sortChanges _),
    entryAt_of (nodup_foldl_performed h.closed.hashable.distinct)]

theorem Drafted.entryAt_desired (h : Drafted checkout snapshot desired pruneUnder) {file : DesiredFile}
    (hfile : file ∈ desired) :
    entryAt (workspaceAfter snapshot desired (prunedFiles snapshot.entries desired pruneUnder)).entries file.path =
      some file.entry := by
  have hmem : writtenChange snapshot.entries file ∈ sortChanges (plannedChanges snapshot.entries desired pruneUnder) :=
    mem_sortedChanges.mpr (Or.inl ⟨file, hfile, rfl⟩)
  have hpath : (writtenChange snapshot.entries file).path.str = file.path := str_pathOf file.path
  rw [h.entryAt_after, ← hpath]
  exact (entryAt_foldl_of_mem h.reviewed.separate hmem).trans (if_neg changeKind_ne_removed)

theorem Drafted.entryAt_pruned (h : Drafted checkout snapshot desired pruneUnder)
    (hentry : entry ∈ prunedFiles snapshot.entries desired pruneUnder) :
    entryAt (workspaceAfter snapshot desired (prunedFiles snapshot.entries desired pruneUnder)).entries entry.path.str =
      none := by
  rw [h.entryAt_after]
  have hmem : removalChange entry ∈ sortChanges (plannedChanges snapshot.entries desired pruneUnder) :=
    mem_sortedChanges.mpr (Or.inr ⟨entry, hentry, rfl⟩)
  exact (entryAt_foldl_of_mem h.reviewed.separate hmem).trans (if_pos rfl)

theorem Drafted.distinct_after (h : Drafted checkout snapshot desired pruneUnder) :
    ((workspaceAfter snapshot desired (prunedFiles snapshot.entries desired pruneUnder)).entries.map (·.path.str)).Nodup := by
  rw [← workspaceAfter_eq h.closed h.managed h.distinct h.placed (perm_sortChanges _)]
  exact ((perm_sortByPath _).map _).nodup_iff.mpr (nodup_foldl_performed h.closed.hashable.distinct)

/-- The checkout that the changes leave. -/
def Checkout.changed (checkout : Checkout) (changes : List RegistryWorkspaceChange) : Checkout :=
  { checkout with entries := (made changes).foldl performed checkout.entries }

theorem Drafted.sound_changed (h : Drafted checkout snapshot desired pruneUnder)
    (hlands : ∀ change ∈ made (sortChanges (plannedChanges snapshot.entries desired pruneUnder)), Lands checkout change) :
    (checkout.changed (sortChanges (plannedChanges snapshot.entries desired pruneUnder))).Sound := by
  have hsound := h.sound.foldl_after (fun change hmem => h.reviewed.named change (mem_made.mp hmem).1)
    (h.reviewed.separate.sublist List.filter_sublist) hlands
  rw [foldl_after] at hsound
  exact hsound

/-- The walk of the checkout that is left finds the workspace that is wanted. -/
theorem Drafted.walked_changed (h : Drafted checkout snapshot desired pruneUnder)
    (hvisible : ∀ file ∈ desired, Visible (pathOf file.path))
    (hlands : ∀ change ∈ made (sortChanges (plannedChanges snapshot.entries desired pruneUnder)), Lands checkout change) :
    (checkout.changed (sortChanges (plannedChanges snapshot.entries desired pruneUnder))).walked.Perm
      (workspaceAfter snapshot desired (prunedFiles snapshot.entries desired pruneUnder)).entries := by
  have hsound := h.sound_changed hlands
  refine perm_of_lookup hsound.walked_distinct h.distinct_after fun path => ?_
  rw [hsound.entryAt_walked, h.entryAt_after]
  refine h.reviewed.entryAt_left (fun change hmem hkind => ?_) path
  rcases mem_sortedChanges.mp hmem with ⟨file, hfile, rfl⟩ | ⟨entry, _, rfl⟩
  · exact hvisible file hfile
  · exact absurd rfl hkind

/-- No file of the workspace that is wanted is too large. -/
theorem Drafted.size_of_after (h : Drafted checkout snapshot desired pruneUnder)
    (hsizes : ∀ file ∈ desired, file.content.length ≤ maxFileBytes)
    (hentry : entryAt (workspaceAfter snapshot desired (prunedFiles snapshot.entries desired pruneUnder)).entries
      entry.path.str = some entry) : entry.content.length ≤ maxFileBytes := by
  rw [h.entryAt_after] at hentry
  by_cases hpath : ∀ change ∈ sortChanges (plannedChanges snapshot.entries desired pruneUnder),
      entry.path.str ≠ change.path.str
  · rw [entryAt_foldl_other h.reviewed.named hpath] at hentry
    cases hfound : entryAt snapshot.entries entry.path.str with
    | some known =>
        rw [hfound, Option.some_or] at hentry
        obtain rfl := Option.some.inj hentry
        exact h.size_of_snapshot (mem_of_entryAt hfound).1
    | none =>
        rw [hfound, Option.none_or] at hentry
        split at hentry
        · rw [← Option.some.inj hentry]
          exact Nat.zero_le _
        · exact absurd hentry (by simp)
  · simp only [not_forall, not_not, exists_prop] at hpath
    obtain ⟨change, hmem, hpath⟩ := hpath
    rw [hpath, entryAt_foldl_of_mem h.reviewed.separate hmem] at hentry
    split at hentry
    · exact absurd hentry (by simp)
    · rename_i hkind
      rw [← Option.some.inj hentry]
      rcases mem_sortedChanges.mp hmem with ⟨file, hfile, rfl⟩ | ⟨pruned, _, rfl⟩
      · exact hsizes file hfile
      · exact absurd rfl hkind

omit [StandardLibrary] in
theorem kind_of_hashable (h : entry.Hashable) : entry.kind = .directory ∨ entry.kind = .file := by
  unfold SnapshotEntry.Hashable at h
  cases hkind : entry.kind with
  | directory => exact Or.inl rfl
  | file => exact Or.inr rfl
  | symlink => rw [hkind] at h; exact h.elim
  | special => rw [hkind] at h; exact h.elim

/-- Where the plan fits, the checkout that is left is read as the workspace that is wanted. -/
theorem Drafted.snapshot_changed (h : Drafted checkout snapshot desired pruneUnder)
    (hfits : Fits checkout snapshot desired (prunedFiles snapshot.entries desired pruneUnder))
    (hnext : sourceSnapshotDigest (workspaceAfter snapshot desired (prunedFiles snapshot.entries desired pruneUnder)) =
      .ok next) :
    (checkout.changed (sortChanges (plannedChanges snapshot.entries desired pruneUnder))).snapshot =
      .ok (workspaceAfter snapshot desired (prunedFiles snapshot.entries desired pruneUnder)) := by
  have hlands := fun change hmem => h.lands hfits.modes hfits.visible hfits.seen change (mem_made.mp hmem).1
  have hsound := h.sound_changed hlands
  have hperm := h.walked_changed hfits.visible hlands
  have hhashable := hashable_of_digest hnext
  have hkinds := fun entry hentry => kind_of_hashable (hhashable.kinds entry hentry)
  refine hsound.snapshot_eq_ok.mpr ⟨fun entry hentry => ?_, ?_, ?_⟩
  · have hentry := hperm.mem_iff.mp hentry
    exact ⟨hkinds entry hentry, hhashable.paths entry hentry,
      h.size_of_after hfits.sizes (entryAt_of_mem h.distinct_after hentry)⟩
  · rw [Checkout.walked_eq_walkOrder hsound hperm hkinds]
    exact hfits.bounds
  · have horigin : snapshot.origin = .local := by
      obtain ⟨_, _, rfl⟩ := h.sound.snapshot_eq_ok.mp h.read
      rfl
    refine snapshot_ext horigin h.distinct_after ?_ fun path => ?_
    · exact ((perm_sortByPath _).map _).nodup_iff.mpr hsound.walked_distinct
    · rw [entryAt_of hsound.walked_distinct]
      exact entryAt_of_perm h.distinct_after hperm.symm path

/-- What is asked beyond the plan can be read off the checkout that is left. -/
theorem Drafted.fits_of_changed (h : Drafted checkout snapshot desired pruneUnder)
    (hlands : ∀ change ∈ made (sortChanges (plannedChanges snapshot.entries desired pruneUnder)), Lands checkout change)
    (hsnapshot : (checkout.changed (sortChanges (plannedChanges snapshot.entries desired pruneUnder))).snapshot =
      .ok (workspaceAfter snapshot desired (prunedFiles snapshot.entries desired pruneUnder))) :
    Fits checkout snapshot desired (prunedFiles snapshot.entries desired pruneUnder) := by
  have hsound := h.sound_changed hlands
  obtain ⟨hreadable, hbounds, heq⟩ := hsound.snapshot_eq_ok.mp hsnapshot
  have hperm : (checkout.changed (sortChanges (plannedChanges snapshot.entries desired pruneUnder))).walked.Perm
      (workspaceAfter snapshot desired (prunedFiles snapshot.entries desired pruneUnder)).entries := by
    rw [heq]
    exact (perm_sortByPath _).symm
  have hwalked {file : DesiredFile} (hfile : file ∈ desired) : file.entry ∈
      (checkout.changed (sortChanges (plannedChanges snapshot.entries desired pruneUnder))).walked :=
    hperm.mem_iff.mpr (mem_of_entryAt (h.entryAt_desired hfile)).1
  -- a change that is not made leaves what the plan saw, and every other lands
  have hcases {file : DesiredFile} (hfile : file ∈ desired) :
      entryAt snapshot.entries file.path = some file.entry ∨ Lands checkout (writtenChange snapshot.entries file) := by
    have hmem : writtenChange snapshot.entries file ∈ sortChanges (plannedChanges snapshot.entries desired pruneUnder) :=
      mem_sortedChanges.mpr (Or.inl ⟨file, hfile, rfl⟩)
    by_cases hkind : (writtenChange snapshot.entries file).kind = .unchanged
    · have hsame := h.reviewed.same _ hmem hkind
      rw [show (writtenChange snapshot.entries file).path.str = file.path from str_pathOf file.path] at hsame
      exact Or.inl hsame
    · exact Or.inr (hlands _ (mem_made.mpr ⟨hmem, hkind⟩))
  have hpath (file : DesiredFile) : (writtenChange snapshot.entries file).path.str = file.path := str_pathOf file.path
  refine ⟨fun file hfile entry hentry => ?_, fun file hfile => ?_, fun file hfile hthere => ?_, fun file hfile => ?_, ?_⟩
  · rcases hcases hfile with hsame | hland
    · obtain rfl := Option.some.inj (hsame.symm.trans hentry)
      rfl
    · refine (hland.file entry ?_).2.2
      rw [hpath]
      exact h.reviewed.entryAt_of_snapshot hentry
  · have hlisted := (Checkout.mem_walked.mp (hwalked hfile)).2
    unfold Checkout.listed at hlisted
    exact visible_of_entered (Bool.and_eq_true_iff.mp hlisted).1
  · rcases hcases hfile with hsame | hland
    · rw [hsame]
      rfl
    · have hbefore := hland.before
      rw [hpath] at hbefore
      have hdigests : (entryAt checkout.entries file.path).map (fun entry => sha256Bytes entry.content) =
          (entryAt snapshot.entries file.path).map fun entry => sha256Bytes entry.content := hbefore
      rw [← Option.isSome_map (f := fun entry : SnapshotEntry => sha256Bytes entry.content), ← hdigests, Option.isSome_map]
      exact hthere
  · exact (hreadable _ (hwalked hfile)).size
  · rw [← Checkout.walked_eq_walkOrder hsound hperm fun entry hentry => (hreadable entry (hperm.mem_iff.mpr hentry)).kind]
    exact hbounds

/-- A plan is applied exactly when nothing is in its way that the planner does not look at. -/
theorem Drafted.applies_iff (h : Drafted checkout snapshot desired pruneUnder)
    (hdigest : sourceSnapshotDigest snapshot = .ok expected)
    (hnext : sourceSnapshotDigest (workspaceAfter snapshot desired (prunedFiles snapshot.entries desired pruneUnder)) =
      .ok next) :
    (∃ receipt, checkout.applyLocked
        (reviewedPlan operation expected next (sortChanges (plannedChanges snapshot.entries desired pruneUnder))) =
          (.ok receipt, left)) ↔
      Fits checkout snapshot desired (prunedFiles snapshot.entries desired pruneUnder) ∧
        left = checkout.changed (sortChanges (plannedChanges snapshot.entries desired pruneUnder)) := by
  rw [applyLocked_iff h.read (projectPlan_planned h.closed hdigest h.managed h.distinct h.placed hnext)
    (h.reviewed.separate.sublist List.filter_sublist)]
  constructor
  · rintro ⟨hlands, rfl, hsnapshot⟩
    exact ⟨h.fits_of_changed hlands hsnapshot, rfl⟩
  · rintro ⟨hfits, rfl⟩
    exact ⟨fun change hmem => h.lands hfits.modes hfits.visible hfits.seen change (mem_made.mp hmem).1, rfl,
      h.snapshot_changed hfits hnext⟩

end Workspace

/-! ## Which plans can be made and applied -/

open Registry (entryAt mem_of_entryAt perm_sortedBy mem_sortedBy sortedBy)

section Claims

variable [StandardLibrary] {checkout : Checkout} {snapshot : SourceSnapshot} {operation : RegistryOperation}
  {desired : List DesiredFile} {pruneUnder : Option String}

/-- The planner returns, and what it plans is applied, read again and found as it was wanted. -/
structure PlansAndApplies (checkout : Checkout) (snapshot : SourceSnapshot) (operation : RegistryOperation)
    (desired : List DesiredFile) (pruneUnder : Option String) : Prop where
  returns : ∀ message, planWorkspace operation snapshot desired pruneUnder ≠ raised message
  applies : ∀ plan, planWorkspace operation snapshot desired pruneUnder = .ok plan →
    ∃ receipt left after, checkout.applyLocked plan = (.ok receipt, left) ∧ left.snapshot = .ok after ∧
      sourceSnapshotDigest after = .ok plan.nextSnapshotDigest ∧
      (∀ file ∈ desired, ∃ entry, entryAt after.entries file.path = some entry ∧ entry.kind = .file ∧
        entry.content = file.content ∧ entry.executable = file.executable) ∧
      ∀ entry ∈ prunedFiles snapshot.entries desired pruneUnder, entryAt after.entries entry.path.str = none

/-- The condition under which a plan can be made and applied. -/
def Workable (checkout : Checkout) (snapshot : SourceSnapshot) (desired : List DesiredFile) (pruned : List SnapshotEntry) :
    Prop :=
  Expressible snapshot.entries desired pruned ∧
    ∀ next, Placed snapshot.entries desired → sourceSnapshotDigest (workspaceAfter snapshot desired pruned) = .ok next →
      Fits checkout snapshot desired pruned

theorem managed_of_parsed (h : ∀ file ∈ desired, ∃ path, parseRelativePath file.path = .ok path ∧ managedPath path = true) :
    ∀ file ∈ desired, Managed file := by
  intro file hfile
  obtain ⟨path, hparsed, hmanaged⟩ := h file hfile
  obtain rfl : path = pathOf file.path := parseRelativePath_parts hparsed
  exact ⟨hparsed, hmanaged⟩

/-! ### Plans that were made -/

theorem managed_of_workspaceChange {file : DesiredFile} {before : Option SnapshotEntry} {change : RegistryWorkspaceChange}
    (h : workspaceChange file before = .ok change) : Managed file ∧ change.path = pathOf file.path := by
  obtain ⟨path, hpath, h⟩ := Result.of_bind_ok h
  unfold assertedPath at hpath
  split at hpath
  · exact absurd hpath (by simp [raised, error])
  rename_i found hparsed
  obtain rfl := Except.ok.inj hpath
  obtain rfl : found = pathOf file.path := parseRelativePath_parts hparsed
  unfold registryWorkspaceChange at h
  obtain ⟨hvalid, h⟩ := Result.of_check_ok h
  obtain ⟨_, h⟩ := Result.of_check_ok h
  obtain ⟨_, h⟩ := Result.of_check_ok h
  obtain ⟨_, h⟩ := Result.of_check_ok h
  obtain ⟨_, h⟩ := Result.of_check_ok h
  obtain rfl := Except.ok.inj h
  refine ⟨⟨hparsed, ?_⟩, rfl⟩
  by_contra hnot
  simp [hnot] at hvalid

theorem paths_of_written {current : List SnapshotEntry} {ordered : List DesiredFile} {written : List RegistryWorkspaceChange}
    (h : ordered.mapM (fun file => workspaceChange file (entryAt current file.path)) = .ok written) :
    written.map (·.path) = (ordered.map DesiredFile.path).map pathOf := by
  have hall := Result.forall₂_of_mapM_ok h
  clear h
  induction hall with
  | nil => rfl
  | cons hfirst _ ih => rw [List.map_cons, List.map_cons, List.map_cons, ih, (managed_of_workspaceChange hfirst).2]

/-- The files of a plan that was made are managed and have distinct paths. -/
theorem wanted_of_planned {plan : RegistryWorkspacePlan} (h : planWorkspace operation snapshot desired pruneUnder = .ok plan) :
    (∃ expected, sourceSnapshotDigest snapshot = .ok expected) ∧ (∀ file ∈ desired, Managed file) ∧
      (desired.map DesiredFile.path).Nodup := by
  obtain ⟨current, _, h1⟩ := Result.of_bind_ok h
  obtain ⟨expected, hexpected, h2⟩ := Result.of_bind_ok h1
  obtain ⟨written, hwritten, h3⟩ := Result.of_bind_ok h2
  obtain ⟨removed, _, h4⟩ := Result.of_bind_ok h3
  obtain ⟨projected, _, h5⟩ := Result.of_bind_ok h4
  obtain ⟨next, _, h6⟩ := Result.of_bind_ok h5
  refine ⟨⟨expected, hexpected⟩, fun file hfile => ?_, ?_⟩
  · obtain ⟨change, _, hchange⟩ := Result.ok_of_mapM_ok hwritten (mem_sortedBy.mpr hfile)
    exact (managed_of_workspaceChange hchange).1
  · have hpaths := paths_of_written hwritten
    have hsorted : ((sortChanges (written ++ removed)).map (·.path)).Nodup := by
      unfold registryWorkspacePlan at h6
      obtain ⟨hvalid, _⟩ := Result.of_check_ok h6
      by_contra hnot
      simp [hnot] at hvalid
    have hchanges : ((written ++ removed).map (·.path)).Nodup := ((perm_sortChanges _).map _).nodup_iff.mp hsorted
    rw [List.map_append, hpaths] at hchanges
    have htexts := List.Nodup.of_map _ (List.nodup_append.mp hchanges).1
    exact ((perm_sortedBy DesiredFile.path desired).map _).nodup_iff.mp htexts

/-- What a plan that was made is projected to. -/
theorem drafted_of_planned {plan : RegistryWorkspacePlan} (hsha : Sha256Length) (hsound : checkout.Sound)
    (hread : checkout.snapshot = .ok snapshot) (h : planWorkspace operation snapshot desired pruneUnder = .ok plan) :
    Drafted checkout snapshot desired pruneUnder ∧ (made plan.changes).Pairwise Separate ∧
      projectRegistryWorkspacePlan snapshot plan =
        .ok (workspaceAfter snapshot desired (prunedFiles snapshot.entries desired pruneUnder)) := by
  obtain ⟨⟨expected, hdigest⟩, hdesired, hdistinct⟩ := wanted_of_planned h
  have hclosed := hsound.closed_snapshot hread hdigest
  have hexpressible := (planWorkspace_returns_iff hsha hdesired hdistinct hdigest).mp fun message hraised => by
    rw [h] at hraised
    exact absurd hraised (by simp [raised, error])
  obtain ⟨projected, next, hprojected, hnext, rfl⟩ := (planWorkspace_eq_ok hsha hdesired hdistinct hdigest hexpressible).mp h
  obtain ⟨hplaced, rfl⟩ := (projectChanges_eq_after hclosed hdigest hdesired hdistinct).mp hprojected
  have hdraft : Drafted checkout snapshot desired pruneUnder :=
    ⟨hsound, hread, hclosed, hdesired, hdistinct, hplaced, hexpressible.managed⟩
  exact ⟨hdraft, hdraft.reviewed.separate.sublist List.filter_sublist,
    projectPlan_planned hclosed hdigest hdesired hdistinct hplaced hnext⟩

theorem plansAndApplies_iff (hsha : Sha256Length) (hsound : checkout.Sound) (hread : checkout.snapshot = .ok snapshot)
    (hmanaged : ∀ file ∈ desired, ∃ path, parseRelativePath file.path = .ok path ∧ managedPath path = true)
    (hdistinct : (desired.map DesiredFile.path).Nodup) :
    PlansAndApplies checkout snapshot operation desired pruneUnder ↔
      ∀ expected, sourceSnapshotDigest snapshot = .ok expected →
        Workable checkout snapshot desired (prunedFiles snapshot.entries desired pruneUnder) := by
  have hdesired := managed_of_parsed hmanaged
  cases hdigest : sourceSnapshotDigest snapshot with
  | error diagnostics =>
      -- a snapshot without a digest is refused before anything is planned
      have hrefused : planWorkspace operation snapshot desired pruneUnder =
          commandError "registry command requires one safe inert workspace snapshot" := by
        unfold planWorkspace files
        rw [hdigest]
        rfl
      refine iff_of_true ⟨fun message => ?_, fun plan hplan => ?_⟩ (by simp)
      · rw [hrefused]
        exact commandError_returns _ message
      · rw [hrefused] at hplan
        exact absurd hplan (by simp [commandError, error])
  | ok expected =>
      have hclosed := hsound.closed_snapshot hread hdigest
      have hreturns : Returns (planWorkspace operation snapshot desired pruneUnder) ↔
          Expressible snapshot.entries desired (prunedFiles snapshot.entries desired pruneUnder) :=
        planWorkspace_returns_iff hsha hdesired hdistinct hdigest
      constructor
      · rintro ⟨hnever, happlies⟩ _ _
        have hexpressible := hreturns.mp hnever
        refine ⟨hexpressible, fun next hplaced hnext => ?_⟩
        have hdraft : Drafted checkout snapshot desired pruneUnder :=
          ⟨hsound, hread, hclosed, hdesired, hdistinct, hplaced, hexpressible.managed⟩
        have hplan : planWorkspace operation snapshot desired pruneUnder =
            .ok (reviewedPlan operation expected next (sortChanges (plannedChanges snapshot.entries desired pruneUnder))) :=
          (planWorkspace_eq_ok hsha hdesired hdistinct hdigest hexpressible).mpr
            ⟨_, next, (projectChanges_eq_after hclosed hdigest hdesired hdistinct).mpr ⟨hplaced, rfl⟩, hnext, rfl⟩
        obtain ⟨receipt, left, after, happlied, _⟩ := happlies _ hplan
        exact ((hdraft.applies_iff hdigest hnext).mp ⟨receipt, happlied⟩).1
      · intro h
        obtain ⟨hexpressible, hfits⟩ := h expected rfl
        refine ⟨hreturns.mpr hexpressible, fun plan hplan => ?_⟩
        obtain ⟨projected, next, hprojected, hnext, rfl⟩ :=
          (planWorkspace_eq_ok hsha hdesired hdistinct hdigest hexpressible).mp hplan
        obtain ⟨hplaced, rfl⟩ := (projectChanges_eq_after hclosed hdigest hdesired hdistinct).mp hprojected
        have hdraft : Drafted checkout snapshot desired pruneUnder :=
          ⟨hsound, hread, hclosed, hdesired, hdistinct, hplaced, hexpressible.managed⟩
        have hfit := hfits next hplaced hnext
        obtain ⟨receipt, happlied⟩ := (hdraft.applies_iff hdigest hnext).mpr ⟨hfit, rfl⟩
        refine ⟨receipt, _, _, happlied, hdraft.snapshot_changed hfit hnext, hnext, fun file hfile => ?_,
          fun entry hentry => hdraft.entryAt_pruned hentry⟩
        exact ⟨_, hdraft.entryAt_desired hfile, rfl, rfl, rfl⟩

end Claims

/-! ## A file that becomes executable -/

section Samples

local instance : StandardLibrary := storeLibrary

def toolFile : SnapshotEntry := ⟨⟨["entries", "tool.sh"]⟩, .file, [104, 105], false⟩

def toolCheckout : Checkout := ⟨[directoryAt ⟨["entries"]⟩, toolFile], []⟩

def toolSnapshot : SourceSnapshot := SourceSnapshot.of .local [directoryAt ⟨["entries"]⟩, toolFile]

theorem toolCheckout_sound : toolCheckout.Sound where
  named := by decide
  distinct := by decide
  closed := by decide
  bare := by decide

theorem toolCheckout_snapshot : toolCheckout.snapshot = .ok toolSnapshot := by rfl

def executableTool : DesiredFile := ⟨"entries/tool.sh", [104, 105], true⟩

theorem mode_change_raises :
    toolCheckout.Sound ∧ toolCheckout.snapshot = .ok toolSnapshot ∧
      parseRelativePath executableTool.path = .ok ⟨["entries", "tool.sh"]⟩ ∧
      managedPath ⟨["entries", "tool.sh"]⟩ = true ∧
      planWorkspace .publish toolSnapshot [executableTool] none =
        raised "changed workspace file requires distinct digests" ∧
      ¬ PlansAndApplies toolCheckout toolSnapshot .publish [executableTool] none := by
  have hraised : planWorkspace .publish toolSnapshot [executableTool] none =
      raised "changed workspace file requires distinct digests" := by rfl
  exact ⟨toolCheckout_sound, toolCheckout_snapshot, by rfl, by decide, hraised, fun h => h.returns _ hraised⟩

def secondTool : DesiredFile := ⟨"entries/more.sh", [111], true⟩

theorem added_file_applies : PlansAndApplies toolCheckout toolSnapshot .publish [secondTool] none := by
  refine (plansAndApplies_iff storeLibrary_sha256Length toolCheckout_sound toolCheckout_snapshot ?_ ?_).mpr fun _ _ => ?_
  · simp only [List.mem_singleton, forall_eq]
    exact ⟨⟨["entries", "more.sh"]⟩, by rfl, by decide⟩
  · decide
  · refine ⟨⟨?_, ?_, Or.inl (by decide)⟩, fun _ _ _ => ⟨?_, ?_, ?_, ?_, withinBounds_of_total ?_ ?_⟩⟩
    · decide
    · decide
    · have hnone : entryAt toolSnapshot.entries secondTool.path = none := by decide
      simp [hnone]
    · show ∀ file ∈ [secondTool], ∀ above ∈ properAncestors (pathOf file.path), lastName above ≠ ".git"
      decide
    · decide
    · decide
    · decide
    · decide

end Samples

end AgentArtifacts.RegistryCommands
