import AgentArtifacts.RegistryCommands.Trees
import AgentArtifacts.Store.ObjectEnvelope

/-!
# When a plan is made

A plan raises when a file changes its mode and keeps its content, when a pruned file is not
one of the managed paths, and when there is nothing to change. It is returned when the files
can be written where they are wanted and what they leave can be hashed.
-/

namespace AgentArtifacts.RegistryCommands

open Manifest (validDigest)
open Registry (entryAt entryAt_of_mem sortedBy perm_sortedBy mem_sortedBy)
open Schema (refuse sortedBy_sortedBy)

/-! ## The changes of a plan -/

section Changes

variable [StandardLibrary]

def changeKind (desired : DesiredFile) : Option SnapshotEntry → WorkspaceChangeKind
  | none => .added
  | some entry =>
      if entry.content = desired.content ∧ entry.executable = desired.executable then .unchanged else .changed

def writtenChange (entries : List SnapshotEntry) (desired : DesiredFile) : RegistryWorkspaceChange where
  path := pathOf desired.path
  kind := changeKind desired (entryAt entries desired.path)
  content := desired.content
  beforeDigest := (entryAt entries desired.path).map fun entry => sha256Bytes entry.content
  afterDigest := some (sha256Bytes desired.content)
  executable := desired.executable

def removalChange (entry : SnapshotEntry) : RegistryWorkspaceChange where
  path := entry.path
  kind := .removed
  content := []
  beforeDigest := some (sha256Bytes entry.content)
  afterDigest := none
  executable := entry.executable

/-- The changes of a plan, those that write before those that remove. -/
def plannedChanges (entries : List SnapshotEntry) (desired : List DesiredFile) (pruneUnder : Option String) :
    List RegistryWorkspaceChange :=
  (sortedBy DesiredFile.path desired).map (writtenChange entries) ++
    (prunedFiles entries desired pruneUnder).map removalChange

/-- A file that is there keeps its mode if it keeps its content. -/
def Steady (entries : List SnapshotEntry) (desired : DesiredFile) : Prop :=
  ∀ entry ∈ entryAt entries desired.path, sha256Bytes entry.content = sha256Bytes desired.content →
    entry.content = desired.content ∧ entry.executable = desired.executable

instance (entries : List SnapshotEntry) (desired : DesiredFile) : Decidable (Steady entries desired) :=
  inferInstanceAs (Decidable (∀ entry ∈ entryAt entries desired.path,
    sha256Bytes entry.content = sha256Bytes desired.content →
      entry.content = desired.content ∧ entry.executable = desired.executable))

/-- A path that a command may write. -/
structure Managed (desired : DesiredFile) : Prop where
  parsed : parseRelativePath desired.path = .ok (pathOf desired.path)
  managed : managedPath (pathOf desired.path) = true

variable {entries : List SnapshotEntry} {desired : DesiredFile}

omit [StandardLibrary] in
theorem changeKind_ne_removed {found : Option SnapshotEntry} : changeKind desired found ≠ .removed := by
  unfold changeKind
  split
  · decide
  · split <;> decide

theorem workspaceChange_eq (hsha : Sha256Length) (h : Managed desired) :
    workspaceChange desired (entryAt entries desired.path) =
      if Steady entries desired then .ok (writtenChange entries desired)
      else raised "changed workspace file requires distinct digests" := by
  have hvalid (data : Bytes) : validDigest (sha256Bytes data) = true := validDigest_sha256Bytes hsha data
  have hsteady : Steady entries desired ↔ ∀ entry, entryAt entries desired.path = some entry →
      sha256Bytes entry.content = sha256Bytes desired.content →
        entry.content = desired.content ∧ entry.executable = desired.executable := Iff.rfl
  unfold workspaceChange assertedPath writtenChange
  rw [h.parsed]
  show registryWorkspaceChange ⟨pathOf desired.path, changeKind desired (entryAt entries desired.path), desired.content,
    (entryAt entries desired.path).map fun entry => sha256Bytes entry.content, some (sha256Bytes desired.content),
    desired.executable⟩ = _
  cases hfound : entryAt entries desired.path with
  | none =>
      rw [if_pos (by simp [hsteady, hfound])]
      simp [registryWorkspaceChange, changeKind, h.managed, hvalid]
  | some entry =>
      by_cases hsame : entry.content = desired.content ∧ entry.executable = desired.executable
      · rw [if_pos (by simpa [hsteady, hfound] using fun _ => hsame)]
        simp [registryWorkspaceChange, changeKind, h.managed, hvalid, hsame]
      · by_cases hdigest : sha256Bytes entry.content = sha256Bytes desired.content
        · rw [if_neg (by simpa [hsteady, hfound, hdigest] using hsame)]
          simp [registryWorkspaceChange, changeKind, h.managed, hvalid, hsame, hdigest]
        · rw [if_pos (by simp [hsteady, hfound, hdigest])]
          simp [registryWorkspaceChange, changeKind, h.managed, hvalid, hsame, hdigest]

theorem workspaceRemoval_eq (hsha : Sha256Length) {entry : SnapshotEntry} (h : Canonical entry.path) :
    workspaceRemoval entry =
      if managedPath entry.path = true then .ok (removalChange entry) else raised "registry workspace change is invalid" := by
  have hvalid (data : Bytes) : validDigest (sha256Bytes data) = true := validDigest_sha256Bytes hsha data
  have hparsed : parseRelativePath entry.path.str = .ok entry.path := h
  unfold workspaceRemoval assertedPath removalChange
  rw [hparsed]
  show registryWorkspaceChange ⟨entry.path, .removed, [], some (sha256Bytes entry.content), none, entry.executable⟩ = _
  unfold registryWorkspaceChange
  by_cases hmanaged : managedPath entry.path = true
  · simp [hmanaged, hvalid]
  · simp [hmanaged]

omit [StandardLibrary] in
/-- By induction, a traversal of checks with one failure. -/
theorem mapM_checked {α β : Type} {read : α → Result β} {fits : α → Prop} [DecidablePred fits] {value : α → β}
    {message : String} {items : List α}
    (h : ∀ item ∈ items, read item = if fits item then .ok (value item) else raised message) :
    items.mapM read = if ∀ item ∈ items, fits item then .ok (items.map value) else raised message := by
  induction items with
  | nil => simp [pure, Except.pure]
  | cons item rest ih =>
      obtain ⟨hfirst, hrest⟩ := List.forall_mem_cons.mp h
      rw [List.mapM_cons, hfirst, ih hrest]
      by_cases hitem : fits item
      · by_cases hitems : ∀ item ∈ rest, fits item
        · rw [if_pos hitem, if_pos hitems, if_pos (List.forall_mem_cons.mpr ⟨hitem, hitems⟩)]
          rfl
        · rw [if_pos hitem, if_neg hitems, if_neg fun hall => hitems (List.forall_mem_cons.mp hall).2]
          rfl
      · rw [if_neg hitem, if_neg fun hall => hitem (List.forall_mem_cons.mp hall).1]
        rfl

omit [StandardLibrary] in
theorem mem_prunedFiles {entries : List SnapshotEntry} {desired : List DesiredFile} {pruneUnder : Option String}
    {entry : SnapshotEntry} (h : entry ∈ prunedFiles entries desired pruneUnder) :
    entry ∈ entries ∧ entry.kind = .file ∧ ∀ file ∈ desired, file.path ≠ entry.path.str := by
  unfold prunedFiles at h
  split at h
  · exact absurd h List.not_mem_nil
  · obtain ⟨hmem, hkept⟩ := List.mem_filter.mp h
    simp only [Bool.and_eq_true, decide_eq_true_eq, SnapshotEntry.isFile, beq_iff_eq, List.mem_map, not_exists, not_and]
      at hkept
    exact ⟨hmem, hkept.1.2, hkept.2⟩

/-- A plan names each path once. -/
theorem plannedChanges_distinct {entries : List SnapshotEntry} {desired : List DesiredFile} {pruneUnder : Option String}
    (hentries : (entries.map (·.path.str)).Nodup) (hdesired : (desired.map DesiredFile.path).Nodup) :
    (plannedChanges entries desired pruneUnder).Pairwise fun change other => change.path.str ≠ other.path.str := by
  have hsorted : ((sortedBy DesiredFile.path desired).map DesiredFile.path).Nodup :=
    ((perm_sortedBy DesiredFile.path desired).map _).nodup_iff.mpr hdesired
  have hpruned : ((prunedFiles entries desired pruneUnder).map (·.path.str)).Nodup := by
    refine hentries.sublist (List.Sublist.map _ ?_)
    unfold prunedFiles
    split
    · exact List.nil_sublist _
    · exact List.filter_sublist
  unfold plannedChanges
  refine List.pairwise_append.mpr ⟨List.pairwise_map.mpr ?_, List.pairwise_map.mpr ?_, fun change hchange other hother => ?_⟩
  · refine (List.pairwise_map.mp hsorted).imp fun {a b} hne => ?_
    show (pathOf a.path).str ≠ (pathOf b.path).str
    rwa [str_pathOf, str_pathOf]
  · exact List.pairwise_map.mp hpruned
  · obtain ⟨file, hfile, rfl⟩ := List.mem_map.mp hchange
    obtain ⟨entry, hentry, rfl⟩ := List.mem_map.mp hother
    show (pathOf file.path).str ≠ entry.path.str
    rw [str_pathOf]
    exact (mem_prunedFiles hentry).2.2 file (mem_sortedBy.mp hfile)

end Changes

/-! ## Plans -/

section Plans

variable [StandardLibrary] {operation : RegistryOperation} {snapshot : SourceSnapshot} {desired : List DesiredFile}
  {pruneUnder : Option String} {expected next : ObjectDigest} {changes : List RegistryWorkspaceChange}

theorem exists_treeRecord (hsha : Sha256Length) {entry : SnapshotEntry} (hcanonical : Canonical entry.path)
    (hpath : entry.path.str.length < 2 ^ 32) (hcontent : entry.content.length < 2 ^ 32) :
    ∃ record, treeRecord entry.hashed = .ok record ∧ record.length < 256 ^ 8 := by
  have hencoded : (encodeUtf8 entry.path.str).length ≤ 4 * entry.path.str.length := by
    have hchars := length_encodeUtf8_le entry.path.str.toList
    rw [String.ofList_toList, String.length_toList] at hchars
    exact hchars
  have hframe : checkedFrame (encodeUtf8 entry.path.str) = .ok (Framing.frame (encodeUtf8 entry.path.str)) := by
    unfold checkedFrame
    exact if_pos (by omega)
  have hframed : (Framing.frame (encodeUtf8 entry.path.str)).length ≤ 8 + 4 * entry.path.str.length := by
    unfold Framing.frame
    rw [List.length_append, Framing.bigEndian_length]
    omega
  have hnamed : ¬ parseRelativePath entry.hashed.path.str ≠ .ok entry.hashed.path := by
    rw [path_hashed, not_not]
    exact hcanonical
  unfold treeRecord
  rw [if_neg hnamed, path_hashed, hframe]
  by_cases hkind : entry.kind = .directory
  · have hform : entry.hashed = .directory entry.path := if_pos hkind
    rw [hform]
    refine ⟨_, rfl, ?_⟩
    rw [List.length_cons]
    omega
  · have hform : entry.hashed = .file entry.path entry.executable entry.content.length (sha256Bytes entry.content) :=
      if_neg hkind
    have hsize : entry.content.length < 256 ^ 8 := by omega
    rw [hform]
    simp only [bind, Except.bind, if_pos hsize]
    refine ⟨_, rfl, ?_⟩
    rw [digestOctets_sha256Bytes]
    have hbit : (if entry.executable = true then ([1] : Bytes) else [0]).length = 1 := by
      split <;> rfl
    rw [List.length_append, List.length_append, List.length_append, List.length_cons, Framing.bigEndian_length, hsha, hbit]
    omega

theorem exists_treeRecords (hsha : Sha256Length) {entries : List SnapshotEntry} (hcanonical : ∀ entry ∈ entries, Canonical entry.path)
    (hsmall : ∀ entry ∈ entries, entry.path.str.length < 2 ^ 32 ∧ entry.content.length < 2 ^ 32) :
    ∃ records, treeRecords (entries.map SnapshotEntry.hashed) = .ok records := by
  induction entries with
  | nil => exact ⟨[], rfl⟩
  | cons entry rest ih =>
      obtain ⟨hfirst, hrest⟩ := List.forall_mem_cons.mp hcanonical
      obtain ⟨hbounds, hothers⟩ := List.forall_mem_cons.mp hsmall
      obtain ⟨record, hrecord, hlength⟩ := exists_treeRecord hsha hfirst hbounds.1 hbounds.2
      obtain ⟨records, hrecords⟩ := ih hrest hothers
      refine ⟨record :: records, ?_⟩
      rw [List.map_cons, treeRecords, hrecord]
      simp only [bind, Except.bind, checkedFrame, if_pos hlength, hrecords]
      rfl

/-- A snapshot of short paths and files that can be hashed has a digest. -/
theorem exists_snapshotDigest (hsha : Sha256Length) {snapshot : SourceSnapshot} (h : HashableEntries snapshot.entries)
    (hsmall : ∀ entry ∈ snapshot.entries, entry.path.str.length < 2 ^ 32 ∧ entry.content.length < 2 ^ 32) :
    ∃ digest, sourceSnapshotDigest snapshot = .ok digest := by
  obtain ⟨records, hrecords⟩ := exists_treeRecords hsha h.paths hsmall
  have htree : snapshotTree [] snapshot.entries = .ok (snapshot.entries.map SnapshotEntry.hashed) :=
    snapshotTree_eq_ok.mpr ⟨h, by simp, rfl⟩
  have hdistinct : ((snapshot.entries.map SnapshotEntry.hashed).map (·.path.str)).Nodup := by
    rw [List.map_map]
    have hpaths : ((fun entry : TreeEntry => entry.path.str) ∘ SnapshotEntry.hashed) = fun entry : SnapshotEntry => entry.path.str := by
      funext entry
      exact congrArg SafeRelativePath.str (path_hashed entry)
    rw [hpaths]
    exact h.distinct
  unfold sourceSnapshotDigest
  rw [htree]
  simp only [bind, Except.bind, treeDigest, sortTree_hashed, if_pos hdistinct, hrecords]
  exact ⟨_, rfl⟩

theorem validDigest_of_snapshot (hsha : Sha256Length) (h : sourceSnapshotDigest snapshot = .ok expected) :
    validDigest expected = true := by
  obtain ⟨tree, _, h⟩ := Result.of_bind_ok h
  unfold treeDigest at h
  dsimp only at h
  split at h
  · obtain ⟨records, _, h⟩ := Result.of_bind_ok h
    rw [← Except.ok.inj h]
    exact validDigest_sha256Bytes hsha _
  · exact absurd h (by simp [invalidTree, error])

def reviewedPlan (operation : RegistryOperation) (expected next : ObjectDigest) (changes : List RegistryWorkspaceChange) :
    RegistryWorkspacePlan :=
  ⟨operation, expected, next, changes, registryWorkspaceReviewDigest operation expected next changes⟩

/-- The constructor of a plan refuses nothing but an empty one. -/
theorem registryWorkspacePlan_eq (hsha : Sha256Length) (hexpected : validDigest expected = true)
    (hnext : validDigest next = true)
    (hdistinct : changes.Pairwise fun change other => change.path.str ≠ other.path.str) :
    registryWorkspacePlan (reviewedPlan operation expected next changes) =
      if changes = [] then raised "registry workspace plan is invalid"
      else .ok (reviewedPlan operation expected next (sortChanges changes)) := by
  have hperm : (sortChanges changes).Perm changes := perm_sortedBy _ _
  have hnodup : ((sortChanges changes).map (·.path)).Nodup := by
    refine (hperm.map _).nodup_iff.mpr (List.pairwise_map.mpr (hdistinct.imp fun {a b} hne hsame => hne ?_))
    rw [hsame]
  have hreview : validDigest (registryWorkspaceReviewDigest operation expected next changes) = true :=
    validDigest_sha256Bytes hsha _
  have hagain : registryWorkspaceReviewDigest operation expected next (sortChanges changes) =
      registryWorkspaceReviewDigest operation expected next changes := by
    unfold registryWorkspaceReviewDigest
    rw [sortChanges, sortChanges, sortedBy_sortedBy]
  have hempty : (sortChanges changes).isEmpty = decide (changes = []) := by
    cases changes with
    | nil => rfl
    | cons change rest =>
        have hne : sortChanges (change :: rest) ≠ [] := fun hnil =>
          absurd (hnil ▸ hperm.length_eq) (by simp)
        simp [hne]
  unfold registryWorkspacePlan reviewedPlan
  dsimp only
  rw [hagain, hexpected, hnext, hreview, hempty]
  by_cases h : changes = []
  · simp [h]
  · simp [h, hnodup]

theorem planWorkspace_eq (hsha : Sha256Length) (hdesired : ∀ file ∈ desired, Managed file)
    (hdigest : sourceSnapshotDigest snapshot = .ok expected) :
    planWorkspace operation snapshot desired pruneUnder =
      if ∀ file ∈ desired, Steady snapshot.entries file then
        if ∀ entry ∈ prunedFiles snapshot.entries desired pruneUnder, managedPath entry.path = true then do
          let projected ← projectChanges snapshot (plannedChanges snapshot.entries desired pruneUnder)
          let next ← sourceSnapshotDigest projected
          registryWorkspacePlan
            (reviewedPlan operation expected next (plannedChanges snapshot.entries desired pruneUnder))
        else raised "registry workspace change is invalid"
      else raised "changed workspace file requires distinct digests" := by
  have hfiles : files snapshot = .ok snapshot.entries := by
    unfold files
    rw [hdigest]
  have hwritten : (sortedBy DesiredFile.path desired).mapM
        (fun file => workspaceChange file (entryAt snapshot.entries file.path)) =
      if ∀ file ∈ sortedBy DesiredFile.path desired, Steady snapshot.entries file then
        .ok ((sortedBy DesiredFile.path desired).map (writtenChange snapshot.entries))
      else raised "changed workspace file requires distinct digests" :=
    mapM_checked fun file hfile => workspaceChange_eq hsha (hdesired file (mem_sortedBy.mp hfile))
  have hremoved : (prunedFiles snapshot.entries desired pruneUnder).mapM workspaceRemoval =
      if ∀ entry ∈ prunedFiles snapshot.entries desired pruneUnder, managedPath entry.path = true then
        .ok ((prunedFiles snapshot.entries desired pruneUnder).map removalChange)
      else raised "registry workspace change is invalid" :=
    mapM_checked fun entry hentry =>
      workspaceRemoval_eq hsha ((hashable_of_digest hdigest).paths entry (mem_prunedFiles hentry).1)
  unfold planWorkspace
  rw [hfiles, hdigest]
  simp only [bind, Except.bind]
  rw [hwritten, hremoved]
  simp only [mem_sortedBy]
  by_cases hsteady : ∀ file ∈ desired, Steady snapshot.entries file
  · by_cases hmanaged : ∀ entry ∈ prunedFiles snapshot.entries desired pruneUnder, managedPath entry.path = true
    · rw [if_pos hsteady, if_pos hsteady, if_pos hmanaged, if_pos hmanaged]
      rfl
    · rw [if_pos hsteady, if_pos hsteady, if_neg hmanaged, if_neg hmanaged]
      rfl
  · rw [if_neg hsteady, if_neg hsteady]
    rfl

/-! ## Exceptions -/

omit [StandardLibrary] in
theorem invalidTree_returns {α : Type} (message : String) : Returns (invalidTree message : Result α) :=
  returns_error (by decide) message

omit [StandardLibrary] in
theorem checkedFrame_returns (data : Bytes) : Returns (checkedFrame data) := by
  unfold checkedFrame
  split
  · exact returns_ok _
  · exact invalidTree_returns _

theorem treeRecord_returns (entry : TreeEntry) : Returns (treeRecord entry) := by
  unfold treeRecord
  split
  · exact invalidTree_returns _
  · refine (checkedFrame_returns _).bind fun path _ => ?_
    split
    · exact returns_ok _
    · split
      · exact returns_ok _
      · exact invalidTree_returns _

theorem treeRecords_returns (entries : List TreeEntry) : Returns (treeRecords entries) := by
  induction entries with
  | nil => exact returns_ok _
  | cons entry rest ih =>
      rw [treeRecords]
      refine (treeRecord_returns entry).bind fun record _ => ?_
      exact (checkedFrame_returns record).bind fun _ _ => ih.bind fun _ _ => returns_ok _

theorem snapshotTree_returns (seen : List String) (entries : List SnapshotEntry) : Returns (snapshotTree seen entries) := by
  have hentry (seen : List String) (entry : SnapshotEntry) : Returns (snapshotTreeEntry seen entry) := by
    have hcode : sourceInvalid ≠ exceptionCode := by decide
    unfold snapshotTreeEntry
    dsimp only
    split
    · exact returns_error hcode _
    · split
      · split
        · exact returns_error hcode _
        · exact returns_ok _
      · exact returns_ok _
      · exact returns_error hcode _
  induction entries generalizing seen with
  | nil => exact returns_ok _
  | cons entry rest ih =>
      rw [snapshotTree]
      exact (hentry seen entry).bind fun _ _ => (ih _).bind fun _ _ => returns_ok _

theorem sourceSnapshotDigest_returns (snapshot : SourceSnapshot) : Returns (sourceSnapshotDigest snapshot) := by
  refine (snapshotTree_returns [] snapshot.entries).bind fun tree _ => ?_
  unfold treeDigest
  dsimp only
  split
  · exact (treeRecords_returns _).bind fun _ _ => returns_ok _
  · exact invalidTree_returns _

omit [StandardLibrary] in
theorem commandError_returns {α : Type} (message : String) : Returns (commandError message : Result α) :=
  returns_error (by decide) message

theorem projectChange_returns (output : List SnapshotEntry) (change : RegistryWorkspaceChange) :
    Returns (projectChange output change) := by
  have hactual : Returns (actualDigest change.path.str (entryAt output change.path.str)) := by
    unfold actualDigest
    split
    · exact returns_ok _
    · split
      · exact commandError_returns _
      · exact returns_ok _
  have hparent (output : List SnapshotEntry) (parent : SafeRelativePath) : Returns (requireParent output parent) := by
    unfold requireParent
    split
    · split
      · exact commandError_returns _
      · exact returns_ok _
    · exact returns_ok _
  unfold projectChange
  refine hactual.bind fun actual _ => ?_
  refine Returns.bind ?_ fun _ _ => ?_
  · unfold refuse
    split
    · exact returns_error (by decide) _
    · exact returns_ok _
  · split
    · exact returns_ok _
    · exact Returns.foldlM (fun state parent _ => hparent state parent) _

theorem projectChanges_returns (snapshot : SourceSnapshot) (changes : List RegistryWorkspaceChange) :
    Returns (projectChanges snapshot changes) := by
  have hfiles : Returns (files snapshot) := by
    unfold files
    split
    · exact commandError_returns _
    · exact returns_ok _
  refine hfiles.bind fun current _ => ?_
  exact (Returns.foldlM (fun state change _ => projectChange_returns state change) current).bind fun _ _ => returns_ok _

/-- What can be planned without an exception. -/
structure Expressible (entries : List SnapshotEntry) (desired : List DesiredFile) (pruned : List SnapshotEntry) : Prop where
  steady : ∀ file ∈ desired, Steady entries file
  managed : ∀ entry ∈ pruned, managedPath entry.path = true
  some : desired ≠ [] ∨ pruned ≠ []

theorem plannedChanges_eq_nil {entries : List SnapshotEntry} :
    plannedChanges entries desired pruneUnder = [] ↔ desired = [] ∧ prunedFiles entries desired pruneUnder = [] := by
  unfold plannedChanges
  rw [List.append_eq_nil_iff, List.map_eq_nil_iff, List.map_eq_nil_iff]
  refine and_congr_left fun _ => ?_
  rw [← List.length_eq_zero_iff, (perm_sortedBy DesiredFile.path desired).length_eq, List.length_eq_zero_iff]

theorem planConstructor_eq (hsha : Sha256Length) (hdistinct : (desired.map DesiredFile.path).Nodup)
    (hdigest : sourceSnapshotDigest snapshot = .ok expected) {projected : SourceSnapshot}
    (hnext : sourceSnapshotDigest projected = .ok next) :
    registryWorkspacePlan (reviewedPlan operation expected next (plannedChanges snapshot.entries desired pruneUnder)) =
      if plannedChanges snapshot.entries desired pruneUnder = [] then raised "registry workspace plan is invalid"
      else .ok (reviewedPlan operation expected next
        (sortChanges (plannedChanges snapshot.entries desired pruneUnder))) :=
  registryWorkspacePlan_eq hsha (validDigest_of_snapshot hsha hdigest) (validDigest_of_snapshot hsha hnext)
    (plannedChanges_distinct (hashable_of_digest hdigest).distinct hdistinct)

omit [StandardLibrary] in
theorem of_entries (snapshot : SourceSnapshot) : SourceSnapshot.of snapshot.origin snapshot.entries = snapshot := by
  obtain ⟨origin, entries, hsorted⟩ := snapshot
  simp [SourceSnapshot.of, hsorted]

/-- When the planner returns. -/
theorem planWorkspace_returns_iff (hsha : Sha256Length) (hdesired : ∀ file ∈ desired, Managed file)
    (hdistinct : (desired.map DesiredFile.path).Nodup) (hdigest : sourceSnapshotDigest snapshot = .ok expected) :
    Returns (planWorkspace operation snapshot desired pruneUnder) ↔
      Expressible snapshot.entries desired (prunedFiles snapshot.entries desired pruneUnder) := by
  rw [planWorkspace_eq hsha hdesired hdigest]
  constructor
  · intro h
    have hsteady : ∀ file ∈ desired, Steady snapshot.entries file := by
      by_contra hnot
      exact h _ (if_neg hnot)
    rw [if_pos hsteady] at h
    have hmanaged : ∀ entry ∈ prunedFiles snapshot.entries desired pruneUnder, managedPath entry.path = true := by
      by_contra hnot
      exact h _ (if_neg hnot)
    rw [if_pos hmanaged] at h
    refine ⟨hsteady, hmanaged, ?_⟩
    by_contra hnone
    have hnil : plannedChanges snapshot.entries desired pruneUnder = [] :=
      plannedChanges_eq_nil.mpr (by simpa [not_or] using hnone)
    have hprojected : projectChanges snapshot [] = .ok snapshot := by
      unfold projectChanges files
      rw [hdigest]
      show Except.ok (SourceSnapshot.of snapshot.origin snapshot.entries) = Except.ok snapshot
      rw [of_entries]
    have hvalid := validDigest_of_snapshot hsha hdigest
    refine h "registry workspace plan is invalid" ?_
    rw [hnil, hprojected]
    simp only [bind, Except.bind, hdigest]
    exact registryWorkspacePlan_eq hsha hvalid hvalid List.Pairwise.nil
  · intro h
    rw [if_pos h.steady, if_pos h.managed]
    refine (projectChanges_returns _ _).bind fun projected _ => ?_
    refine (sourceSnapshotDigest_returns projected).bind fun next hnext => ?_
    rw [planConstructor_eq hsha hdistinct hdigest hnext, if_neg]
    · exact returns_ok _
    · rw [plannedChanges_eq_nil]
      rintro ⟨hfiles, hpruned⟩
      exact h.some.elim (fun hne => hne hfiles) fun hne => hne hpruned

theorem planWorkspace_eq_ok {plan : RegistryWorkspacePlan} (hsha : Sha256Length)
    (hdesired : ∀ file ∈ desired, Managed file) (hdistinct : (desired.map DesiredFile.path).Nodup)
    (hdigest : sourceSnapshotDigest snapshot = .ok expected)
    (h : Expressible snapshot.entries desired (prunedFiles snapshot.entries desired pruneUnder)) :
    planWorkspace operation snapshot desired pruneUnder = .ok plan ↔
      ∃ projected next, projectChanges snapshot (plannedChanges snapshot.entries desired pruneUnder) = .ok projected ∧
        sourceSnapshotDigest projected = .ok next ∧
        plan = reviewedPlan operation expected next (sortChanges (plannedChanges snapshot.entries desired pruneUnder)) := by
  have hsome : plannedChanges snapshot.entries desired pruneUnder ≠ [] := by
    rw [ne_eq, plannedChanges_eq_nil]
    rintro ⟨hfiles, hpruned⟩
    exact h.some.elim (fun hne => hne hfiles) fun hne => hne hpruned
  rw [planWorkspace_eq hsha hdesired hdigest, if_pos h.steady, if_pos h.managed]
  constructor
  · intro hplan
    obtain ⟨projected, hprojected, hplan⟩ := Result.of_bind_ok hplan
    obtain ⟨next, hnext, hplan⟩ := Result.of_bind_ok hplan
    rw [planConstructor_eq hsha hdistinct hdigest hnext, if_neg hsome] at hplan
    exact ⟨projected, next, hprojected, hnext, (Except.ok.inj hplan).symm⟩
  · rintro ⟨projected, next, hprojected, hnext, rfl⟩
    rw [hprojected]
    simp only [bind, Except.bind, hnext]
    rw [planConstructor_eq hsha hdistinct hdigest hnext, if_neg hsome]

/-! ## Where files can be written -/

/-- Files are wanted where files stand or nothing, below directories, and not below each other. -/
structure Placed (entries : List SnapshotEntry) (desired : List DesiredFile) : Prop where
  targets : ∀ file ∈ desired, ∀ entry, entryAt entries file.path = some entry → entry.kind = .file
  above : ∀ file ∈ desired, ClearAbove entries (pathOf file.path)
  apart : ∀ file ∈ desired, ∀ other ∈ desired, ∀ above ∈ properAncestors (pathOf file.path), above.str ≠ other.path

/-- A tree of entries that can be hashed. -/
structure Closed (entries : List SnapshotEntry) : Prop where
  hashable : HashableEntries entries
  above : ∀ entry ∈ entries, ∀ parent ∈ properAncestors entry.path, directoryAt parent ∈ entries

theorem Managed.canonical {file : DesiredFile} (h : Managed file) : Canonical (pathOf file.path) :=
  canonical_of_parse h.parsed

theorem named_plannedChanges (hclosed : Closed snapshot.entries) (hdesired : ∀ file ∈ desired, Managed file) :
    ∀ change ∈ plannedChanges snapshot.entries desired pruneUnder, Canonical change.path := by
  intro change hmem
  rcases List.mem_append.mp hmem with hmem | hmem
  · obtain ⟨file, hfile, rfl⟩ := List.mem_map.mp hmem
    exact (hdesired file (mem_sortedBy.mp hfile)).canonical
  · obtain ⟨entry, hentry, rfl⟩ := List.mem_map.mp hmem
    exact hclosed.hashable.paths entry (mem_prunedFiles hentry).1

theorem suits_plannedChanges (hclosed : Closed snapshot.entries) (hdesired : ∀ file ∈ desired, Managed file)
    (hplaced : Placed snapshot.entries desired) :
    ∀ change ∈ plannedChanges snapshot.entries desired pruneUnder, Suits snapshot.entries change := by
  intro change hmem
  rcases List.mem_append.mp hmem with hmem | hmem
  · obtain ⟨file, hfile, rfl⟩ := List.mem_map.mp hmem
    have hfile := mem_sortedBy.mp hfile
    have hpath : (writtenChange snapshot.entries file).path.str = file.path := str_pathOf file.path
    have habove : ∀ above ∈ properAncestors (pathOf file.path), above.str ≠ (pathOf file.path).str :=
      fun _ hmem => str_ne_of_ancestor (hdesired file hfile).canonical hmem
    refine ⟨fun entry hentry => ?_, ?_, fun _ => (clearAbove_setEntry habove).mpr (hplaced.above file hfile)⟩
    · rw [hpath] at hentry
      exact hplaced.targets file hfile entry hentry
    · rw [hpath]
      rfl
  · obtain ⟨entry, hentry, rfl⟩ := List.mem_map.mp hmem
    obtain ⟨hmem, hkind, _⟩ := mem_prunedFiles hentry
    have hfound : entryAt snapshot.entries (removalChange entry).path.str = some entry :=
      entryAt_of_mem hclosed.hashable.distinct hmem
    refine ⟨fun other hother => ?_, by rw [hfound]; rfl, fun hkept => absurd rfl hkept⟩
    obtain rfl := Option.some.inj (hfound.symm.trans hother)
    exact hkind

/-- A file that suits the tree is apart from the files that are removed. -/
theorem separate_removal {change : RegistryWorkspaceChange} {entry : SnapshotEntry} (hclosed : Closed snapshot.entries)
    (hsuits : Suits snapshot.entries change) (hclear : ClearAbove snapshot.entries change.path)
    (hentry : entry ∈ snapshot.entries) (hkind : entry.kind = .file) (hpaths : change.path.str ≠ entry.path.str) :
    Separate change (removalChange entry) := by
  refine ⟨hpaths, fun above habove hsame => ?_, fun above habove hsame => ?_⟩
  · have hfound := entryAt_of_mem hclosed.hashable.distinct (hclosed.above entry hentry above habove)
    have hdirectory := hsuits.file _ (hsame ▸ hfound)
    exact absurd hdirectory (by simp [directoryAt])
  · have hfound : entryAt snapshot.entries above.str = some entry := by
      rw [hsame]
      exact entryAt_of_mem hclosed.hashable.distinct hentry
    have hdirectory := hclear above habove entry hfound
    rw [hkind] at hdirectory
    exact absurd hdirectory (by decide)

theorem Closed.clearAbove {entries : List SnapshotEntry} {entry : SnapshotEntry}
    (hclosed : Closed entries) (hentry : entry ∈ entries) : ClearAbove entries entry.path := by
  intro above habove found hfound
  have hdirectory := entryAt_of_mem hclosed.hashable.distinct (hclosed.above entry hentry above habove)
  obtain rfl := Option.some.inj (hdirectory.symm.trans hfound)
  rfl

theorem separate_plannedChanges (hclosed : Closed snapshot.entries) (hdesired : ∀ file ∈ desired, Managed file)
    (hdistinct : (desired.map DesiredFile.path).Nodup) (hplaced : Placed snapshot.entries desired) :
    (plannedChanges snapshot.entries desired pruneUnder).Pairwise Separate := by
  have hsuits : ∀ change ∈ plannedChanges snapshot.entries desired pruneUnder, Suits snapshot.entries change :=
    suits_plannedChanges hclosed hdesired hplaced
  refine (plannedChanges_distinct hclosed.hashable.distinct hdistinct).imp_of_mem fun {change other} hchange hother hne => ?_
  have hfirst := hsuits change hchange
  have hsecond := hsuits other hother
  rcases List.mem_append.mp hchange with hchange | hchange <;> rcases List.mem_append.mp hother with hother | hother
  · obtain ⟨file, hfile, rfl⟩ := List.mem_map.mp hchange
    obtain ⟨file', hfile', rfl⟩ := List.mem_map.mp hother
    have hfile := mem_sortedBy.mp hfile
    have hfile' := mem_sortedBy.mp hfile'
    refine ⟨hne, fun above habove => ?_, fun above habove => ?_⟩
    · show above.str ≠ (pathOf file.path).str
      rw [str_pathOf]
      exact hplaced.apart file' hfile' file hfile above habove
    · show above.str ≠ (pathOf file'.path).str
      rw [str_pathOf]
      exact hplaced.apart file hfile file' hfile' above habove
  · obtain ⟨file, hfile, rfl⟩ := List.mem_map.mp hchange
    obtain ⟨entry, hentry, rfl⟩ := List.mem_map.mp hother
    obtain ⟨hmem, hkind, _⟩ := mem_prunedFiles hentry
    exact separate_removal hclosed hfirst (hplaced.above file (mem_sortedBy.mp hfile)) hmem hkind hne
  · obtain ⟨entry, hentry, rfl⟩ := List.mem_map.mp hchange
    obtain ⟨file, hfile, rfl⟩ := List.mem_map.mp hother
    obtain ⟨hmem, hkind, _⟩ := mem_prunedFiles hentry
    exact (separate_removal hclosed hsecond (hplaced.above file (mem_sortedBy.mp hfile)) hmem hkind hne.symm).symm
  · obtain ⟨entry, hentry, rfl⟩ := List.mem_map.mp hchange
    obtain ⟨entry', hentry', rfl⟩ := List.mem_map.mp hother
    obtain ⟨hmem, hkind, _⟩ := mem_prunedFiles hentry'
    exact separate_removal hclosed hfirst (hclosed.clearAbove (mem_prunedFiles hentry).1) hmem hkind hne

/-- Writes that go through in their order can be written where they are wanted. -/
theorem placed_of_foldlM (hdesired : ∀ file ∈ desired, Managed file) (hdistinct : (desired.map DesiredFile.path).Nodup)
    {entries written : List SnapshotEntry}
    (h : ((sortedBy DesiredFile.path desired).map (writtenChange entries)).foldlM projectChange entries = .ok written) :
    Placed entries desired := by
  have hsorted : ((sortedBy DesiredFile.path desired).map DesiredFile.path).Nodup :=
    ((perm_sortedBy DesiredFile.path desired).map _).nodup_iff.mpr hdistinct
  have hseparate := separate_of_foldlM
    (List.forall_mem_map.mpr fun file hfile => (hdesired file (mem_sortedBy.mp hfile)).canonical)
    (List.forall_mem_map.mpr fun file _ => changeKind_ne_removed)
    (List.pairwise_map.mpr ((List.pairwise_map.mp hsorted).imp fun {a b} hne => by
      show (pathOf a.path).str ≠ (pathOf b.path).str
      rwa [str_pathOf, str_pathOf])) h
  have hsuits := ((guarded_projectChange.foldlM_eq_ok hseparate entries written).mp h).1
  have hfile (file : DesiredFile) (hfile : file ∈ desired) : Suits entries (writtenChange entries file) :=
    hsuits _ (List.mem_map_of_mem (mem_sortedBy.mpr hfile))
  refine ⟨fun file hmem entry hentry => ?_, fun file hmem => ?_, fun file hmem other hother above habove => ?_⟩
  · refine (hfile file hmem).file entry ?_
    show entryAt entries (pathOf file.path).str = some entry
    rw [str_pathOf]
    exact hentry
  · have hcanonical := (hdesired file hmem).canonical
    have hpaths : ∀ above ∈ properAncestors (pathOf file.path), above.str ≠ (pathOf file.path).str :=
      fun _ hmem => str_ne_of_ancestor hcanonical hmem
    exact (clearAbove_setEntry hpaths).mp ((hfile file hmem).above changeKind_ne_removed)
  · by_cases hsame : file = other
    · subst hsame
      rw [← str_pathOf file.path]
      exact str_ne_of_ancestor (hdesired file hmem).canonical habove
    · have : Std.Symm Separate := ⟨fun _ _ hapart => hapart.symm⟩
      have hne : writtenChange entries file ≠ writtenChange entries other := by
        intro heq
        have hpath : (pathOf file.path).str = (pathOf other.path).str := congrArg (fun change => change.path.str) heq
        rw [str_pathOf, str_pathOf] at hpath
        exact hsame (List.inj_on_of_nodup_map hdistinct hmem hother hpath)
      have hapart := hseparate.forall (List.mem_map_of_mem (mem_sortedBy.mpr hmem))
        (List.mem_map_of_mem (mem_sortedBy.mpr hother)) hne
      rw [← str_pathOf other.path]
      exact hapart.above above habove

/-- The changes of a plan are projected exactly when the files can be written where they are wanted. -/
theorem projectChanges_planned_iff (hclosed : Closed snapshot.entries) (hdigest : sourceSnapshotDigest snapshot = .ok expected)
    (hdesired : ∀ file ∈ desired, Managed file) (hdistinct : (desired.map DesiredFile.path).Nodup)
    {projected : SourceSnapshot} :
    projectChanges snapshot (plannedChanges snapshot.entries desired pruneUnder) = .ok projected ↔
      Placed snapshot.entries desired ∧ projected = SourceSnapshot.of snapshot.origin
        ((plannedChanges snapshot.entries desired pruneUnder).foldl performed snapshot.entries) := by
  have hfiles : files snapshot = .ok snapshot.entries := by
    unfold files
    rw [hdigest]
  have hprojected (hplaced : Placed snapshot.entries desired) :
      (plannedChanges snapshot.entries desired pruneUnder).foldlM projectChange snapshot.entries =
        .ok ((plannedChanges snapshot.entries desired pruneUnder).foldl performed snapshot.entries) :=
    (guarded_projectChange.foldlM_eq_ok (separate_plannedChanges hclosed hdesired hdistinct hplaced) _ _).mpr
      ⟨suits_plannedChanges hclosed hdesired hplaced, rfl⟩
  unfold projectChanges
  rw [hfiles]
  constructor
  · intro h
    obtain ⟨current, hcurrent, h⟩ := Result.of_bind_ok h
    obtain rfl := Except.ok.inj hcurrent
    obtain ⟨output, houtput, h⟩ := Result.of_bind_ok h
    have hplaced : Placed snapshot.entries desired := by
      have hboth := houtput
      unfold plannedChanges at hboth
      rw [List.foldlM_append] at hboth
      obtain ⟨written, hwritten, _⟩ := Result.of_bind_ok hboth
      exact placed_of_foldlM hdesired hdistinct hwritten
    obtain rfl := Except.ok.inj ((hprojected hplaced).symm.trans houtput)
    exact ⟨hplaced, (Except.ok.inj h).symm⟩
  · rintro ⟨hplaced, rfl⟩
    simp only [bind, Except.bind, hprojected hplaced]
    rfl

end Plans

end AgentArtifacts.RegistryCommands
