import AgentArtifacts.RegistryCommands.Revendored

/-!
# Drift from the upstream

The digests of the rebuilt trees decide whether a copy is up to date, and files are counted
over the directory of the package. Both say the same of the files of the copy, as long as the
subtree has no directory without files and every other file of the package is recorded.
-/

namespace AgentArtifacts.RegistryCommands

open Maintenance (NativeReferenceAcquisition)
open Native (parseArtifactManifest)
open Registry (PackageEntries ReviewRecord entryAt entryAt_of_mem mem_of_entryAt sortedBy mem_sortedBy)
open Security (ScanRuntime SetupReader)
open Vendoring (ClosedSubtree CopyMatches HoldsCopy LicenseText PackageFile ToldApart VendoredPackage isCopied payloadLead)

/-! ## Counting differences -/

/-- The numbers of files only after, in both but different, and only before. -/
def countsBetween (before after : List PackageFile) : DriftCounts where
  added := after.countP fun file => decide (file.path ∉ before.map PackageFile.path)
  changed := after.countP fun file => before.any fun known => known.path == file.path && known != file
  removed := before.countP fun file => decide (file.path ∉ after.map PackageFile.path)

section Counting

variable {before after : List PackageFile}

/-- No file is counted only where the files are the same. -/
theorem countsBetween_eq_zero (hbefore : (before.map PackageFile.path).Nodup)
    (h : countsBetween before after = ⟨0, 0, 0⟩) : ∀ file, file ∈ before ↔ file ∈ after := by
  obtain ⟨hadded, hchanged, hremoved⟩ := DriftCounts.mk.inj h
  have hsame {file : PackageFile} (hfile : file ∈ after) : file ∈ before := by
    have hknown := List.countP_eq_zero.mp hadded file hfile
    simp only [decide_not, Bool.not_eq_true', decide_eq_false_iff_not, not_not] at hknown
    obtain ⟨known, hmem, hpath⟩ := List.mem_map.mp hknown
    have hequal := List.countP_eq_zero.mp hchanged file hfile
    simp only [List.any_eq_true, Bool.and_eq_true, beq_iff_eq, bne_iff_ne, not_exists, not_and, not_not] at hequal
    rw [← hequal known hmem hpath]
    exact hmem
  intro file
  constructor
  · intro hfile
    have hknown := List.countP_eq_zero.mp hremoved file hfile
    simp only [decide_not, Bool.not_eq_true', decide_eq_false_iff_not, not_not] at hknown
    obtain ⟨found, hmem, hpath⟩ := List.mem_map.mp hknown
    rw [← List.inj_on_of_nodup_map hbefore (hsame hmem) hfile hpath]
    exact hmem
  · exact hsame

theorem countsBetween_pos (hbefore : (before.map PackageFile.path).Nodup) (h : ¬ ∀ file, file ∈ before ↔ file ∈ after) :
    0 < (countsBetween before after).added ∨ 0 < (countsBetween before after).changed ∨
      0 < (countsBetween before after).removed := by
  by_contra hzero
  apply h
  apply countsBetween_eq_zero hbefore
  generalize countsBetween before after = counts at hzero ⊢
  obtain ⟨added, changed, removed⟩ := counts
  dsimp only at hzero
  rw [DriftCounts.mk.injEq]
  omega

end Counting

/-! ## The files of a copy and of a subtree -/

/-- The files that are copied, by their paths below the payload. -/
def VendoredArtifactOrigin.recordedFiles (vendored : VendoredArtifactOrigin) (entries : List SnapshotEntry) :
    List PackageFile :=
  (entries.filter fun entry =>
    isCopied vendored.base vendored.manifest.payload.root vendored.authored (entry.path.str, entry)).map fun entry =>
      ⟨removePrefix (payloadLead vendored.base vendored.manifest.payload.root) entry.path.str, entry.content,
        entry.executable⟩

def subtreeFiles (taken : TakenSubtree) : List PackageFile :=
  (taken.snapshot.entries.filter SnapshotEntry.isFile).map fun entry => ⟨entry.path.str, entry.content, entry.executable⟩

/-- The subtree has the files of the copy, with their contents and executable bits. -/
def SameFiles (vendored : VendoredArtifactOrigin) (entries : List SnapshotEntry) (taken : TakenSubtree) : Prop :=
  ∀ file, file ∈ vendored.recordedFiles entries ↔ file ∈ subtreeFiles taken

section Files

variable {vendored : VendoredArtifactOrigin} {entries : List SnapshotEntry} {taken : TakenSubtree}

theorem lead_of_copied {item : String × SnapshotEntry}
    (h : isCopied vendored.base vendored.manifest.payload.root vendored.authored item = true) :
    item.1 = payloadLead vendored.base vendored.manifest.payload.root ++
      removePrefix (payloadLead vendored.base vendored.manifest.payload.root) item.1 := by
  simp only [isCopied, Bool.and_eq_true] at h
  exact (Manifest.append_removePrefix h.1.1).symm

theorem mem_recordedFiles {file : PackageFile} : file ∈ vendored.recordedFiles entries ↔
    ∃ entry ∈ entries, isCopied vendored.base vendored.manifest.payload.root vendored.authored (entry.path.str, entry) = true ∧
      entry.path.str = payloadLead vendored.base vendored.manifest.payload.root ++ file.path ∧
        entry.content = file.content ∧ entry.executable = file.executable := by
  unfold VendoredArtifactOrigin.recordedFiles
  rw [List.mem_map]
  constructor
  · rintro ⟨entry, hentry, rfl⟩
    obtain ⟨hmem, hcopy⟩ := List.mem_filter.mp hentry
    exact ⟨entry, hmem, hcopy, lead_of_copied hcopy, rfl, rfl⟩
  · rintro ⟨entry, hmem, hcopy, hpath, hcontent, hexecutable⟩
    refine ⟨entry, List.mem_filter.mpr ⟨hmem, hcopy⟩, ?_⟩
    have hrest := append_left_text ((lead_of_copied hcopy).symm.trans hpath)
    obtain ⟨path, content, executable⟩ := file
    rw [PackageFile.mk.injEq]
    exact ⟨hrest, hcontent, hexecutable⟩

theorem mem_subtreeFiles {file : PackageFile} : file ∈ subtreeFiles taken ↔
    ∃ entry ∈ taken.snapshot.entries, entry.kind = .file ∧ entry.path.str = file.path ∧ entry.content = file.content ∧
      entry.executable = file.executable := by
  unfold subtreeFiles
  rw [List.mem_map]
  constructor
  · rintro ⟨entry, hentry, rfl⟩
    obtain ⟨hmem, hkind⟩ := List.mem_filter.mp hentry
    exact ⟨entry, hmem, by simpa [SnapshotEntry.isFile] using hkind, rfl, rfl, rfl⟩
  · rintro ⟨entry, hmem, hkind, hpath, hcontent, hexecutable⟩
    refine ⟨entry, List.mem_filter.mpr ⟨hmem, by simpa [SnapshotEntry.isFile] using hkind⟩, ?_⟩
    obtain ⟨path, content, executable⟩ := file
    rw [PackageFile.mk.injEq]
    exact ⟨hpath, hcontent, hexecutable⟩

theorem sameFiles_iff : SameFiles vendored entries taken ↔
    HoldsCopy (byPath entries) vendored.base vendored.manifest.payload.root vendored.authored taken := by
  have hbyPath (file : PackageFile) : file ∈ vendored.recordedFiles entries ↔
      ∃ item ∈ byPath entries, isCopied vendored.base vendored.manifest.payload.root vendored.authored item = true ∧
        item.1 = payloadLead vendored.base vendored.manifest.payload.root ++ file.path ∧ item.2.content = file.content ∧
          item.2.executable = file.executable := by
    rw [mem_recordedFiles]
    constructor
    · rintro ⟨entry, hmem, hrest⟩
      exact ⟨_, List.mem_map_of_mem hmem, hrest⟩
    · rintro ⟨item, hitem, hrest⟩
      obtain ⟨entry, hmem, rfl⟩ := List.mem_map.mp hitem
      exact ⟨entry, hmem, hrest⟩
  constructor
  · intro h path content executable
    have hfile := h ⟨path, content, executable⟩
    rw [hbyPath, mem_subtreeFiles] at hfile
    exact hfile
  · intro h file
    rw [hbyPath, mem_subtreeFiles]
    exact h file.path file.content file.executable

/-- No path of the copy is recorded twice. -/
theorem nodup_recordedFiles (h : (entries.map (·.path.str)).Nodup) :
    ((vendored.recordedFiles entries).map PackageFile.path).Nodup := by
  unfold VendoredArtifactOrigin.recordedFiles
  rw [List.map_map]
  have hfiltered := h.sublist ((List.filter_sublist (p := fun entry =>
    isCopied vendored.base vendored.manifest.payload.root vendored.authored (entry.path.str, entry))).map _)
  refine List.Nodup.map_on ?_ (List.Nodup.of_map _ hfiltered)
  intro a ha b hb hsame
  have hfirst := lead_of_copied (List.mem_filter.mp ha).2
  have hsecond := lead_of_copied (List.mem_filter.mp hb).2
  exact List.inj_on_of_nodup_map hfiltered ha hb (hfirst.trans ((congrArg _ hsame).trans hsecond.symm))

/-! ## What the planner counts -/

/-- The files that the planner takes for the copy and that are none of it. -/
def VendoredArtifactOrigin.strayFiles (vendored : VendoredArtifactOrigin) (entries : List SnapshotEntry) : List SnapshotEntry :=
  (vendored.copiedFiles entries).filter fun entry =>
    !startsWith (payloadLead vendored.base vendored.manifest.payload.root) entry.path.str

/-- What stands below the payload is in the package and none of its documents. -/
theorem below_payload (hroot : vendored.manifest.payload.root = ⟨[Vendoring.payloadRootName]⟩) {path : String}
    (h : startsWith (payloadLead vendored.base vendored.manifest.payload.root) path = true) :
    startsWith (vendored.base ++ "/") path = true ∧ path ≠ vendored.base ++ "/artifact.json" ∧
      path ≠ vendored.base ++ "/provenance.json" := by
  obtain ⟨rest, hrest⟩ := startsWith_iff.mp h
  have hform : path = vendored.base ++ "/" ++ (Vendoring.payloadRootName ++ "/" ++ rest) := by
    rw [hrest, hroot]
    simp [payloadLead, SafeRelativePath.str, slashJoin, String.append_assoc]
  refine ⟨startsWith_iff.mpr ⟨_, hform⟩, fun hdocument => ?_, fun hdocument => ?_⟩
  · rw [manifest_text, hform] at hdocument
    exact Vendoring.ne_payload (by simp [Vendoring.projectedRoots]) (append_left_text hdocument).symm
  · rw [provenance_text, hform] at hdocument
    exact Vendoring.ne_payload (by simp [Vendoring.projectedRoots]) (append_left_text hdocument).symm

theorem mem_copiedFiles {entry : SnapshotEntry} : entry ∈ vendored.copiedFiles entries ↔
    entry ∈ entries ∧ startsWith (vendored.base ++ "/") entry.path.str = true ∧ entry.kind = .file ∧
      entry.path.str ∉ Vendoring.excludedPaths vendored.base vendored.authored ∧
        entry.path.str ≠ vendored.base ++ "/artifact.json" ∧ entry.path.str ≠ vendored.base ++ "/provenance.json" := by
  simp [VendoredArtifactOrigin.copiedFiles, Vendoring.excludedPaths, and_assoc]

theorem isCopied_iff {entry : SnapshotEntry} :
    isCopied vendored.base vendored.manifest.payload.root vendored.authored (entry.path.str, entry) = true ↔
      startsWith (payloadLead vendored.base vendored.manifest.payload.root) entry.path.str = true ∧ entry.kind = .file ∧
        entry.path.str ∉ Vendoring.excludedPaths vendored.base vendored.authored := by
  simp only [isCopied, Bool.and_eq_true, Bool.not_eq_true', beq_iff_eq, List.contains_eq_mem, decide_eq_false_iff_not]
  exact ⟨fun h => ⟨h.1.1, h.2, h.1.2⟩, fun h => ⟨⟨h.1, h.2.2⟩, h.2.1⟩⟩

/-- Below the payload the planner's copy is the copy that is verified. -/
theorem filter_copiedFiles (hroot : vendored.manifest.payload.root = ⟨[Vendoring.payloadRootName]⟩) :
    (vendored.copiedFiles entries).filter (fun entry =>
      startsWith (payloadLead vendored.base vendored.manifest.payload.root) entry.path.str) =
    entries.filter fun entry =>
      isCopied vendored.base vendored.manifest.payload.root vendored.authored (entry.path.str, entry) := by
  unfold VendoredArtifactOrigin.copiedFiles
  dsimp only
  rw [List.filter_filter]
  refine List.filter_congr fun entry _ => ?_
  rw [Bool.eq_iff_iff, isCopied_iff]
  simp only [Bool.and_eq_true, Bool.not_eq_true', beq_iff_eq, List.contains_eq_mem, decide_eq_false_iff_not, List.mem_append,
    List.mem_cons, List.not_mem_nil, or_false, not_or]
  constructor
  · rintro ⟨hlead, ⟨_, hkind⟩, hkept, _⟩
    exact ⟨hlead, hkind, hkept⟩
  · rintro ⟨hlead, hkind, hkept⟩
    obtain ⟨hbelow, hdocuments⟩ := below_payload hroot hlead
    exact ⟨hlead, ⟨hbelow, hkind⟩, hkept, hdocuments⟩

/-- What stands in the planner's copy at a path of the payload is what is recorded there. -/
theorem entryAt_copiedFiles (hdistinct : (entries.map (·.path.str)).Nodup)
    (hroot : vendored.manifest.payload.root = ⟨[Vendoring.payloadRootName]⟩) (file : PackageFile) :
    (∃ entry, entryAt (vendored.copiedFiles entries)
      (payloadLead vendored.base vendored.manifest.payload.root ++ file.path) = some entry ∧
        entry.content = file.content ∧ entry.executable = file.executable) ↔ file ∈ vendored.recordedFiles entries := by
  have hstarts : startsWith (payloadLead vendored.base vendored.manifest.payload.root)
      (payloadLead vendored.base vendored.manifest.payload.root ++ file.path) = true := startsWith_iff.mpr ⟨_, rfl⟩
  have hsame := Registry.entryAt_filter (startsWith (payloadLead vendored.base vendored.manifest.payload.root))
    (vendored.copiedFiles entries) (payloadLead vendored.base vendored.manifest.payload.root ++ file.path)
  rw [if_pos hstarts, filter_copiedFiles hroot] at hsame
  rw [← hsame, mem_recordedFiles]
  constructor
  · rintro ⟨entry, hentry, hcontent, hexecutable⟩
    obtain ⟨hmem, hpath⟩ := mem_of_entryAt hentry
    obtain ⟨hin, hcopy⟩ := List.mem_filter.mp hmem
    exact ⟨entry, hin, hcopy, hpath, hcontent, hexecutable⟩
  · rintro ⟨entry, hin, hcopy, hpath, hcontent, hexecutable⟩
    have hfiltered : ((entries.filter fun entry => isCopied vendored.base vendored.manifest.payload.root vendored.authored
        (entry.path.str, entry)).map (·.path.str)).Nodup := hdistinct.sublist (List.filter_sublist.map _)
    have hentry := entryAt_of_mem hfiltered (List.mem_filter.mpr ⟨hin, hcopy⟩)
    rw [hpath] at hentry
    exact ⟨entry, hentry, hcontent, hexecutable⟩

/-- The files of the subtree under the paths that they would have in the package. -/
theorem upstreamFiles_paths : (vendored.upstreamFiles taken).map Prod.fst = (subtreeFiles taken).map fun file =>
    payloadLead vendored.base vendored.manifest.payload.root ++ file.path := by
  unfold VendoredArtifactOrigin.upstreamFiles subtreeFiles
  rw [List.map_map, List.map_map]
  rfl

/-- The planner counts as removed what it takes for the copy and is none of it. -/
theorem driftCounts_eq (hdistinct : (entries.map (·.path.str)).Nodup)
    (hroot : vendored.manifest.payload.root = ⟨[Vendoring.payloadRootName]⟩) :
    driftCounts entries vendored taken =
      ⟨(countsBetween (vendored.recordedFiles entries) (subtreeFiles taken)).added,
        (countsBetween (vendored.recordedFiles entries) (subtreeFiles taken)).changed,
        (countsBetween (vendored.recordedFiles entries) (subtreeFiles taken)).removed +
          (vendored.strayFiles entries).length⟩ := by
  have hpaths : ((vendored.recordedFiles entries).map PackageFile.path).Nodup := nodup_recordedFiles hdistinct
  unfold driftCounts countsBetween
  dsimp only
  rw [DriftCounts.mk.injEq]
  refine ⟨?_, ?_, ?_⟩
  · unfold VendoredArtifactOrigin.upstreamFiles subtreeFiles
    rw [List.countP_map, List.countP_map]
    refine List.countP_congr fun entry _ => ?_
    simp only [Function.comp_apply, Option.isNone_iff_eq_none, decide_eq_true_eq]
    constructor
    · intro hnone hmem
      obtain ⟨known, hknown, hpath⟩ := List.mem_map.mp hmem
      obtain ⟨found, hfound, _⟩ := (entryAt_copiedFiles hdistinct hroot known).mpr hknown
      rw [hpath] at hfound
      exact absurd (hfound.symm.trans hnone) (by simp)
    · intro hnone
      by_contra hsome
      obtain ⟨found, hfound⟩ := Option.ne_none_iff_exists'.mp hsome
      have hmem := (entryAt_copiedFiles hdistinct hroot ⟨entry.path.str, found.content, found.executable⟩).mp
        ⟨found, hfound, rfl, rfl⟩
      exact hnone (List.mem_map_of_mem hmem)
  · unfold VendoredArtifactOrigin.upstreamFiles subtreeFiles
    rw [List.countP_map, List.countP_map]
    refine List.countP_congr fun entry _ => ?_
    simp only [Function.comp_apply, Option.any_eq_true, List.any_eq_true, Bool.and_eq_true, Bool.or_eq_true, beq_iff_eq,
      bne_iff_ne]
    constructor
    · rintro ⟨found, hfound, hdiffers⟩
      refine ⟨⟨entry.path.str, found.content, found.executable⟩,
        (entryAt_copiedFiles hdistinct hroot _).mp ⟨found, hfound, rfl, rfl⟩, rfl, fun hsame => ?_⟩
      obtain ⟨_, hcontent, hexecutable⟩ := PackageFile.mk.inj hsame
      exact hdiffers.elim (fun hne => hne hcontent) fun hne => hne hexecutable
    · rintro ⟨known, hknown, hpath, hdiffers⟩
      obtain ⟨found, hfound, hcontent, hexecutable⟩ := (entryAt_copiedFiles hdistinct hroot known).mpr hknown
      rw [hpath] at hfound
      refine ⟨found, hfound, ?_⟩
      by_contra hsame
      rw [not_or, not_not, not_not] at hsame
      apply hdiffers
      obtain ⟨path, content, executable⟩ := known
      rw [PackageFile.mk.injEq]
      exact ⟨hpath, hcontent.symm.trans hsame.1, hexecutable.symm.trans hsame.2⟩
  · rw [List.countP_eq_countP_filter_add _ _ fun entry =>
      startsWith (payloadLead vendored.base vendored.manifest.payload.root) entry.path.str, filter_copiedFiles hroot]
    congr 1
    · unfold VendoredArtifactOrigin.recordedFiles
      rw [List.countP_map]
      refine List.countP_congr fun entry hentry => ?_
      have hlead := lead_of_copied (List.mem_filter.mp hentry).2
      rw [upstreamFiles_paths]
      simp only [Function.comp_apply, Bool.not_eq_true', List.contains_eq_mem, decide_eq_false_iff_not, decide_eq_true_eq]
      refine not_congr ?_
      constructor
      · intro hmem
        obtain ⟨file, hfile, hpath⟩ := List.mem_map.mp hmem
        rw [← append_left_text (hpath.trans hlead)]
        exact List.mem_map_of_mem hfile
      · intro hmem
        obtain ⟨file, hfile, hpath⟩ := List.mem_map.mp hmem
        refine List.mem_map.mpr ⟨file, hfile, ?_⟩
        rw [hpath]
        exact hlead.symm
    · refine List.countP_eq_length.mpr fun entry hentry => ?_
      have hstray := (List.mem_filter.mp hentry).2
      rw [upstreamFiles_paths]
      simp only [Bool.not_eq_true', List.contains_eq_mem, decide_eq_false_iff_not]
      intro hmem
      obtain ⟨file, _, hpath⟩ := List.mem_map.mp hmem
      have hstarts : startsWith (payloadLead vendored.base vendored.manifest.payload.root) entry.path.str = true :=
        startsWith_iff.mpr ⟨_, hpath.symm⟩
      rw [hstarts] at hstray
      exact absurd hstray (by simp)

/-- No file is taken for the copy wrongly where every other file of the package is recorded. -/
theorem strayFiles_eq_nil : vendored.strayFiles entries = [] ↔ AllRecorded entries vendored := by
  unfold VendoredArtifactOrigin.strayFiles
  rw [List.filter_eq_nil_iff]
  constructor
  · intro h entry hentry hbeside
    by_contra hunrecorded
    have hkept : entry.path.str ∉ Vendoring.excludedPaths vendored.base vendored.authored := by
      intro hmem
      obtain ⟨relative, hrelative, hpath⟩ := List.mem_map.mp hmem
      exact hunrecorded ⟨relative, hrelative, hpath.symm⟩
    have hlead := h entry (mem_copiedFiles.mpr
      ⟨hentry, hbeside.below, hbeside.file, hkept, hbeside.manifest, hbeside.provenance⟩)
    simp only [Bool.not_eq_true', Bool.not_eq_false] at hlead
    have hcopied := isCopied_iff.mpr ⟨hlead, hbeside.file, hkept⟩
    rw [hbeside.uncopied] at hcopied
    exact absurd hcopied (by simp)
  · intro h entry hentry
    obtain ⟨hmem, hbelow, hkind, hkept, hmanifest, hprovenance⟩ := mem_copiedFiles.mp hentry
    by_contra hstray
    simp only [Bool.not_eq_true'] at hstray
    have huncopied : isCopied vendored.base vendored.manifest.payload.root vendored.authored (entry.path.str, entry) = false := by
      rw [Bool.eq_false_iff]
      intro hcopied
      rw [(isCopied_iff.mp hcopied).1] at hstray
      exact absurd hstray (by simp)
    obtain ⟨relative, hrelative, hpath⟩ := h entry hmem ⟨hkind, hbelow, huncopied, hmanifest, hprovenance⟩
    exact hkept (List.mem_map.mpr ⟨relative, hrelative, hpath.symm⟩)

/-- The planner counts exactly where every other file of the package is recorded. -/
theorem driftCounts_exact_iff (hdistinct : (entries.map (·.path.str)).Nodup)
    (hroot : vendored.manifest.payload.root = ⟨[Vendoring.payloadRootName]⟩) :
    driftCounts entries vendored taken = countsBetween (vendored.recordedFiles entries) (subtreeFiles taken) ↔
      AllRecorded entries vendored := by
  rw [driftCounts_eq hdistinct hroot, ← strayFiles_eq_nil, ← List.length_eq_zero_iff]
  constructor
  · intro h
    have hremoved := congrArg DriftCounts.removed h
    dsimp only at hremoved
    omega
  · intro h
    rw [h]
    rfl

end Files

/-! ## Reports -/

section Reports

variable [StandardLibrary]

/-- Every audit with the acquisition gives the copy this disposition. -/
def Audits (acquisition : NativeReferenceAcquisition) (snapshot : SourceSnapshot) (vendored : VendoredArtifactOrigin)
    (disposition : NativeReferenceDisposition) : Prop :=
  ∀ acquirer : NativeAcquirer, acquirer vendored.url vendored.ref = .ok acquisition →
    ∀ found, auditUpstream acquirer snapshot = .ok found → (vendored, disposition) ∈ found

variable [LicenseText] [ScanRuntime]

/-- Where the plan leads, the same acquisition finds the copy up to date. -/
structure UpToDateAfter (readSetup : SetupReader) (checkout : Checkout) (snapshot : SourceSnapshot)
    (identity : ArtifactIdentity) (acquisition : NativeReferenceAcquisition) (review : ReviewRecord) (importerVersion : SemVer)
    (plan : RegistryWorkspacePlan) (after : SourceSnapshot) (again : VendoredArtifactOrigin) : Prop where
  projected : projectRegistryWorkspacePlan snapshot plan = .ok after
  applied : ∀ receipt left, checkout.applyLocked plan = (.ok receipt, left) → left.snapshot = .ok after
  read : readVendoredArtifact after identity = .ok again
  rechecked : ∀ version, ∃ check,
    planArtifactRevendor readSetup after acquisition again version review importerVersion = .ok check ∧
      check.disposition = .upToDate
  audited : Audits acquisition after again .upToDate

/-- The report says how the subtree differs from the copy, the audit says the same, and the plan removes
the difference. -/
structure ReportsDrift (readSetup : SetupReader) (checkout : Checkout) (snapshot : SourceSnapshot)
    (identity : ArtifactIdentity) (acquisition : NativeReferenceAcquisition) (vendored : VendoredArtifactOrigin)
    (taken : TakenSubtree) (review : ReviewRecord) (importerVersion : SemVer) (check : VendoredArtifactCheck) : Prop where
  upToDate : check.disposition = .upToDate ↔ SameFiles vendored snapshot.entries taken
  counts : ¬ SameFiles vendored snapshot.entries taken →
    check.counts = countsBetween (vendored.recordedFiles snapshot.entries) (subtreeFiles taken) ∧
      (0 < check.counts.added ∨ 0 < check.counts.changed ∨ 0 < check.counts.removed)
  audited : Audits acquisition snapshot vendored check.disposition
  converges : ∀ plan, check.plan = some plan → ∃ after again,
    UpToDateAfter readSetup checkout snapshot identity acquisition review importerVersion plan after again

/-! ## The check -/

/-- What a check that is returned has verified, and what it reports. -/
structure Checked (snapshot : SourceSnapshot) (acquisition : NativeReferenceAcquisition) (vendored : VendoredArtifactOrigin)
    (taken : TakenSubtree) (version : Option SemVer) (review : ReviewRecord) (integrity : Vendoring.CopyIntegrity)
    (check : VendoredArtifactCheck) : Prop where
  approved : review.status = "approved"
  url : acquisition.url = vendored.url
  ref : acquisition.requestedRef = vendored.ref
  digest : ∃ digest, sourceSnapshotDigest snapshot = .ok digest
  verified : vendored.verify snapshot.entries = .ok integrity
  matched : integrity.matches = true
  report : taken.inputDigest = integrity.recomputed ∧ check.disposition = .upToDate ∧ check.plan = none ∨
    taken.inputDigest ≠ integrity.recomputed ∧ check.disposition = .changed ∧
      check.counts = driftCounts snapshot.entries vendored taken ∧ (check.plan = none ↔ version = none)

variable {readSetup : SetupReader} {snapshot : SourceSnapshot} {acquisition : NativeReferenceAcquisition}
  {vendored : VendoredArtifactOrigin} {taken : TakenSubtree} {version : Option SemVer} {importerVersion : SemVer}
  {review : ReviewRecord} {check : VendoredArtifactCheck} {integrity : Vendoring.CopyIntegrity}

omit [LicenseText] [ScanRuntime] in
theorem digest_of_files {entries : List SnapshotEntry} (h : files snapshot = .ok entries) :
    ∃ digest, sourceSnapshotDigest snapshot = .ok digest := by
  unfold files at h
  split at h
  · exact absurd h (by simp [commandError, error])
  · rename_i digest hdigest
    exact ⟨digest, hdigest⟩

theorem checked_of_ok (htake : takeSubtree acquisition.snapshot vendored.path {} = .ok taken)
    (h : planArtifactRevendor readSetup snapshot acquisition vendored version review importerVersion = .ok check) :
    ∃ integrity, Checked snapshot acquisition vendored taken version review integrity check := by
  unfold planArtifactRevendor at h
  obtain ⟨happroved, h⟩ := Result.of_check_ok h
  obtain ⟨hresolves, h⟩ := Result.of_check_ok h
  obtain ⟨current, hcurrent, h⟩ := Result.of_bind_ok h
  have hdigest := digest_of_files hcurrent
  obtain rfl := files_eq_ok hcurrent
  obtain ⟨integrity, hverified, h⟩ := Result.of_bind_ok h
  obtain ⟨hmatched, h⟩ := Result.of_check_ok h
  obtain ⟨subtree, hsubtree, h⟩ := Result.of_bind_ok h
  obtain rfl := Except.ok.inj (htake.symm.trans hsubtree)
  rw [not_or, not_not, not_not] at hresolves
  refine ⟨integrity, not_not.mp happroved, hresolves.1, hresolves.2, hdigest, hverified, by simpa using hmatched, ?_⟩
  split at h
  · rename_i hsame
    obtain rfl := Except.ok.inj h
    exact Or.inl ⟨hsame, rfl, rfl⟩
  · rename_i hdiffers
    dsimp only at h
    split at h
    · obtain rfl := Except.ok.inj h
      exact Or.inr ⟨hdiffers, rfl, rfl, by simp⟩
    · obtain ⟨package, _, h⟩ := Result.of_bind_ok h
      obtain ⟨planned, _, h⟩ := Result.of_bind_ok h
      obtain rfl := Except.ok.inj h
      exact Or.inr ⟨hdiffers, rfl, rfl, by simp⟩

/-- A copy that matches the subtree is reported up to date, whatever version is named. -/
theorem upToDate_of_same (happroved : review.status = "approved") (hurl : acquisition.url = vendored.url)
    (href : acquisition.requestedRef = vendored.ref) {digest : ObjectDigest}
    (hdigest : sourceSnapshotDigest snapshot = .ok digest) (hverified : vendored.verify snapshot.entries = .ok integrity)
    (hmatched : integrity.matches = true) (htake : takeSubtree acquisition.snapshot vendored.path {} = .ok taken)
    (hsame : taken.inputDigest = integrity.recomputed) :
    ∃ check, planArtifactRevendor readSetup snapshot acquisition vendored version review importerVersion = .ok check ∧
      check.disposition = .upToDate := by
  have hfiles : files snapshot = .ok snapshot.entries := by
    unfold files
    rw [hdigest]
  unfold planArtifactRevendor
  rw [if_neg (not_not.mpr happroved), if_neg (by simp [hurl, href]), hfiles]
  simp only [bind, Except.bind, hverified, hmatched, Bool.not_true, Bool.false_eq_true, if_false, htake, hsame, if_true]
  exact ⟨_, rfl, rfl⟩

/-- A copy that differs is counted, where no version is named. -/
theorem changed_of_differs (happroved : review.status = "approved") (hurl : acquisition.url = vendored.url)
    (href : acquisition.requestedRef = vendored.ref) {digest : ObjectDigest}
    (hdigest : sourceSnapshotDigest snapshot = .ok digest) (hverified : vendored.verify snapshot.entries = .ok integrity)
    (hmatched : integrity.matches = true) (htake : takeSubtree acquisition.snapshot vendored.path {} = .ok taken)
    (hdiffers : taken.inputDigest ≠ integrity.recomputed) :
    planArtifactRevendor readSetup snapshot acquisition vendored none review importerVersion =
      .ok ⟨.changed, acquisition.resolvedCommit, vendored.recordedCommit, driftCounts snapshot.entries vendored taken, none,
        none, none⟩ := by
  have hfiles : files snapshot = .ok snapshot.entries := by
    unfold files
    rw [hdigest]
  unfold planArtifactRevendor
  rw [if_neg (not_not.mpr happroved), if_neg (by simp [hurl, href]), hfiles]
  simp only [bind, Except.bind, hverified, hmatched, Bool.not_true, Bool.false_eq_true, if_false, htake, hdiffers]
  rfl

/-! ## The audit -/

omit [LicenseText] [ScanRuntime]

variable {identity : ArtifactIdentity}

omit [StandardLibrary] in
theorem removeSuffix_append (base tail : String) : removeSuffix tail (base ++ tail) = base := by
  have hends : endsWith tail (base ++ tail) = true := by
    unfold endsWith
    rw [String.toList_append]
    exact List.isSuffixOf_iff_suffix.mpr (List.suffix_append _ _)
  unfold removeSuffix
  rw [if_pos hends]
  refine String.toList_inj.mp ?_
  rw [String.toList_ofList, String.toList_append, List.length_append, Nat.add_sub_cancel, List.take_left]

theorem source_of_registryInputs {inputs : RegistrySchema.RegistryManifest × Native.SourceManifest × List RegistrySchema.RegistryEntry}
    (h : registryInputs snapshot = .ok inputs) : sourceManifest snapshot.entries = .ok inputs.2.1 := by
  obtain ⟨current, hcurrent, h⟩ := Result.of_bind_ok h
  obtain rfl := files_eq_ok hcurrent
  split at h
  · exact absurd h (by simp [commandError, error])
  obtain ⟨registry, _, h⟩ := Result.of_bind_ok h
  obtain ⟨source, hsource, h⟩ := Result.of_bind_ok h
  obtain ⟨_, _, h⟩ := Result.of_bind_ok h
  obtain ⟨entries, _, h⟩ := Result.of_bind_ok h
  obtain ⟨_, _, h⟩ := Result.of_bind_ok h
  obtain rfl := Except.ok.inj h
  exact hsource

/-- A directory holds no document. -/
theorem file_of_parsed [JsonRuntime] {entry : SnapshotEntry} {value : Json} (hentry : entry.Hashable)
    (h : parseJson entry.content = .ok value) : entry.kind = .file := by
  unfold SnapshotEntry.Hashable at hentry
  cases hkind : entry.kind with
  | file => rfl
  | directory =>
      rw [hkind] at hentry
      rw [hentry.1] at h
      unfold parseJson at h
      rw [show decodeUtf8 [] = some "" from rfl] at h
      dsimp only at h
      rw [JsonRuntime.loads_eq] at h
      obtain ⟨found, hfound, _⟩ := Result.of_bind_ok h
      have hempty : ∃ diagnostics, JsonText.loads "" = .error diagnostics := ⟨_, rfl⟩
      obtain ⟨diagnostics, hempty⟩ := hempty
      rw [hempty] at hfound
      exact absurd hfound (by simp)
  | symlink => rw [hkind] at hentry; exact hentry.elim
  | special => rw [hkind] at hentry; exact hentry.elim

/-- An audit finds what was read. -/
theorem auditedCopy_of_read [JsonRuntime] {entries : List SnapshotEntry} (hhashable : HashableEntries entries)
    (h : ReadVendored entries identity vendored) : ∃ item, item ∈ entries ∧ item.isFile = true ∧
      item.path.str = vendored.base ++ "/artifact.json" ∧ auditedCopy entries item = some vendored := by
  obtain ⟨item, hitem, hmanifest⟩ := h.manifest
  obtain ⟨entry, provenance, record, hentry, hprovenance, hrecord, hform⟩ := h.provenance
  obtain ⟨hmem, hpath⟩ := mem_of_entryAt hitem
  obtain ⟨value, hvalue, _⟩ := Result.of_bind_ok hmanifest
  obtain ⟨other, hother, _⟩ := Result.of_bind_ok hprovenance
  have hitemFile := file_of_parsed (hhashable.kinds item hmem) hvalue
  have hentryFile := file_of_parsed (hhashable.kinds entry (mem_of_entryAt hentry).1) hother
  have himporter : provenance.importer.id = Vendoring.vendorImporterId := by
    unfold Vendoring.readVendorRecord at hrecord
    obtain ⟨himporter, _⟩ := Result.of_check_ok hrecord
    exact not_not.mp himporter
  refine ⟨item, hmem, by simp [SnapshotEntry.isFile, hitemFile], hpath, ?_⟩
  have hpackage : readVendoredPackage entries vendored.base vendored.manifest = .ok vendored :=
    (readVendoredPackage_of_parts hentry hprovenance hrecord).trans (congrArg Except.ok hform.symm)
  unfold auditedCopy
  rw [hpath, removeSuffix_append]
  simp only [hmanifest, Except.toOption, Option.bind_eq_bind, Option.bind_some, hentry, Option.filter_some,
    SnapshotEntry.isFile, hentryFile, beq_self_eq_true, if_true, hprovenance, himporter, hpackage]

theorem audits_of_read [JsonRuntime] {digest : ObjectDigest} (hdigest : sourceSnapshotDigest snapshot = .ok digest)
    (h : ReadVendored snapshot.entries identity vendored) (hverified : vendored.verify snapshot.entries = .ok integrity)
    (htake : takeSubtree acquisition.snapshot vendored.path {} = .ok taken) :
    Audits acquisition snapshot vendored
      (if taken.inputDigest = integrity.recomputed then .upToDate else .changed) := by
  intro acquirer hacquired found hfound
  obtain ⟨inputs, hinputs, hfound⟩ := Result.of_bind_ok hfound
  obtain ⟨current, hcurrent, hfound⟩ := Result.of_bind_ok hfound
  obtain rfl := files_eq_ok hcurrent
  obtain rfl := Except.ok.inj hfound
  have hroots := roots_of_sourceManifest (source_of_registryInputs hinputs)
  obtain ⟨item, hmem, hfile, hpath, hcopy⟩ := auditedCopy_of_read (hashable_of_digest hdigest) h
  have hdisposition : upstreamDisposition acquirer snapshot.entries vendored =
      if taken.inputDigest = integrity.recomputed then .upToDate else .changed := by
    unfold upstreamDisposition VendoredArtifactOrigin.shippedDigest
    rw [hacquired, hverified]
    dsimp only
    rw [htake]
  rw [← hdisposition]
  refine List.mem_map.mpr ⟨vendored, List.mem_filterMap.mpr ⟨item, List.mem_filter.mpr ⟨mem_sortedBy.mpr hmem, ?_⟩, hcopy⟩, rfl⟩
  have hends : endsWith "/artifact.json" item.path.str = true := by
    rw [hpath, endsWith, String.toList_append]
    exact List.isSuffixOf_iff_suffix.mpr (List.suffix_append _ _)
  have hstarts : startsWith (packagesRoot.str ++ "/") item.path.str = true := by
    rw [hpath, h.base]
    refine startsWith_iff.mpr ⟨identity.kind.value ++ "/" ++ identity.name.value ++ "/artifact.json", ?_⟩
    simp [artifactBase, String.append_assoc]
  simp only [hfile, hends, hroots, List.any_cons, List.any_nil, hstarts, Bool.true_and, Bool.or_false]

end Reports

/-! ## The workspace that is left -/

section After

variable [StandardLibrary] [LicenseText] {checkout : Checkout} {snapshot : SourceSnapshot} {identity : ArtifactIdentity}
  {acquisition : NativeReferenceAcquisition} {vendored again : VendoredArtifactOrigin} {taken : TakenSubtree}
  {version importerVersion : SemVer} {package : VendoredPackage} {authored : List PackageFile}
  {attestation : Security.SecurityAttestation} {assessment : Option Security.SecurityAssessment} {plan : RegistryWorkspacePlan}

omit [LicenseText]

theorem digest_of_project {after : SourceSnapshot} (h : projectRegistryWorkspacePlan snapshot plan = .ok after) :
    ∃ digest, sourceSnapshotDigest after = .ok digest := by
  obtain ⟨current, _, h⟩ := Result.of_bind_ok h
  obtain ⟨_, _, h⟩ := Result.of_bind_ok h
  obtain ⟨projected, _, h⟩ := Result.of_bind_ok h
  split at h
  · exact absurd h (by simp [commandError, error])
  · rename_i digest hdigest
    obtain ⟨_, _, h⟩ := Result.of_bind_ok h
    obtain rfl := Except.ok.inj h
    exact ⟨digest, hdigest⟩

theorem source_of_read (h : readVendoredArtifact snapshot identity = .ok vendored) :
    ∃ source, sourceManifest snapshot.entries = .ok source := by
  obtain ⟨current, hcurrent, h⟩ := Result.of_bind_ok h
  obtain rfl := files_eq_ok hcurrent
  obtain ⟨source, hsource, _⟩ := Result.of_bind_ok h
  exact ⟨source, hsource⟩

theorem canonical_origin {value : Json} {found : Native.OriginProvenance} (h : Native.origin value = .ok found) :
    Canonical found.path := by
  obtain ⟨entries, _, h⟩ := Result.of_bind_ok h
  obtain ⟨fields, _, h⟩ := Result.of_bind_ok h
  obtain ⟨kind, _, h1⟩ := Result.of_bind_ok h
  obtain ⟨url, _, h2⟩ := Result.of_bind_ok h1
  obtain ⟨commit, _, h3⟩ := Result.of_bind_ok h2
  obtain ⟨rawPath, _, h4⟩ := Result.of_bind_ok h3
  obtain ⟨pinned, _, h5⟩ := Result.of_bind_ok h4
  obtain ⟨path, hpath, h6⟩ := Result.of_bind_ok h5
  obtain ⟨digest, _, h7⟩ := Result.of_bind_ok h6
  obtain rfl := Except.ok.inj h7
  unfold Schema.insteadOf at hpath
  split at hpath
  · rename_i found hfound
    obtain rfl := Except.ok.inj hpath
    exact canonical_of_parse hfound
  · exact absurd hpath (by simp [error])

theorem canonical_of_provenance {data : Bytes} {found : Native.Provenance} (h : Native.parseProvenance data = .ok found) :
    Canonical found.origin.path := by
  obtain ⟨value, _, h⟩ := Result.of_bind_ok h
  obtain ⟨entries, _, h⟩ := Result.of_bind_ok h
  obtain ⟨fields, _, h⟩ := Result.of_bind_ok h
  obtain ⟨schemaVersion, _, h1⟩ := Result.of_bind_ok h
  obtain ⟨origin, horigin, h2⟩ := Result.of_bind_ok h1
  obtain ⟨importer, _, h3⟩ := Result.of_bind_ok h2
  obtain ⟨warnings, _, h4⟩ := Result.of_bind_ok h3
  obtain rfl := Except.ok.inj h4
  exact canonical_origin horigin

/-- A record names a reference and paths. -/
theorem ReadVendored.named {entries : List SnapshotEntry} (h : ReadVendored entries identity vendored) :
    vendored.ref ≠ "" ∧ Canonical vendored.path := by
  obtain ⟨entry, provenance, record, _, hprovenance, hrecord, hform⟩ := h.provenance
  have href : vendored.ref = record.ref := by rw [hform]
  have hpath : vendored.path = provenance.origin.path := by rw [hform]
  rw [href, hpath]
  refine ⟨?_, canonical_of_provenance hprovenance⟩
  unfold Vendoring.readVendorRecord at hrecord
  obtain ⟨_, hrecord⟩ := Result.of_check_ok hrecord
  split at hrecord
  · split at hrecord
    · obtain ⟨hnamed, hrecord⟩ := Result.of_check_ok hrecord
      split at hrecord
      · exact absurd hrecord (by simp [Vendoring.vendorError, error])
      · obtain ⟨_, hrecord⟩ := Result.of_check_ok hrecord
        rw [← Except.ok.inj hrecord]
        exact hnamed
    · exact absurd hrecord (by simp [Vendoring.vendorError, error])
  · exact absurd hrecord (by simp [Vendoring.vendorError, error])

omit [StandardLibrary] in
theorem isCopied_congr {base : String} {root : SafeRelativePath} {first second : List String}
    (h : ∀ path, path ∈ first ↔ path ∈ second) (item : String × SnapshotEntry) :
    isCopied base root first item = isCopied base root second item := by
  have hexcluded : (Vendoring.excludedPaths base first).contains item.1 = (Vendoring.excludedPaths base second).contains item.1 := by
    rw [Bool.eq_iff_iff]
    simp [Vendoring.excludedPaths, h]
  unfold isCopied
  rw [hexcluded]

/-! ### Reading the copy again -/

variable [LicenseText]

/-- What is read of the copy where the plan leads. -/
structure ReadAgain (vendored again : VendoredArtifactOrigin) (taken : TakenSubtree) : Prop where
  base : again.base = vendored.base
  url : again.url = vendored.url
  ref : again.ref = vendored.ref
  path : again.path = vendored.path
  inputDigest : again.inputDigest = taken.inputDigest
  payloadRoot : again.manifest.payload.root = vendored.manifest.payload.root
  authored : ∀ path, path ∈ again.authored ↔ path ∈ vendored.authored

section Again

variable (h : Revendored checkout snapshot identity acquisition vendored taken version importerVersion assessment plan package
  authored attestation)

include h

theorem Revendored.hashable_after :
    HashableEntries (rewritten snapshot (wanted package attestation) vendored.base).entries := by
  obtain ⟨digest, hdigest⟩ := digest_of_project h.projected
  exact hashable_of_digest hdigest

/-- Where the package is read again, it was projected over its own directory. -/
theorem Revendored.identity_of_read [JsonRuntime]
    (hread : readVendoredArtifact (rewritten snapshot (wanted package attestation) vendored.base) identity = .ok again) :
    vendored.manifest.identity = identity := by
  have hcopy := readVendored_of_ok hread
  obtain ⟨entry, hentry, hmanifest⟩ := hcopy.manifest
  obtain ⟨value, hvalue, _⟩ := Result.of_bind_ok hmanifest
  have hkind := file_of_parsed (h.hashable_after.kinds entry (mem_of_entryAt hentry).1) hvalue
  rw [hcopy.base, ← h.copy.base, manifest_text] at hentry
  obtain ⟨file, hfile, hpath, _⟩ := (h.draft.file_below_iff (startsWith_iff.mpr ⟨"artifact.json", rfl⟩)).mp ⟨hentry, hkind⟩
  exact (h.projects.source_of_wanted h.copy.base hfile hpath).1

theorem Revendored.source_after (hidentity : vendored.manifest.identity = identity) {source : Native.SourceManifest}
    (hsource : sourceManifest snapshot.entries = .ok source) :
    sourceManifest (rewritten snapshot (wanted package attestation) vendored.base).entries = .ok source := by
  have hmarker : entryAt snapshot.entries "aart-source.json" ≠ none := by
    intro hnone
    unfold sourceManifest at hsource
    rw [hnone] at hsource
    exact absurd hsource (by simp [commandError, error])
  have houtside : startsWith (vendored.base ++ "/") "aart-source.json" = false := by
    rw [Bool.eq_false_iff]
    intro hstarts
    obtain ⟨rest, hrest⟩ := startsWith_iff.mp hstarts
    have hparts := congrArg (splitChar '/') hrest
    rw [h.copy.base, splitChar_package, show splitChar '/' "aart-source.json" = ["aart-source.json"] from by decide] at hparts
    simp at hparts
  have hevidence : "aart-source.json" ≠ evidencePath attestation := by
    intro hsame
    have hhead := congrArg (fun path => path.toList.head?) hsame
    unfold evidencePath at hhead
    rw [String.toList_append, String.toList_append] at hhead
    simp at hhead
  rcases h.projects.stays_outside h.copy hidentity h.draft houtside hevidence with hstays | ⟨hnone, _⟩
  · unfold sourceManifest at hsource ⊢
    rw [hstays]
    exact hsource
  · exact absurd hnone hmarker

/-- The copy is read again, and its record names the subtree. -/
theorem Revendored.read_after [JsonRuntime] (htake : takeSubtree acquisition.snapshot vendored.path {} = .ok taken)
    (hread : readVendoredArtifact snapshot identity = .ok vendored) (hidentity : vendored.manifest.identity = identity) :
    ∃ again, readVendoredArtifact (rewritten snapshot (wanted package attestation) vendored.base) identity = .ok again ∧
      ReadAgain vendored again taken := by
  obtain ⟨source, hsource⟩ := source_of_read hread
  obtain ⟨digest, hdigest⟩ := digest_of_project h.projected
  have hafter := h.source_after hidentity hsource
  have hpackage := h.base hidentity
  obtain ⟨manifest, hmanifest⟩ := h.readable
  obtain ⟨provenance, hprovenance⟩ := h.recorded
  have hmanifestEntry := h.projects.entryAt_document hpackage h.draft manifestFile_mem
  have hprovenanceEntry := h.projects.entryAt_document hpackage h.draft provenanceFile_mem
  have hcarries := Vendoring.carries_of_projected h.projects.projected
  have hrecord := Vendoring.readVendorRecord_of_carries (Vendoring.carries_of_parse hcarries hprovenance) h.copy.named.1
    (Vendoring.nonempty_authored h.projects.projected)
  obtain ⟨hurl, hpath, hinput⟩ := Vendoring.origin_written (Vendoring.parts_of_parse hcarries.extensions hprovenance).1
  rw [h.projects.projected.provenance] at hurl hpath hinput
  refine ⟨⟨vendored.base, provenance.origin.url, vendored.ref, provenance.origin.path, provenance.origin.resolvedCommit,
    provenance.origin.inputDigest, manifest, sortedBy id (authored.map PackageFile.path)⟩, ?_, rfl, hurl, rfl, ?_, hinput, ?_,
    fun path => ?_⟩
  · have hfiles : files (rewritten snapshot (wanted package attestation) vendored.base) =
        .ok (rewritten snapshot (wanted package attestation) vendored.base).entries := by
      unfold files
      rw [hdigest]
    have hbase : artifactBase (source.artifactRoots.headD ⟨[]⟩) identity = vendored.base := by
      rw [roots_of_sourceManifest hsource, List.headD_cons, h.copy.base]
    rw [show vendored.base ++ "/" ++ (manifestFile package).path = vendored.base ++ "/artifact.json" from
      (manifest_text vendored.base).symm] at hmanifestEntry
    rw [show vendored.base ++ "/" ++ (provenanceFile package).path = vendored.base ++ "/provenance.json" from
      (provenance_text vendored.base).symm] at hprovenanceEntry
    have hmanifestRead : parseArtifactManifest (desiredFile (Vendoring.below package.base (manifestFile package))).entry.content =
        .ok manifest := hmanifest
    have hprovenanceRead : Native.parseProvenance
        (desiredFile (Vendoring.below package.base (provenanceFile package))).entry.content = .ok provenance := hprovenance
    exact readVendoredArtifact_of_parts hfiles hafter hbase hmanifestEntry hmanifestRead
      (readVendoredPackage_of_parts hprovenanceEntry hprovenanceRead hrecord)
  · refine path_of_text (canonical_of_provenance hprovenance) h.copy.named.2 ?_
    rw [hpath]
    exact congrArg SafeRelativePath.str (takeSubtree_eq_ok htake).1
  · rw [(Vendoring.readManifest_of_parse hmanifest).payload, h.manifest.payload]
  · rw [mem_sortedBy]
    exact (h.projects.mem_recorded path).symm

end Again

/-! ### The digests of the copy and of the subtree -/

section Digests

variable {integrity : Vendoring.CopyIntegrity} {entries : List SnapshotEntry}

omit [LicenseText]

theorem verifyVendoredCopy_recorded {files : PackageEntries} {base : String} {root : SafeRelativePath} {names : List String}
    {recorded : ObjectDigest} (h : Vendoring.verifyVendoredCopy files base root names recorded = .ok integrity)
    (other : ObjectDigest) :
    Vendoring.verifyVendoredCopy files base root names other = .ok ⟨other, integrity.recomputed, integrity.files⟩ := by
  obtain ⟨rebuilt, hrebuilt, h⟩ := Result.of_bind_ok h
  obtain ⟨digest, hdigest, h⟩ := Result.of_bind_ok h
  obtain rfl := Except.ok.inj h
  unfold Vendoring.verifyVendoredCopy
  rw [hrebuilt]
  simp only [bind, Except.bind, hdigest]
  rfl

theorem recomputed_eq_iff (h : vendored.verify entries = .ok integrity) : taken.inputDigest = integrity.recomputed ↔
    CopyMatches (byPath entries) vendored.base vendored.manifest.payload.root vendored.authored taken.inputDigest := by
  have hverified := verifyVendoredCopy_recorded h taken.inputDigest
  constructor
  · intro hsame
    exact ⟨_, hverified, by simpa [Vendoring.CopyIntegrity.matches] using hsame⟩
  · rintro ⟨found, hfound, hmatch⟩
    obtain rfl := Except.ok.inj (hverified.symm.trans hfound)
    simpa [Vendoring.CopyIntegrity.matches] using hmatch

/-- The digests agree exactly for the files of a subtree without empty directories. -/
theorem recomputed_eq_iff_same (hdistinct : (entries.map (·.path.str)).Nodup) (hverified : vendored.verify entries = .ok integrity)
    (htake : takeSubtree acquisition.snapshot vendored.path {} = .ok taken)
    (htold : ToldApart (byPath entries) vendored.base vendored.manifest.payload.root vendored.authored taken) :
    taken.inputDigest = integrity.recomputed ↔ ClosedSubtree taken ∧ SameFiles vendored entries taken := by
  rw [recomputed_eq_iff hverified, sameFiles_iff]
  have hkeys : ((byPath entries).map Prod.fst).Nodup := by
    unfold byPath
    rw [List.map_map]
    exact hdistinct
  constructor
  · exact Vendoring.holds_of_told htold
  · rintro ⟨hclosed, hholds⟩
    exact Vendoring.matches_of_holds (takeSubtree_eq_ok htake).2 (exists_file_of_takeSubtree htake) hkeys hclosed hholds

/-- A digest that is not that of the copy tells the subtree from it. -/
theorem toldApart_of_differs (hverified : vendored.verify entries = .ok integrity)
    (hdiffers : taken.inputDigest ≠ integrity.recomputed) :
    ToldApart (byPath entries) vendored.base vendored.manifest.payload.root vendored.authored taken := by
  intro rebuilt directories hrebuilt hsame
  exfalso
  obtain ⟨⟨_, _⟩, hagain, hverified⟩ := Result.of_bind_ok hverified
  obtain ⟨digest, hdigest, hverified⟩ := Result.of_bind_ok hverified
  obtain rfl := Except.ok.inj hverified
  obtain ⟨rfl, rfl⟩ := Prod.mk.inj (Except.ok.inj (hrebuilt.symm.trans hagain))
  exact hdiffers (Except.ok.inj (hsame.symm.trans hdigest))

end Digests

/-! ### Where a plan leads -/

variable [ScanRuntime] {readSetup : SetupReader} {review : ReviewRecord}

/-- The copy is up to date where the plan leads exactly where the subtree has no empty directories and the
package was written over its own directory. -/
theorem Revendored.upToDateAfter_iff [JsonRuntime]
    (h : Revendored checkout snapshot identity acquisition vendored taken version importerVersion assessment plan package
      authored attestation) (hread : readVendoredArtifact snapshot identity = .ok vendored)
    (htake : takeSubtree acquisition.snapshot vendored.path {} = .ok taken) (happroved : review.status = "approved")
    (hurl : acquisition.url = vendored.url) (href : acquisition.requestedRef = vendored.ref)
    (htold : ∀ after again, projectRegistryWorkspacePlan snapshot plan = .ok after →
      readVendoredArtifact after identity = .ok again →
        ToldApart (byPath after.entries) again.base again.manifest.payload.root again.authored taken) :
    (∃ after again, UpToDateAfter readSetup checkout snapshot identity acquisition review importerVersion plan after again) ↔
      ClosedSubtree taken ∧ vendored.manifest.identity = identity := by
  constructor
  · rintro ⟨after, again, hafter⟩
    obtain rfl := Except.ok.inj (h.projected.symm.trans hafter.projected)
    have hidentity := h.identity_of_read hafter.read
    obtain ⟨found, hfound, hsame⟩ := h.read_after htake hread hidentity
    obtain rfl := Except.ok.inj (hfound.symm.trans hafter.read)
    have htakeAgain : takeSubtree acquisition.snapshot found.path {} = .ok taken := by
      rw [hsame.path]
      exact htake
    obtain ⟨check, hcheck, hdisposition⟩ := hafter.rechecked none
    obtain ⟨integrity, hchecked⟩ := checked_of_ok htakeAgain hcheck
    rcases hchecked.report with ⟨hequal, _⟩ | ⟨_, hchanged, _⟩
    · exact ⟨((recomputed_eq_iff_same h.draft.distinct_after hchecked.verified htakeAgain
        (htold _ _ hafter.projected hafter.read)).mp hequal).1, hidentity⟩
    · rw [hdisposition] at hchanged
      exact absurd hchanged (by simp)
  · rintro ⟨hclosed, hidentity⟩
    obtain ⟨found, hfound, hsame⟩ := h.read_after htake hread hidentity
    have htakeAgain : takeSubtree acquisition.snapshot found.path {} = .ok taken := by
      rw [hsame.path]
      exact htake
    have hholds := h.projects.holdsCopy_after h.copy.base hidentity h.payloadRoot h.draft
    have hkeys : ((byPath (rewritten snapshot (wanted package attestation) vendored.base).entries).map Prod.fst).Nodup := by
      unfold byPath
      rw [List.map_map]
      exact h.draft.distinct_after
    have hholdsAgain : HoldsCopy (byPath (rewritten snapshot (wanted package attestation) vendored.base).entries) found.base
        found.manifest.payload.root found.authored taken := by
      rw [hsame.base, hsame.payloadRoot]
      intro path content executable
      rw [← hholds path content executable]
      simp only [isCopied_congr hsame.authored]
    obtain ⟨integrity, hverified, hmatched⟩ := Vendoring.matches_of_holds (takeSubtree_eq_ok htake).2
      (exists_file_of_takeSubtree htake) hkeys hclosed hholdsAgain
    have hverify : found.verify (rewritten snapshot (wanted package attestation) vendored.base).entries = .ok integrity := by
      unfold VendoredArtifactOrigin.verify
      rw [hsame.inputDigest]
      exact hverified
    have hequal : taken.inputDigest = integrity.recomputed := (recomputed_eq_iff hverify).mpr ⟨integrity, hverified, hmatched⟩
    obtain ⟨digest, hdigest⟩ := digest_of_project h.projected
    refine ⟨_, found, h.projected, fun receipt left hleft => ?_, hfound, fun other => ?_, ?_⟩
    · exact ((applyLocked_iff h.draft.read h.projected h.separate).mp ⟨receipt, hleft⟩).2.2
    · exact upToDate_of_same happroved (hurl.trans hsame.url.symm) (href.trans hsame.ref.symm) hdigest hverify hmatched
        htakeAgain hequal
    · have haudits := audits_of_read hdigest (readVendored_of_ok hfound) hverify htakeAgain
      rw [if_pos hequal] at haudits
      exact haudits

/-- Drift is reported exactly, and removed, where the subtree has no empty directories, every other file of the
package is recorded, and the manifest names the package that it stands in. -/
theorem planArtifactRevendor_reportsDrift_iff [JsonRuntime] {wantedVersion : Option SemVer} {check : VendoredArtifactCheck}
    (hsha : Sha256Length) (hsound : checkout.Sound) (hread : checkout.snapshot = .ok snapshot)
    (hvendored : readVendoredArtifact snapshot identity = .ok vendored)
    (htake : takeSubtree acquisition.snapshot vendored.path {} = .ok taken)
    (htold : ToldApart (byPath snapshot.entries) vendored.base vendored.manifest.payload.root vendored.authored taken)
    (h : planArtifactRevendor readSetup snapshot acquisition vendored wantedVersion review importerVersion = .ok check)
    (hagain : ∀ plan after again, check.plan = some plan → projectRegistryWorkspacePlan snapshot plan = .ok after →
      readVendoredArtifact after identity = .ok again →
        ToldApart (byPath after.entries) again.base again.manifest.payload.root again.authored taken) :
    ReportsDrift readSetup checkout snapshot identity acquisition vendored taken review importerVersion check ↔
      (SameFiles vendored snapshot.entries taken → ClosedSubtree taken) ∧
        (¬ SameFiles vendored snapshot.entries taken → AllRecorded snapshot.entries vendored ∧
          (wantedVersion ≠ none → ClosedSubtree taken ∧ vendored.manifest.identity = identity)) := by
  obtain ⟨integrity, hchecked⟩ := checked_of_ok htake h
  obtain ⟨digest, hdigest⟩ := hchecked.digest
  have hdistinct := (hashable_of_digest hdigest).distinct
  have hcopy := readVendored_of_ok hvendored
  have hroot : vendored.manifest.payload.root = ⟨[Vendoring.payloadRootName]⟩ := by
    obtain ⟨entry, _, hparsed⟩ := hcopy.manifest
    rw [(Vendoring.readManifest_of_parse hparsed).payload]
  have hequal := recomputed_eq_iff_same hdistinct hchecked.verified htake htold
  have haudits := audits_of_read hdigest hcopy hchecked.verified htake
  have hcounts : driftCounts snapshot.entries vendored taken =
      countsBetween (vendored.recordedFiles snapshot.entries) (subtreeFiles taken) ↔ AllRecorded snapshot.entries vendored :=
    driftCounts_exact_iff hdistinct hroot
  have hconverges {plan : RegistryWorkspacePlan} (hplan : check.plan = some plan) (hversion : wantedVersion ≠ none) :
      (∃ after again, UpToDateAfter readSetup checkout snapshot identity acquisition review importerVersion plan after again) ↔
        ClosedSubtree taken ∧ vendored.manifest.identity = identity := by
    obtain ⟨version, rfl⟩ := Option.ne_none_iff_exists'.mp hversion
    obtain ⟨package, authored, attestation, hrevendored⟩ := revendored_of_ok hsha hsound hread hvendored htake h hplan
    exact hrevendored.upToDateAfter_iff hvendored htake hchecked.approved hchecked.url hchecked.ref fun after again =>
      hagain plan after again hplan
  rcases hchecked.report with ⟨hsameDigest, hdisposition, hplan⟩ | ⟨hdiffers, hdisposition, hcounted, hplan⟩
  · obtain ⟨hclosed, hsame⟩ := hequal.mp hsameDigest
    rw [if_pos hsameDigest, ← hdisposition] at haudits
    constructor
    · intro _
      exact ⟨fun _ => hclosed, fun hother => absurd hsame hother⟩
    · intro _
      refine ⟨⟨fun _ => hsame, fun _ => hdisposition⟩, fun hother => absurd hsame hother, haudits, fun plan hsome => ?_⟩
      rw [hplan] at hsome
      exact absurd hsome (by simp)
  · rw [if_neg hdiffers, ← hdisposition] at haudits
    constructor
    · intro hreports
      have hother : ¬ SameFiles vendored snapshot.entries taken := by
        intro hsame
        have hreported := hreports.upToDate.mpr hsame
        rw [hdisposition] at hreported
        exact absurd hreported (by simp)
      refine ⟨fun hsame => absurd hsame hother, fun _ => ⟨hcounts.mp (hcounted.symm.trans (hreports.counts hother).1),
        fun hversion => ?_⟩⟩
      obtain ⟨plan, hsome⟩ := Option.ne_none_iff_exists'.mp (mt hplan.mp hversion)
      exact (hconverges hsome hversion).mp (hreports.converges plan hsome)
    · rintro ⟨hsameClosed, hdiffer⟩
      have hother : ¬ SameFiles vendored snapshot.entries taken := by
        intro hsame
        exact hdiffers (hequal.mpr ⟨hsameClosed hsame, hsame⟩)
      obtain ⟨hrecorded, hplanned⟩ := hdiffer hother
      refine ⟨⟨fun hreported => ?_, fun hsame => absurd hsame hother⟩, fun _ => ⟨hcounted.trans (hcounts.mpr hrecorded), ?_⟩,
        haudits, fun plan hsome => ?_⟩
      · rw [hdisposition] at hreported
        exact absurd hreported (by simp)
      · rw [hcounted, hcounts.mpr hrecorded]
        exact countsBetween_pos (nodup_recordedFiles hdistinct) hother
      · have hversion : wantedVersion ≠ none := by
          intro hnone
          rw [hplan.mpr hnone] at hsome
          exact absurd hsome (by simp)
        exact (hconverges hsome hversion).mpr (hplanned hversion)

end After

/-! ## A skill whose upstream has changed -/

section Samples

attribute [local instance] nineLibrary nineRuntime Vendoring.asciiLicense Security.plainScans

variable {taken : TakenSubtree}

theorem skill_differs (readme : Bool) (hentries : taken.snapshot.entries = [⟨⟨["SKILL.md"]⟩, .file, [57], false⟩]) :
    ¬ SameFiles skillVendored (skillSnapshot readme).entries taken := by
  intro hsame
  have htaken : (⟨"SKILL.md", [57], false⟩ : PackageFile) ∈ subtreeFiles taken := by
    refine mem_subtreeFiles.mpr ⟨⟨⟨["SKILL.md"]⟩, .file, [57], false⟩, ?_, rfl, rfl, rfl, rfl⟩
    rw [hentries]
    exact List.mem_singleton.mpr rfl
  obtain ⟨entry, hentry, _, hpath, hcontent, _⟩ := mem_recordedFiles.mp ((hsame _).mpr htaken)
  have hfound := entryAt_of_mem (skillSnapshot_hashable readme).distinct hentry
  have hknown := entryAt_registry readme ⟨⟨["artifacts", "skill", "t", "payload", "SKILL.md"]⟩, .file, [84], false⟩
    (by simp [skillRegistry])
  have htext : entry.path.str = (⟨["artifacts", "skill", "t", "payload", "SKILL.md"]⟩ : SafeRelativePath).str := hpath
  rw [htext, hknown] at hfound
  rw [← Option.some.inj hfound] at hcontent
  exact absurd hcontent (by decide)

theorem skill_checked (readme : Bool) (htake : takeSubtree skillAcquisition.snapshot skillVendored.path {} = .ok taken)
    (hdigest : taken.inputDigest = nineDigest) :
    planArtifactRevendor Security.noSetup (skillSnapshot readme) skillAcquisition skillVendored none ⟨"approved", "p"⟩
      firstVersion = .ok ⟨.changed, plainCommit, plainCommit, driftCounts (skillSnapshot readme).entries skillVendored taken,
        none, none, none⟩ := by
  obtain ⟨digest, hsnapshot⟩ := skillSnapshot_digest readme
  refine changed_of_differs rfl rfl rfl hsnapshot (skillVendored_verified readme) (by decide) htake ?_
  rw [hdigest]
  decide

/-- A file that no record names is counted as removed. -/
theorem planArtifactRevendor_counts_readme : ∃ taken check,
    (skillCheckout true).Sound ∧ (skillCheckout true).snapshot = .ok (skillSnapshot true) ∧
      readVendoredArtifact (skillSnapshot true) ⟨.skill, skillT⟩ = .ok skillVendored ∧
      takeSubtree skillAcquisition.snapshot skillVendored.path {} = .ok taken ∧
      planArtifactRevendor Security.noSetup (skillSnapshot true) skillAcquisition skillVendored none ⟨"approved", "p"⟩
        firstVersion = .ok check ∧
      ¬ ReportsDrift Security.noSetup (skillCheckout true) (skillSnapshot true) ⟨.skill, skillT⟩ skillAcquisition skillVendored
        taken ⟨"approved", "p"⟩ firstVersion check := by
  obtain ⟨taken, htake, hentries, hdigest⟩ := skillUpstream_taken
  refine ⟨taken, _, skillCheckout_sound true, skillCheckout_snapshot true, skillVendored_read true, htake,
    skill_checked true htake hdigest, fun hreports => ?_⟩
  have hcounts := (hreports.counts (skill_differs true hentries)).1
  have hrecorded := (driftCounts_exact_iff (skillSnapshot_hashable true).distinct rfl).mp hcounts
  have hreadme : skillReadme ∈ (skillSnapshot true).entries := (perm_sortByPath _).mem_iff.mpr (by simp [skillRegistry])
  obtain ⟨relative, hrelative, _⟩ := hrecorded skillReadme hreadme ⟨rfl, by decide, by decide, by decide, by decide⟩
  exact absurd hrelative (by simp [skillVendored])

theorem skill_recorded : AllRecorded (skillSnapshot false).entries skillVendored := by
  have hnone : ∀ entry ∈ skillRegistry false, ¬ BesideCopy skillVendored entry := by
    simp only [skillRegistry, List.forall_mem_cons, Bool.false_eq_true, if_false, List.append_nil]
    refine ⟨fun h => absurd h.file (by decide), fun h => absurd h.file (by decide), fun h => absurd h.file (by decide),
      fun h => absurd h.file (by decide), fun h => absurd h.below (by decide), fun h => h.manifest rfl,
      fun h => absurd h.uncopied (by decide), fun h => h.provenance rfl, by simp⟩
  intro entry hentry hbeside
  exact absurd hbeside (hnone entry ((perm_sortByPath _).mem_iff.mp hentry))

theorem planArtifactRevendor_reports_skill : ∃ taken check,
    takeSubtree skillAcquisition.snapshot skillVendored.path {} = .ok taken ∧
      planArtifactRevendor Security.noSetup (skillSnapshot false) skillAcquisition skillVendored none ⟨"approved", "p"⟩
        firstVersion = .ok check ∧ check.disposition = .changed ∧
      ReportsDrift Security.noSetup (skillCheckout false) (skillSnapshot false) ⟨.skill, skillT⟩ skillAcquisition skillVendored
        taken ⟨"approved", "p"⟩ firstVersion check := by
  obtain ⟨taken, htake, hentries, hdigest⟩ := skillUpstream_taken
  have hdiffers : taken.inputDigest ≠ noDigest := by
    rw [hdigest]
    decide
  have hchecked := skill_checked false htake hdigest
  refine ⟨taken, _, htake, hchecked, rfl, ?_⟩
  refine (planArtifactRevendor_reportsDrift_iff nineLibrary_sha256Length (skillCheckout_sound false)
    (skillCheckout_snapshot false) (skillVendored_read false) htake
    (toldApart_of_differs (skillVendored_verified false) hdiffers) hchecked fun plan after again hplan => absurd hplan (by simp)).mpr
    ⟨fun hsame => absurd hsame (skill_differs false hentries), fun _ => ⟨skill_recorded, fun hversion => absurd rfl hversion⟩⟩

end Samples

end AgentArtifacts.RegistryCommands
