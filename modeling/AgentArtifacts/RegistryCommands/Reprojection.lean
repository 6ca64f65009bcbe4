import AgentArtifacts.RegistryCommands.Applied
import AgentArtifacts.Security.BaselineAssessment
import AgentArtifacts.Vendoring.Manifests

/-!
# Copies that are projected anew

A directory is written anew where everything in it that is not wanted is removed. A new version
of a copy is such a plan over the directory of the package, with the evidence of its assessment.
-/

namespace AgentArtifacts.RegistryCommands

open Maintenance (NativeReferenceAcquisition)
open Native (ArtifactManifest parseArtifactManifest artifactManifestToJson)
open Registry (PackageEntries ReviewRecord entryAt entryAt_of_mem mem_of_entryAt sortedBy mem_sortedBy)
open Security (ScanRuntime SecurityAssessment SecurityAttestation SetupReader attestationBytes attestationDigest)
open Vendoring (HoldsCopy LicenseText PackageFile Projected ReadManifest Regenerable VendoredPackage isCopied
  packageDocuments packageEntries payloadLead takenFiles)

/-! ## A directory that is written anew -/

section Directory

variable [StandardLibrary] {checkout : Checkout} {snapshot : SourceSnapshot} {desired : List DesiredFile} {base path : String}

/-- The workspace that is left when a directory is written anew. -/
abbrev rewritten (snapshot : SourceSnapshot) (desired : List DesiredFile) (base : String) : SourceSnapshot :=
  workspaceAfter snapshot desired (prunedFiles snapshot.entries desired (some base))

/-- At a path that is not wanted what stands stays, unless it is pruned, or a directory is made. -/
theorem Drafted.entryAt_unwanted (h : Drafted checkout snapshot desired (some base))
    (hunwanted : ∀ file ∈ desired, file.path ≠ path)
    (hkept : ∀ entry ∈ prunedFiles snapshot.entries desired (some base), entry.path.str ≠ path) :
    entryAt (rewritten snapshot desired base).entries path = (entryAt snapshot.entries path).or
      (if ∃ file ∈ desired, pathOf path ∈ properAncestors (pathOf file.path) then some (directoryAt (pathOf path))
      else none) := by
  have hother : ∀ change ∈ sortChanges (plannedChanges snapshot.entries desired (some base)), path ≠ change.path.str := by
    intro change hmem
    rcases mem_sortedChanges.mp hmem with ⟨file, hfile, rfl⟩ | ⟨entry, hentry, rfl⟩
    · rw [show (writtenChange snapshot.entries file).path.str = file.path from str_pathOf file.path]
      exact (hunwanted file hfile).symm
    · exact (hkept entry hentry).symm
  have hmade : MadeBy (sortChanges (plannedChanges snapshot.entries desired (some base))) (pathOf path) ↔
      ∃ file ∈ desired, pathOf path ∈ properAncestors (pathOf file.path) := by
    constructor
    · rintro ⟨change, hmem, hkind, habove⟩
      rcases mem_sortedChanges.mp hmem with ⟨file, hfile, rfl⟩ | ⟨entry, _, rfl⟩
      · exact ⟨file, hfile, habove⟩
      · exact absurd rfl hkind
    · rintro ⟨file, hfile, habove⟩
      exact ⟨writtenChange snapshot.entries file, mem_sortedChanges.mpr (Or.inl ⟨file, hfile, rfl⟩),
        changeKind_ne_removed, habove⟩
  rw [h.entryAt_after, entryAt_foldl_other h.reviewed.named hother]
  by_cases habove : ∃ file ∈ desired, pathOf path ∈ properAncestors (pathOf file.path)
  · rw [if_pos habove, if_pos (hmade.mpr habove)]
  · rw [if_neg habove, if_neg fun hmade' => habove (hmade.mp hmade')]

omit [StandardLibrary] in
theorem mem_pruned {entry : SnapshotEntry} : entry ∈ prunedFiles snapshot.entries desired (some base) ↔
    entry ∈ snapshot.entries ∧ startsWith (base ++ "/") entry.path.str = true ∧ entry.kind = .file ∧
      ∀ file ∈ desired, file.path ≠ entry.path.str := by
  simp [prunedFiles, SnapshotEntry.isFile, and_assoc]

/-- The files below the directory are those that are wanted. -/
theorem Drafted.file_below_iff (h : Drafted checkout snapshot desired (some base))
    (hbelow : startsWith (base ++ "/") path = true) {entry : SnapshotEntry} :
    entryAt (rewritten snapshot desired base).entries path = some entry ∧ entry.kind = .file ↔
      ∃ file ∈ desired, file.path = path ∧ entry = file.entry := by
  constructor
  · rintro ⟨hentry, hkind⟩
    by_cases hwanted : ∃ file ∈ desired, file.path = path
    · obtain ⟨file, hfile, rfl⟩ := hwanted
      rw [h.entryAt_desired hfile] at hentry
      exact ⟨file, hfile, rfl, (Option.some.inj hentry).symm⟩
    have hunwanted : ∀ file ∈ desired, file.path ≠ path := fun file hfile hpath => hwanted ⟨file, hfile, hpath⟩
    exfalso
    by_cases hpruned : ∃ found ∈ prunedFiles snapshot.entries desired (some base), found.path.str = path
    · obtain ⟨found, hfound, rfl⟩ := hpruned
      rw [h.entryAt_pruned hfound] at hentry
      exact absurd hentry (by simp)
    have hkept : ∀ found ∈ prunedFiles snapshot.entries desired (some base), found.path.str ≠ path :=
      fun found hfound hpath => hpruned ⟨found, hfound, hpath⟩
    rw [h.entryAt_unwanted hunwanted hkept] at hentry
    cases hknown : entryAt snapshot.entries path with
    | none =>
        rw [hknown, Option.none_or] at hentry
        split at hentry
        · rw [← Option.some.inj hentry] at hkind
          exact absurd hkind (by simp [directoryAt])
        · exact absurd hentry (by simp)
    | some known =>
        rw [hknown, Option.some_or] at hentry
        obtain rfl := Option.some.inj hentry
        obtain ⟨hmem, rfl⟩ := mem_of_entryAt hknown
        exact hkept known (mem_pruned.mpr ⟨hmem, hbelow, hkind, hunwanted⟩) rfl
  · rintro ⟨file, hfile, rfl, rfl⟩
    exact ⟨h.entryAt_desired hfile, rfl⟩

/-- Outside of the directory nothing is pruned. -/
theorem Drafted.entryAt_outside (h : Drafted checkout snapshot desired (some base))
    (houtside : startsWith (base ++ "/") path = false) (hunwanted : ∀ file ∈ desired, file.path ≠ path) :
    entryAt (rewritten snapshot desired base).entries path = (entryAt snapshot.entries path).or
      (if ∃ file ∈ desired, pathOf path ∈ properAncestors (pathOf file.path) then some (directoryAt (pathOf path))
      else none) := by
  refine h.entryAt_unwanted hunwanted fun entry hentry hpath => ?_
  rw [← hpath] at houtside
  exact absurd ((mem_pruned.mp hentry).2.1.symm.trans houtside) (by simp)

end Directory

/-! ## Packages of a registry -/

section Packages

variable {a b : ArtifactIdentity} {x y : String}

/-- The directory of the packages of a registry. -/
def packagesRoot : SafeRelativePath := ⟨["artifacts"]⟩

theorem artifactBase_eq (identity : ArtifactIdentity) :
    artifactBase packagesRoot identity = slashJoin ["artifacts", identity.kind.value, identity.name.value] := by
  simp [artifactBase, packagesRoot, SafeRelativePath.str, slashJoin, String.append_assoc]

theorem splitChar_package (identity : ArtifactIdentity) (tail : String) :
    splitChar '/' (artifactBase packagesRoot identity ++ "/" ++ tail) =
      ["artifacts", identity.kind.value, identity.name.value] ++ splitChar '/' tail := by
  rw [artifactBase_eq]
  refine splitChar_below (by simp) ?_ tail
  simp only [List.forall_mem_cons]
  exact ⟨by decide, identity.kind.slash_not_mem, identity.name.slash_not_mem, by simp⟩

/-- What stands in a package tells which package it is. -/
theorem below_package_inj (h : artifactBase packagesRoot a ++ "/" ++ x = artifactBase packagesRoot b ++ "/" ++ y) :
    a = b ∧ x = y := by
  have hparts := congrArg (splitChar '/') h
  rw [splitChar_package, splitChar_package] at hparts
  simp only [List.cons_append, List.nil_append, List.cons.injEq, true_and] at hparts
  obtain ⟨hkind, hname, _⟩ := hparts
  obtain ⟨kind, name⟩ := a
  obtain ⟨otherKind, otherName⟩ := b
  obtain rfl : kind = otherKind := ArtifactKind.value_injective hkind
  obtain rfl : name = otherName := Manifest.slug_eq_of_value hname
  exact ⟨rfl, append_left_text h⟩

/-- Where the evidence of an attestation stands. -/
theorem evidence_outside (identity : ArtifactIdentity) (tail : String) :
    startsWith (artifactBase packagesRoot identity ++ "/") ("security/attestations/" ++ tail) = false := by
  by_contra hstarts
  obtain ⟨rest, hrest⟩ := startsWith_iff.mp (Bool.not_eq_false _ ▸ hstarts)
  have hparts := congrArg (splitChar '/') hrest
  have hlead : ("security/attestations/" : String) = slashJoin ["security", "attestations"] ++ "/" := by decide
  rw [splitChar_package, hlead, splitChar_below (by simp) (by decide)] at hparts
  simp at hparts

end Packages

/-! ## What is asked of a new version -/

section Frame

variable [StandardLibrary]

/-- A file of the package that is neither copied nor derived. -/
structure BesideCopy (vendored : VendoredArtifactOrigin) (entry : SnapshotEntry) : Prop where
  file : entry.kind = .file
  below : startsWith (vendored.base ++ "/") entry.path.str = true
  uncopied : isCopied vendored.base vendored.manifest.payload.root vendored.authored (entry.path.str, entry) = false
  manifest : entry.path.str ≠ vendored.base ++ "/artifact.json"
  provenance : entry.path.str ≠ vendored.base ++ "/provenance.json"

def evidencePath (attestation : SecurityAttestation) : String :=
  "security/attestations/" ++ (attestationDigest attestation).value ++ ".json"

/-- What stands at a path stays, or a directory is made above the evidence. -/
def Stays (before after : List SnapshotEntry) (evidence path : String) : Prop :=
  entryAt after path = entryAt before path ∨
    entryAt before path = none ∧ pathOf path ∈ properAncestors (pathOf evidence) ∧
      entryAt after path = some (directoryAt (pathOf path))

/-- Only the version, the copy and the evidence are new. -/
structure RevendorsOnly (before after : List SnapshotEntry) (vendored : VendoredArtifactOrigin) (taken : TakenSubtree)
    (version : SemVer) (assessment : Option SecurityAssessment) : Prop where
  manifest : ∃ entry, entryAt after (vendored.base ++ "/artifact.json") = some entry ∧ entry.kind = .file ∧
    parseArtifactManifest entry.content = .ok { vendored.manifest with version := version }
  kept : ∀ entry ∈ before, BesideCopy vendored entry → entryAt after entry.path.str = some entry
  copied : HoldsCopy (byPath after) vendored.base vendored.manifest.payload.root vendored.authored taken
  outside : ∃ attestation, some attestation.assessment = assessment ∧
    entryAt after (evidencePath attestation) =
      some ⟨pathOf (evidencePath attestation), .file, attestationBytes attestation, false⟩ ∧
    ∀ path, startsWith (vendored.base ++ "/") path = false → path ≠ evidencePath attestation →
      Stays before after (evidencePath attestation) path

/-- Every file of the package is copied, derived or recorded as authored. -/
def AllRecorded (entries : List SnapshotEntry) (vendored : VendoredArtifactOrigin) : Prop :=
  ∀ entry ∈ entries, BesideCopy vendored entry →
    ∃ relative ∈ vendored.authored, entry.path.str = vendored.base ++ "/" ++ relative

/-! ## What was planned -/

variable [LicenseText] [ScanRuntime]

/-- What a new version is planned from. -/
structure Revendors (snapshot : SourceSnapshot) (acquisition : NativeReferenceAcquisition) (vendored : VendoredArtifactOrigin)
    (taken : TakenSubtree) (version importerVersion : SemVer) (assessment : Option SecurityAssessment)
    (plan : RegistryWorkspacePlan) (package : VendoredPackage) (attestation : SecurityAttestation) : Prop where
  projects : revendoredPackage snapshot.entries acquisition vendored taken version importerVersion = .ok package
  readable : ∃ found, parseArtifactManifest (canonicalJsonBytes (artifactManifestToJson package.manifest)) = .ok found
  recorded : ∃ found, Native.parseProvenance (canonicalJsonBytes (Native.provenanceToJson package.provenance)) = .ok found
  assessed : some attestation.assessment = assessment
  planned : planWorkspace .revendor snapshot
    (package.files.map desiredFile ++ [⟨evidencePath attestation, attestationBytes attestation, false⟩])
    (some vendored.base) = .ok plan

variable {readSetup : SetupReader} {snapshot : SourceSnapshot} {acquisition : NativeReferenceAcquisition}
  {vendored : VendoredArtifactOrigin} {taken : TakenSubtree} {version importerVersion : SemVer} {review : ReviewRecord}
  {check : VendoredArtifactCheck} {plan : RegistryWorkspacePlan} {package : VendoredPackage} {entries : List SnapshotEntry}

omit [LicenseText] [ScanRuntime] in
theorem files_eq_ok (h : files snapshot = .ok entries) : entries = snapshot.entries := by
  unfold files at h
  split at h
  · exact absurd h (by simp [commandError, error])
  · exact (Except.ok.inj h).symm

omit [LicenseText] [ScanRuntime] in
/-- The members of a package are the entries that it was compiled from. -/
theorem members_of_packageEntries {known members : PackageEntries}
    (h : entries.foldlM Registry.packageEntry known = .ok members) :
    members = known ++ entries.map fun entry => (entry.path.str, entry) := by
  induction entries generalizing known with
  | nil =>
      obtain rfl := Except.ok.inj h
      exact (List.append_nil _).symm
  | cons entry rest ih =>
      rw [List.foldlM_cons] at h
      obtain ⟨next, hnext, h⟩ := Result.of_bind_ok h
      obtain ⟨_, _, hnext⟩ := Result.of_bind_ok hnext
      obtain ⟨_, _, hnext⟩ := Result.of_bind_ok hnext
      obtain ⟨_, _, hnext⟩ := Result.of_bind_ok hnext
      obtain ⟨_, _, hnext⟩ := Result.of_bind_ok hnext
      obtain rfl := Except.ok.inj hnext
      rw [ih h, List.append_assoc]
      rfl

omit [ScanRuntime] in
theorem base_of_projected {origin : Vendoring.VendorOrigin} {options : Vendoring.VendorOptions}
    {artifactRoot : SafeRelativePath}
    (h : Vendoring.projectVendoredPackage taken origin options artifactRoot importerVersion = .ok package) :
    package.base = artifactBase artifactRoot options.identity := by
  unfold Vendoring.projectVendoredPackage at h
  obtain ⟨_, _, h⟩ := Result.of_bind_ok h
  dsimp only at h
  split at h
  · exact absurd h (by simp [Vendoring.vendorError, error])
  obtain ⟨_, h⟩ := Result.of_check_ok h
  obtain rfl := Except.ok.inj h
  rfl

/-- What the package of a new version consists of. -/
structure Reprojected (files : List SnapshotEntry) (acquisition : NativeReferenceAcquisition) (vendored : VendoredArtifactOrigin)
    (taken : TakenSubtree) (version importerVersion : SemVer) (package : VendoredPackage) (authored : List PackageFile) :
    Prop where
  recorded : vendored.authored.mapM (authoredEntry files vendored.base) = .ok authored
  root : ∃ root, assertedPath ((splitChar '/' vendored.base).headD "") = .ok root ∧
    package.base = artifactBase root vendored.manifest.identity
  projected : Projected taken ⟨vendored.url, vendored.ref, acquisition.resolvedCommit⟩
    (revendorOptions vendored.manifest version authored) importerVersion package

omit [ScanRuntime] in
theorem reprojected_of_ok
    (h : revendoredPackage entries acquisition vendored taken version importerVersion = .ok package) :
    ∃ authored, Reprojected entries acquisition vendored taken version importerVersion package authored := by
  obtain ⟨authored, hauthored, h⟩ := Result.of_bind_ok h
  obtain ⟨root, hroot, h⟩ := Result.of_bind_ok h
  have hproject : Vendoring.projectVendoredPackage taken ⟨vendored.url, vendored.ref, acquisition.resolvedCommit⟩
    (revendorOptions vendored.manifest version authored) root importerVersion = .ok package := h
  have hbase := base_of_projected hproject
  exact ⟨authored, hauthored, ⟨root, hroot, hbase⟩, Vendoring.projected_of_ok hproject⟩

variable {authored : List PackageFile}

omit [ScanRuntime] in
/-- A file of the package stands below its directory. -/
theorem Reprojected.mem_files
    (h : Reprojected entries acquisition vendored taken version importerVersion package authored) {file : PackageFile} :
    file ∈ package.files ↔ ∃ source ∈ packageDocuments package ++ takenFiles taken ++ authored,
      file = Vendoring.below package.base source := by
  rw [h.projected.files.mem_iff, List.mem_map]
  exact exists_congr fun source => and_congr_right fun _ => eq_comm

omit [LicenseText] [ScanRuntime] in
/-- The manifest and the provenance among the files of a package. -/
def manifestFile (package : VendoredPackage) : PackageFile :=
  ⟨"artifact.json", canonicalJsonBytes (artifactManifestToJson package.manifest), false⟩

def provenanceFile (package : VendoredPackage) : PackageFile :=
  ⟨"provenance.json", canonicalJsonBytes (Native.provenanceToJson package.provenance), false⟩

omit [LicenseText] [ScanRuntime] in
theorem manifestFile_mem : manifestFile package ∈ packageDocuments package := List.mem_cons_self

omit [LicenseText] [ScanRuntime] in
theorem provenanceFile_mem : provenanceFile package ∈ packageDocuments package := List.mem_cons_of_mem _ List.mem_cons_self

omit [ScanRuntime] in
/-- A document of a package is written once. -/
theorem Reprojected.eq_document
    (h : Reprojected entries acquisition vendored taken version importerVersion package authored) {document source : PackageFile}
    (hdocument : document ∈ packageDocuments package)
    (hsource : source ∈ packageDocuments package ++ takenFiles taken ++ authored) (hpath : source.path = document.path) :
    source = document := by
  have hprojected : document.path ∈ Vendoring.projectedRoots := by
    simp only [packageDocuments, List.mem_cons, List.not_mem_nil, or_false] at hdocument
    rcases hdocument with rfl | rfl
    · simp [Vendoring.projectedRoots]
    · simp [Vendoring.projectedRoots]
  rcases List.mem_append.mp hsource with hsource | hauthored
  · rcases List.mem_append.mp hsource with hother | htaken
    · simp only [packageDocuments, List.mem_cons, List.not_mem_nil, or_false] at hdocument hother
      rcases hdocument with rfl | rfl <;> rcases hother with rfl | rfl
      · rfl
      · exact absurd hpath (by simp)
      · exact absurd hpath (by simp)
      · rfl
    · obtain ⟨entry, _, rfl⟩ := List.mem_map.mp htaken
      exact absurd hpath.symm (Vendoring.ne_payload hprojected)
  · rw [← hpath] at hprojected
    exact absurd hprojected (h.projected.beside.projected source hauthored)

omit [ScanRuntime] in
/-- A compiled package has the documents among its members. -/
theorem document_of_compiled {members : List SnapshotEntry} {table : PackageEntries}
    (h : Reprojected entries acquisition vendored taken version importerVersion package authored)
    (hmembers : package.files.mapM (Vendoring.packageEntry package.base) = .ok members)
    (htable : members.foldlM Registry.packageEntry [] = .ok table) (document : PackageFile)
    (hdocument : document ∈ packageDocuments package) :
    ∃ entry, table.lookup document.path = some entry ∧ entry.content = document.content := by
  have hform := members_of_packageEntries htable
  have hentry {source : PackageFile} {entry : SnapshotEntry}
      (hread : Vendoring.packageEntry package.base (Vendoring.below package.base source) = .ok entry) :
      entry.path.str = source.path ∧ entry.content = source.content := by
    have hrelative : removePrefix (package.base ++ "/") (package.base ++ "/" ++ source.path) = source.path :=
      append_left_text (Manifest.append_removePrefix (startsWith_iff.mpr ⟨source.path, rfl⟩))
    unfold Vendoring.packageEntry at hread
    dsimp only [Vendoring.below] at hread
    rw [hrelative] at hread
    split at hread
    · exact absurd hread (by simp [raised, error])
    rename_i path hpath
    obtain rfl := Except.ok.inj hread
    exact ⟨Native.textOf_relativePath _ _ hpath, rfl⟩
  have hlisted : document.path ∈ table.map Prod.fst := by
    have hfile : Vendoring.below package.base document ∈ package.files :=
      h.mem_files.mpr ⟨document, List.mem_append_left _ (List.mem_append_left _ hdocument), rfl⟩
    obtain ⟨entry, hmember, hread⟩ := Result.ok_of_mapM_ok hmembers hfile
    rw [hform, ← (hentry hread).1]
    simp only [List.nil_append, List.map_map, List.mem_map]
    exact ⟨entry, hmember, rfl⟩
  cases hlookup : table.lookup document.path with
  | none =>
      obtain ⟨item, hitem, hkey⟩ := List.mem_map.mp hlisted
      have hnone := List.lookup_eq_none_iff.mp hlookup item hitem
      simp [hkey] at hnone
  | some entry =>
      obtain ⟨before, after, hsplit, _⟩ := List.lookup_eq_some_iff.mp hlookup
      have hmember : (document.path, entry) ∈ table := by
        rw [hsplit]
        simp
      rw [hform, List.nil_append] at hmember
      obtain ⟨found, hfound, hsame⟩ := List.mem_map.mp hmember
      obtain ⟨hkey, rfl⟩ := Prod.mk.inj hsame
      obtain ⟨file, hfile, hread⟩ := (Vendoring.mem_of_mapM_ok hmembers).mp hfound
      obtain ⟨source, hsource, rfl⟩ := h.mem_files.mp hfile
      obtain ⟨hname, hcontent⟩ := hentry hread
      rw [← h.eq_document hdocument hsource (hname.symm.trans hkey)]
      exact ⟨found, rfl, hcontent⟩

omit [ScanRuntime] in
/-- The documents of a package that was compiled are read. -/
theorem readable_of_compiled {members : List SnapshotEntry}
    {compiled : Registry.NativeArtifactPackage}
    (h : Reprojected entries acquisition vendored taken version importerVersion package authored)
    (hmembers : package.files.mapM (Vendoring.packageEntry package.base) = .ok members)
    (hcompiled : Registry.compileNativePackage readSetup members (some package.manifest.identity) = .ok compiled) :
    (∃ found, parseArtifactManifest (canonicalJsonBytes (artifactManifestToJson package.manifest)) = .ok found) ∧
      ∃ found, Native.parseProvenance (canonicalJsonBytes (Native.provenanceToJson package.provenance)) = .ok found := by
  obtain ⟨table, htable, hcompiled⟩ := Result.of_bind_ok hcompiled
  obtain ⟨manifest, hmanifest, hcompiled⟩ := Result.of_bind_ok hcompiled
  obtain ⟨_, _, hcompiled⟩ := Result.of_bind_ok hcompiled
  obtain ⟨_, _, hcompiled⟩ := Result.of_bind_ok hcompiled
  obtain ⟨_, _, hcompiled⟩ := Result.of_bind_ok hcompiled
  obtain ⟨_, _, hcompiled⟩ := Result.of_bind_ok hcompiled
  obtain ⟨provenance, hprovenance, _⟩ := Result.of_bind_ok hcompiled
  obtain ⟨entry, hentry, hcontent⟩ := document_of_compiled h hmembers htable (manifestFile package) manifestFile_mem
  obtain ⟨record, hrecord, hwritten⟩ := document_of_compiled h hmembers htable (provenanceFile package) provenanceFile_mem
  constructor
  · unfold Registry.packageManifest at hmanifest
    rw [show table.lookup "artifact.json" = some entry from hentry] at hmanifest
    obtain ⟨_, hmanifest⟩ := Result.of_check_ok hmanifest
    rw [hcontent] at hmanifest
    exact ⟨manifest, hmanifest⟩
  · unfold Registry.packageProvenance at hprovenance
    rw [show table.lookup "provenance.json" = some record from hrecord] at hprovenance
    obtain ⟨_, hprovenance⟩ := Result.of_check_ok hprovenance
    obtain ⟨found, hfound, _⟩ := Result.of_map_ok hprovenance
    rw [hwritten] at hfound
    exact ⟨found, hfound⟩

omit [StandardLibrary] [LicenseText] [ScanRuntime] in
theorem value_of_checked {α : Type} {condition : Bool} {text : String} {value found : α}
    (h : checked condition text value = .ok found) : found = value := by
  unfold checked at h
  split at h
  · exact (Except.ok.inj h).symm
  · exact absurd h (by simp)

/-- A carried plan comes from a package that was projected and assessed. -/
theorem revendors_of_ok (htake : takeSubtree acquisition.snapshot vendored.path {} = .ok taken)
    (h : planArtifactRevendor readSetup snapshot acquisition vendored (some version) review importerVersion = .ok check)
    (hplan : check.plan = some plan) : ∃ package attestation,
      Revendors snapshot acquisition vendored taken version importerVersion check.assessment plan package attestation := by
  unfold planArtifactRevendor at h
  obtain ⟨_, h⟩ := Result.of_check_ok h
  obtain ⟨_, h⟩ := Result.of_check_ok h
  obtain ⟨current, hcurrent, h⟩ := Result.of_bind_ok h
  obtain rfl := files_eq_ok hcurrent
  obtain ⟨integrity, _, h⟩ := Result.of_bind_ok h
  obtain ⟨_, h⟩ := Result.of_check_ok h
  obtain ⟨subtree, hsubtree, h⟩ := Result.of_bind_ok h
  obtain rfl := Except.ok.inj (htake.symm.trans hsubtree)
  split at h
  · rw [← Except.ok.inj h] at hplan
    exact absurd hplan (by simp)
  dsimp only at h
  obtain ⟨package, hpackage, h⟩ := Result.of_bind_ok h
  obtain ⟨⟨made, assessment⟩, hmade, h⟩ := Result.of_bind_ok h
  obtain rfl := Except.ok.inj h
  obtain rfl : made = plan := Option.some.inj hplan
  obtain ⟨source, _, hmade⟩ := Result.of_bind_ok hmade
  obtain ⟨assessed, hassessed, hmade⟩ := Result.of_bind_ok hmade
  obtain ⟨found, hfound, hmade⟩ := Result.of_bind_ok hmade
  obtain ⟨rfl, rfl⟩ := Prod.mk.inj (Except.ok.inj hmade)
  obtain ⟨members, hmembers, hassessed⟩ := Result.of_bind_ok hassessed
  obtain ⟨candidate, _, hassessed⟩ := Result.of_bind_ok hassessed
  obtain ⟨compiled, hcompiled, hassessed⟩ := Result.of_bind_ok hassessed
  obtain ⟨assessment, _, hassessed⟩ := Result.of_bind_ok hassessed
  obtain ⟨authored, hreprojected⟩ := reprojected_of_ok hpackage
  split at hassessed
  · exact absurd hassessed (by simp [Vendoring.vendorError, error])
  rename_i attestation hattestation
  obtain rfl := Except.ok.inj hassessed
  obtain ⟨key, _, hattestation⟩ := Security.Raising.of_bind_ok hattestation
  obtain ⟨hreadable, hrecorded⟩ := readable_of_compiled hreprojected hmembers hcompiled
  refine ⟨package, attestation, hpackage, hreadable, hrecorded, ?_, hfound⟩
  unfold Security.securityAttestation at hattestation
  dsimp only at hattestation
  rw [value_of_checked hattestation]

end Frame

end AgentArtifacts.RegistryCommands
