import AgentArtifacts.RegistryCommands.Acquisitions
import AgentArtifacts.RegistryCommands.Reprojection

/-!
# What re-vendoring changes

A copy is projected anew over its directory, and what the projection does not name is
removed. The manifest is written from some of its parts, so what a maintainer has added to
the package is kept only where the projection knows of it.
-/

namespace AgentArtifacts.RegistryCommands

open Maintenance (NativeReferenceAcquisition)
open Native (ArtifactManifest parseArtifactManifest artifactManifestToJson)
open Registry (PackageEntries ReviewRecord entryAt entryAt_of_mem mem_of_entryAt sortedBy mem_sortedBy)
open Security (ScanRuntime SecurityAssessment SecurityAttestation SetupReader attestationBytes attestationDigest)
open Vendoring (HoldsCopy LicenseText PackageFile Projected ReadManifest Regenerable VendoredPackage isCopied
  packageDocuments packageEntries payloadLead takenFiles)

/-! ## The package and its directory -/

section Claims

variable [StandardLibrary] [LicenseText] {checkout : Checkout} {snapshot : SourceSnapshot} {identity : ArtifactIdentity}
  {acquisition : NativeReferenceAcquisition} {vendored : VendoredArtifactOrigin} {taken : TakenSubtree}
  {version importerVersion : SemVer} {package : VendoredPackage} {authored : List PackageFile}
  {attestation : SecurityAttestation} {entries : List SnapshotEntry}

/-- The files that re-vendoring wants. -/
abbrev wanted (package : VendoredPackage) (attestation : SecurityAttestation) : List DesiredFile :=
  package.files.map desiredFile ++ [⟨evidencePath attestation, attestationBytes attestation, false⟩]

/-- A vendored package that was read, and the manifest and the provenance in its directory. -/
structure ReadVendored (entries : List SnapshotEntry) (identity : ArtifactIdentity) (vendored : VendoredArtifactOrigin) :
    Prop where
  base : vendored.base = artifactBase packagesRoot identity
  manifest : ∃ entry, entryAt entries (vendored.base ++ "/artifact.json") = some entry ∧
    parseArtifactManifest entry.content = .ok vendored.manifest
  provenance : ∃ entry provenance record, entryAt entries (vendored.base ++ "/provenance.json") = some entry ∧
    Native.parseProvenance entry.content = .ok provenance ∧ Vendoring.readVendorRecord provenance = .ok record ∧
      vendored = ⟨vendored.base, provenance.origin.url, record.ref, provenance.origin.path, provenance.origin.resolvedCommit,
        provenance.origin.inputDigest, vendored.manifest, record.authored⟩

omit [LicenseText] in
theorem roots_of_sourceManifest {source : Native.SourceManifest} (h : sourceManifest entries = .ok source) :
    source.artifactRoots = [packagesRoot] := by
  unfold sourceManifest at h
  split at h
  · exact absurd h (by simp [commandError, error])
  obtain ⟨parsed, _, h⟩ := Result.of_bind_ok h
  obtain ⟨_, hroots, h⟩ := Result.of_bind_ok h
  obtain rfl := Except.ok.inj h
  have hchecked := Schema.refuse_eq_ok.mp hroots
  simp only [Bool.or_eq_false_iff, bne_eq_false_iff_eq] at hchecked
  exact hchecked.1

omit [LicenseText] in
theorem readVendored_of_ok (h : readVendoredArtifact snapshot identity = .ok vendored) :
    ReadVendored snapshot.entries identity vendored := by
  obtain ⟨current, hcurrent, h⟩ := Result.of_bind_ok h
  obtain rfl := files_eq_ok hcurrent
  obtain ⟨source, hsource, h⟩ := Result.of_bind_ok h
  rw [roots_of_sourceManifest hsource, List.headD_cons] at h
  dsimp only at h
  split at h
  · exact absurd h (by simp [commandError, error])
  rename_i entry hentry
  obtain ⟨manifest, hmanifest, h⟩ := Result.of_bind_ok h
  unfold readVendoredPackage at h
  split at h
  · exact absurd h (by simp [commandError, error])
  rename_i record hrecord
  obtain ⟨provenance, hprovenance, h⟩ := Result.of_bind_ok h
  obtain ⟨read, hread, h⟩ := Result.of_bind_ok h
  obtain rfl := Except.ok.inj h
  exact ⟨rfl, ⟨entry, hentry, hmanifest⟩, record, provenance, read, hrecord, hprovenance, hread, rfl⟩

/-- The package is projected below the root of the packages. -/
theorem Reprojected.base_eq
    (h : Reprojected entries acquisition vendored taken version importerVersion package authored)
    (hbase : vendored.base = artifactBase packagesRoot identity) :
    package.base = artifactBase packagesRoot vendored.manifest.identity := by
  obtain ⟨root, hroot, hpackage⟩ := h.root
  have hparts : splitChar '/' (artifactBase packagesRoot identity) =
      ["artifacts", identity.kind.value, identity.name.value] := by
    rw [artifactBase_eq]
    refine Manifest.splitChar_slashJoin ?_ (by simp)
    simp only [List.forall_mem_cons]
    exact ⟨by decide, identity.kind.slash_not_mem, identity.name.slash_not_mem, by simp⟩
  rw [hbase, hparts, List.headD_cons] at hroot
  unfold assertedPath at hroot
  split at hroot
  · exact absurd hroot (by simp [raised, error])
  rename_i path hpath
  obtain rfl := Except.ok.inj hroot
  rw [hpackage, parseRelativePath_parts hpath]
  rfl

/-- What is wanted at a path of a package comes from that package. -/
theorem Reprojected.source_of_wanted
    (h : Reprojected entries acquisition vendored taken version importerVersion package authored)
    (hbase : vendored.base = artifactBase packagesRoot identity) {file : DesiredFile} {tail : String}
    (hfile : file ∈ wanted package attestation) (hpath : file.path = vendored.base ++ "/" ++ tail) :
    vendored.manifest.identity = identity ∧ ∃ source ∈ packageDocuments package ++ takenFiles taken ++ authored,
      source.path = tail ∧ file = desiredFile (Vendoring.below package.base source) := by
  rcases List.mem_append.mp hfile with hfile | hfile
  · obtain ⟨found, hfound, rfl⟩ := List.mem_map.mp hfile
    obtain ⟨source, hsource, rfl⟩ := h.mem_files.mp hfound
    have hsame : artifactBase packagesRoot vendored.manifest.identity ++ "/" ++ source.path =
        artifactBase packagesRoot identity ++ "/" ++ tail := by
      rw [← h.base_eq hbase, ← hbase]
      exact hpath
    obtain ⟨hidentity, htail⟩ := below_package_inj hsame
    exact ⟨hidentity, source, hsource, htail, rfl⟩
  · obtain rfl := List.mem_singleton.mp hfile
    have houtside := evidence_outside identity ((attestationDigest attestation).value ++ ".json")
    rw [← hbase, ← String.append_assoc] at houtside
    have hinside : startsWith (vendored.base ++ "/") (evidencePath attestation) = true :=
      startsWith_iff.mpr ⟨tail, hpath⟩
    exact absurd (hinside.symm.trans houtside) (by simp)

theorem Reprojected.mem_wanted
    (h : Reprojected entries acquisition vendored taken version importerVersion package authored) {source : PackageFile}
    (hsource : source ∈ packageDocuments package ++ takenFiles taken ++ authored) :
    desiredFile (Vendoring.below package.base source) ∈ wanted package attestation :=
  List.mem_append_left _ (List.mem_map_of_mem (h.mem_files.mpr ⟨source, hsource, rfl⟩))

omit [LicenseText] [StandardLibrary] in
theorem authoredEntry_eq_ok {base relative : String} {file : PackageFile} (h : authoredEntry entries base relative = .ok file) :
    file.path = relative ∧ ∃ entry, entryAt entries (base ++ "/" ++ relative) = some entry ∧ entry.kind = .file ∧
      entry.content = file.content ∧ entry.executable = file.executable := by
  unfold authoredEntry at h
  split at h
  · exact absurd h (by simp [commandError, error])
  rename_i entry hentry
  obtain rfl := Except.ok.inj h
  obtain ⟨hfound, hfile⟩ := Option.filter_eq_some_iff.mp hentry
  exact ⟨rfl, entry, hfound, by simpa [SnapshotEntry.isFile] using hfile, rfl, rfl⟩

/-- What the record names as authored is carried over. -/
theorem Reprojected.mem_recorded
    (h : Reprojected entries acquisition vendored taken version importerVersion package authored) (relative : String) :
    relative ∈ vendored.authored ↔ relative ∈ authored.map PackageFile.path := by
  constructor
  · intro hrelative
    obtain ⟨file, hfile, hentry⟩ := Result.ok_of_mapM_ok h.recorded hrelative
    exact List.mem_map.mpr ⟨file, hfile, (authoredEntry_eq_ok hentry).1⟩
  · intro hrelative
    obtain ⟨file, hfile, rfl⟩ := List.mem_map.mp hrelative
    obtain ⟨recorded, hrecorded, hentry⟩ := (Vendoring.mem_of_mapM_ok h.recorded).mp hfile
    rw [(authoredEntry_eq_ok hentry).1]
    exact hrecorded

omit [LicenseText] [StandardLibrary] in
theorem slash_literal (base name : String) : base ++ "/" ++ name = base ++ ("/" ++ name) := String.append_assoc

omit [LicenseText] [StandardLibrary] in
theorem manifest_text (base : String) : base ++ "/artifact.json" = base ++ "/" ++ "artifact.json" :=
  (slash_literal base "artifact.json").symm

omit [LicenseText] [StandardLibrary] in
theorem provenance_text (base : String) : base ++ "/provenance.json" = base ++ "/" ++ "provenance.json" :=
  (slash_literal base "provenance.json").symm

/-- A wanted file that is not one of the two documents is copied or recorded as authored. -/
theorem Reprojected.recorded_of_wanted
    (h : Reprojected entries acquisition vendored taken version importerVersion package authored)
    (hroot : vendored.manifest.payload.root = ⟨[Vendoring.payloadRootName]⟩) {entry : SnapshotEntry} {source : PackageFile}
    (hsource : source ∈ packageDocuments package ++ takenFiles taken ++ authored)
    (hpath : entry.path.str = vendored.base ++ "/" ++ source.path) (hbeside : BesideCopy vendored entry) :
    source.path ∈ vendored.authored := by
  rcases List.mem_append.mp hsource with hsource | hauthored
  · rcases List.mem_append.mp hsource with hdocument | htaken
    · simp only [packageDocuments, List.mem_cons, List.not_mem_nil, or_false] at hdocument
      rcases hdocument with rfl | rfl
      · exact absurd (hpath.trans (slash_literal _ _)) hbeside.manifest
      · exact absurd (hpath.trans (slash_literal _ _)) hbeside.provenance
    · obtain ⟨found, _, rfl⟩ := List.mem_map.mp htaken
      have hlead : payloadLead vendored.base vendored.manifest.payload.root ++ found.path.str = entry.path.str := by
        rw [hpath, hroot]
        simp [payloadLead, Vendoring.takenPath, SafeRelativePath.str, slashJoin, String.append_assoc]
      have huncopied := hbeside.uncopied
      have hstarts : startsWith (payloadLead vendored.base vendored.manifest.payload.root) entry.path.str = true :=
        startsWith_iff.mpr ⟨_, hlead.symm⟩
      simp only [isCopied, hstarts, hbeside.file, Bool.true_and, beq_self_eq_true, Bool.and_true, Bool.not_eq_false',
        List.contains_iff_mem, Vendoring.excludedPaths, List.mem_map] at huncopied
      obtain ⟨relative, hrelative, hsame⟩ := huncopied
      rw [← append_left_text (hsame.trans hpath)]
      exact hrelative
  · exact (h.mem_recorded _).mpr (List.mem_map_of_mem hauthored)

/-- A copied file of the workspace that is left is one of the package. -/
theorem Reprojected.mem_byPath_iff
    (h : Reprojected entries acquisition vendored taken version importerVersion package authored)
    (hbase : vendored.base = artifactBase packagesRoot identity)
    (hdraft : Drafted checkout snapshot (wanted package attestation) (some vendored.base)) {item : String × SnapshotEntry}
    (hbelow : startsWith (vendored.base ++ "/") item.1 = true) (hkind : item.2.kind = .file) :
    item ∈ byPath (rewritten snapshot (wanted package attestation) vendored.base).entries ↔ item ∈ packageEntries package := by
  constructor
  · intro hitem
    obtain ⟨entry, hentry, rfl⟩ := List.mem_map.mp hitem
    obtain ⟨tail, htail⟩ := startsWith_iff.mp hbelow
    have hfound := entryAt_of_mem hdraft.distinct_after hentry
    obtain ⟨file, hfile, hpath, rfl⟩ := (hdraft.file_below_iff hbelow).mp ⟨hfound, hkind⟩
    obtain ⟨_, source, hsource, _, rfl⟩ := h.source_of_wanted hbase hfile (hpath.trans htail)
    exact List.mem_map.mpr ⟨Vendoring.below package.base source, h.mem_files.mpr ⟨source, hsource, rfl⟩,
      Prod.ext (str_pathOf _).symm rfl⟩
  · intro hitem
    obtain ⟨file, hfile, rfl⟩ := List.mem_map.mp hitem
    have hwanted : desiredFile file ∈ wanted package attestation := List.mem_append_left _ (List.mem_map_of_mem hfile)
    obtain ⟨hmem, hpath⟩ := mem_of_entryAt (hdraft.entryAt_desired hwanted)
    exact List.mem_map.mpr ⟨(desiredFile file).entry, hmem, Prod.ext hpath rfl⟩

/-- A document of the package stands in the workspace that is left. -/
theorem Reprojected.entryAt_document
    (h : Reprojected entries acquisition vendored taken version importerVersion package authored)
    (hpackage : package.base = vendored.base)
    (hdraft : Drafted checkout snapshot (wanted package attestation) (some vendored.base)) {document : PackageFile}
    (hdocument : document ∈ packageDocuments package) :
    entryAt (rewritten snapshot (wanted package attestation) vendored.base).entries (vendored.base ++ "/" ++ document.path) =
      some (desiredFile (Vendoring.below package.base document)).entry := by
  have hwanted : desiredFile (Vendoring.below package.base document) ∈ wanted package attestation :=
    h.mem_wanted (List.mem_append_left _ (List.mem_append_left _ hdocument))
  have hentry := hdraft.entryAt_desired hwanted
  rw [← hpackage]
  rw [← hpackage] at hentry
  exact hentry

/-- The copy in the workspace that is left is the subtree that was taken. -/
theorem Reprojected.holdsCopy_after
    (h : Reprojected entries acquisition vendored taken version importerVersion package authored)
    (hbase : vendored.base = artifactBase packagesRoot identity) (hidentity : vendored.manifest.identity = identity)
    (hroot : vendored.manifest.payload.root = ⟨[Vendoring.payloadRootName]⟩)
    (hdraft : Drafted checkout snapshot (wanted package attestation) (some vendored.base)) :
    HoldsCopy (byPath (rewritten snapshot (wanted package attestation) vendored.base).entries) vendored.base
      vendored.manifest.payload.root vendored.authored taken := by
  have hpackageBase : package.base = vendored.base := by
    rw [h.base_eq hbase, hidentity, hbase]
  have hpackage := Vendoring.holdsCopy_packageEntries h.projected h.mem_recorded
  rw [hpackageBase] at hpackage
  rw [hroot]
  have hsame (item : String × SnapshotEntry)
      (hcopy : isCopied vendored.base ⟨[Vendoring.payloadRootName]⟩ vendored.authored item = true) :
      item ∈ byPath (rewritten snapshot (wanted package attestation) vendored.base).entries ↔
        item ∈ packageEntries package := by
    simp only [isCopied, Bool.and_eq_true, beq_iff_eq] at hcopy
    obtain ⟨rest, hlead⟩ := startsWith_iff.mp hcopy.1.1
    refine h.mem_byPath_iff hbase hdraft ?_ hcopy.2
    refine startsWith_iff.mpr ⟨Vendoring.payloadRootName ++ "/" ++ rest, ?_⟩
    rw [hlead]
    simp [payloadLead, SafeRelativePath.str, slashJoin, String.append_assoc]
  intro path content executable
  rw [← hpackage path content executable]
  refine exists_congr fun item => ?_
  constructor
  · rintro ⟨hitem, hcopy, hrest⟩
    exact ⟨(hsame item hcopy).mp hitem, hcopy, hrest⟩
  · rintro ⟨hitem, hcopy, hrest⟩
    exact ⟨(hsame item hcopy).mpr hitem, hcopy, hrest⟩

omit [LicenseText] in
/-- A directory above a file of the package that is not in it stands in the workspace. -/
theorem directory_above_package (hclosed : Closed entries) {entry : SnapshotEntry}
    (hentry : entryAt entries (artifactBase packagesRoot identity ++ "/artifact.json") = some entry) {path tail : String}
    (hpath : pathOf path ∈ properAncestors (pathOf (artifactBase packagesRoot identity ++ "/" ++ tail)))
    (houtside : startsWith (artifactBase packagesRoot identity ++ "/") path = false) : entryAt entries path ≠ none := by
  obtain ⟨hmem, hname⟩ := mem_of_entryAt hentry
  obtain ⟨n, hpos, hn, hform⟩ := mem_properAncestors.mp hpath
  have hparts : (pathOf (artifactBase packagesRoot identity ++ "/" ++ tail)).parts =
      ["artifacts", identity.kind.value, identity.name.value] ++ splitChar '/' tail := splitChar_package identity tail
  rw [hparts] at hn hform
  have hcanonical := hclosed.hashable.paths entry hmem
  have hentryParts : entry.path.parts = ["artifacts", identity.kind.value, identity.name.value] ++ ["artifact.json"] := by
    rw [parseRelativePath_parts hcanonical, hname]
    have hliteral := splitChar_package identity "artifact.json"
    rw [String.append_assoc] at hliteral
    exact hliteral
  by_cases hshort : n ≤ 3
  · have habove : pathOf path ∈ properAncestors entry.path := by
      refine mem_properAncestors.mpr ⟨n, hpos, ?_, ?_⟩
      · rw [hentryParts]
        simp
        omega
      · rw [hform, hentryParts, List.take_append_of_le_length (by simpa using hshort),
          List.take_append_of_le_length (by simpa using hshort)]
    have hdirectory := hclosed.above entry hmem _ habove
    have hfound := entryAt_of_mem hclosed.hashable.distinct hdirectory
    rw [show (directoryAt (pathOf path)).path.str = path from str_pathOf path] at hfound
    rw [hfound]
    simp
  · exfalso
    have hrest : (splitChar '/' tail).take (n - 3) ≠ [] := by
      intro hnil
      have hlength := congrArg List.length hnil
      simp only [List.length_take, List.length_nil, List.length_append, List.length_cons] at hlength hn
      omega
    have htext : path = slashJoin (["artifacts", identity.kind.value, identity.name.value] ++ (splitChar '/' tail).take (n - 3)) := by
      have htake : (["artifacts", identity.kind.value, identity.name.value] ++ splitChar '/' tail).take n =
          ["artifacts", identity.kind.value, identity.name.value] ++ (splitChar '/' tail).take (n - 3) := by
        rw [List.take_append]
        simp only [List.length_cons, List.length_nil]
        rw [List.take_of_length_le (by simp; omega)]
      rw [← htake, ← str_pathOf path, hform]
      rfl
    rw [slashJoin_append (by simp) hrest, ← artifactBase_eq] at htext
    have hinside : startsWith (artifactBase packagesRoot identity ++ "/") path = true := startsWith_iff.mpr ⟨_, htext⟩
    exact absurd (hinside.symm.trans houtside) (by simp)

/-- Outside of the package only the evidence is new. -/
theorem Reprojected.stays_outside
    (h : Reprojected entries acquisition vendored taken version importerVersion package authored)
    (hread : ReadVendored snapshot.entries identity vendored) (hidentity : vendored.manifest.identity = identity)
    (hdraft : Drafted checkout snapshot (wanted package attestation) (some vendored.base)) {path : String}
    (houtside : startsWith (vendored.base ++ "/") path = false) (hevidence : path ≠ evidencePath attestation) :
    Stays snapshot.entries (rewritten snapshot (wanted package attestation) vendored.base).entries
      (evidencePath attestation) path := by
  have hpackage : package.base = vendored.base := by
    rw [h.base_eq hread.base, hidentity, hread.base]
  have hunwanted : ∀ file ∈ wanted package attestation, file.path ≠ path := by
    intro file hfile hpath
    rcases List.mem_append.mp hfile with hfile | hfile
    · obtain ⟨found, hfound, rfl⟩ := List.mem_map.mp hfile
      obtain ⟨source, _, rfl⟩ := h.mem_files.mp hfound
      have hinside : startsWith (vendored.base ++ "/") path = true :=
        startsWith_iff.mpr ⟨source.path, by rw [← hpath, ← hpackage]; rfl⟩
      exact absurd (hinside.symm.trans houtside) (by simp)
    · obtain rfl := List.mem_singleton.mp hfile
      exact hevidence hpath.symm
  rw [Stays, hdraft.entryAt_outside houtside hunwanted]
  cases hfound : entryAt snapshot.entries path with
  | some entry => exact Or.inl (Option.some_or ..)
  | none =>
      rw [Option.none_or]
      split
      · rename_i habove
        obtain ⟨file, hfile, habove⟩ := habove
        rcases List.mem_append.mp hfile with hfile | hfile
        · obtain ⟨found, hpackaged, rfl⟩ := List.mem_map.mp hfile
          obtain ⟨source, _, rfl⟩ := h.mem_files.mp hpackaged
          obtain ⟨entry, hentry, _⟩ := hread.manifest
          rw [hread.base] at hentry houtside
          have hbelow : (desiredFile (Vendoring.below package.base source)).path =
              artifactBase packagesRoot identity ++ "/" ++ source.path := by
            rw [← hread.base, ← hpackage]
            rfl
          rw [hbelow] at habove
          exact absurd hfound (directory_above_package hdraft.closed hentry habove houtside)
        · obtain rfl := List.mem_singleton.mp hfile
          exact Or.inr ⟨rfl, habove, rfl⟩
      · exact Or.inl rfl

/-- A plan that is carried, with the package that it was made of and the workspace that it leaves. -/
structure Revendored (checkout : Checkout) (snapshot : SourceSnapshot) (identity : ArtifactIdentity)
    (acquisition : NativeReferenceAcquisition) (vendored : VendoredArtifactOrigin) (taken : TakenSubtree)
    (version importerVersion : SemVer) (assessment : Option SecurityAssessment) (plan : RegistryWorkspacePlan)
    (package : VendoredPackage) (authored : List PackageFile) (attestation : SecurityAttestation) : Prop where
  copy : ReadVendored snapshot.entries identity vendored
  manifest : ReadManifest vendored.manifest
  projects : Reprojected snapshot.entries acquisition vendored taken version importerVersion package authored
  readable : ∃ found, parseArtifactManifest (canonicalJsonBytes (artifactManifestToJson package.manifest)) = .ok found
  recorded : ∃ found, Native.parseProvenance (canonicalJsonBytes (Native.provenanceToJson package.provenance)) = .ok found
  assessed : some attestation.assessment = assessment
  draft : Drafted checkout snapshot (wanted package attestation) (some vendored.base)
  separate : (made plan.changes).Pairwise Separate
  projected : projectRegistryWorkspacePlan snapshot plan = .ok (rewritten snapshot (wanted package attestation) vendored.base)

section Revendored

variable {assessment : Option SecurityAssessment} {plan : RegistryWorkspacePlan}
  (h : Revendored checkout snapshot identity acquisition vendored taken version importerVersion assessment plan package
    authored attestation)

include h

theorem Revendored.payloadRoot : vendored.manifest.payload.root = ⟨[Vendoring.payloadRootName]⟩ := by
  rw [h.manifest.payload]

theorem Revendored.base (hidentity : vendored.manifest.identity = identity) : package.base = vendored.base := by
  rw [h.projects.base_eq h.copy.base, hidentity, h.copy.base]

/-- The manifest that is written is read as it was meant. -/
theorem Revendored.eq_manifest [JsonRuntime] (hversion : parseSemver version.str = .ok version) {found : ArtifactManifest}
    (hfound : parseArtifactManifest (canonicalJsonBytes (artifactManifestToJson package.manifest)) = .ok found) :
    found = Vendoring.vendorManifest taken (revendorOptions vendored.manifest version authored) := by
  rw [h.projects.projected.manifest] at hfound
  exact Vendoring.vendorManifest_of_parse h.manifest hversion hfound

/-- A manifest that differs in its version only leaves nothing out. -/
theorem Revendored.regenerable_of_only [JsonRuntime] (hversion : parseSemver version.str = .ok version)
    (honly : RevendorsOnly snapshot.entries (rewritten snapshot (wanted package attestation) vendored.base).entries vendored
      taken version assessment) : vendored.manifest.identity = identity ∧ Regenerable vendored.manifest taken := by
  obtain ⟨entry, hentry, hkind, hagain⟩ := honly.manifest
  rw [manifest_text] at hentry
  obtain ⟨file, hfile, hpath, rfl⟩ := (h.draft.file_below_iff (startsWith_iff.mpr ⟨"artifact.json", rfl⟩)).mp ⟨hentry, hkind⟩
  obtain ⟨hidentity, source, hsource, hname, rfl⟩ := h.projects.source_of_wanted h.copy.base hfile hpath
  have hcontent : (desiredFile (Vendoring.below package.base source)).entry.content = source.content := rfl
  rw [hcontent, h.projects.eq_document manifestFile_mem hsource hname] at hagain
  exact ⟨hidentity, (Vendoring.vendorManifest_eq_iff h.manifest).mp (h.eq_manifest hversion hagain).symm⟩

/-- A file that is kept is recorded. -/
theorem Revendored.recorded_of_only
    (honly : RevendorsOnly snapshot.entries (rewritten snapshot (wanted package attestation) vendored.base).entries vendored
      taken version assessment) : AllRecorded snapshot.entries vendored := by
  intro entry hentry hbeside
  have hkept := honly.kept entry hentry hbeside
  obtain ⟨file, hfile, hsame, _⟩ := (h.draft.file_below_iff hbeside.below).mp ⟨hkept, hbeside.file⟩
  obtain ⟨tail, htail⟩ := startsWith_iff.mp hbeside.below
  obtain ⟨_, source, hsource, rfl, _⟩ := h.projects.source_of_wanted h.copy.base hfile (hsame.trans htail)
  exact ⟨source.path, h.projects.recorded_of_wanted h.payloadRoot hsource htail hbeside, htail⟩

/-- A recorded file is written as it stands. -/
theorem Revendored.entryAt_recorded (hidentity : vendored.manifest.identity = identity) {entry : SnapshotEntry}
    (hentry : entry ∈ snapshot.entries) {relative : String} (hrelative : relative ∈ vendored.authored)
    (hpath : entry.path.str = vendored.base ++ "/" ++ relative) :
    entryAt (rewritten snapshot (wanted package attestation) vendored.base).entries entry.path.str = some entry := by
  obtain ⟨file, hfile, hauthored⟩ := Result.ok_of_mapM_ok h.projects.recorded hrelative
  obtain ⟨rfl, known, hknown, hkind, hcontent, hexecutable⟩ := authoredEntry_eq_ok hauthored
  rw [← hpath] at hknown
  obtain rfl := Option.some.inj ((entryAt_of_mem h.draft.closed.hashable.distinct hentry).symm.trans hknown)
  have hwanted : desiredFile (Vendoring.below package.base file) ∈ wanted package attestation :=
    h.projects.mem_wanted (List.mem_append_right _ hfile)
  have hfound := h.draft.entryAt_desired hwanted
  have hname : (desiredFile (Vendoring.below package.base file)).path = entry.path.str := by
    rw [hpath, ← h.base hidentity]
    rfl
  rw [hname] at hfound
  refine hfound.trans (congrArg some ?_)
  have hform : (desiredFile (Vendoring.below package.base file)).entry =
      ⟨pathOf (desiredFile (Vendoring.below package.base file)).path, .file, file.content, file.executable⟩ := rfl
  rw [hform, hname, pathOf_str (h.draft.closed.hashable.paths entry hentry), ← hcontent, ← hexecutable, ← hkind]

theorem Revendored.only_of_regenerable [JsonRuntime] (hversion : parseSemver version.str = .ok version)
    (hidentity : vendored.manifest.identity = identity) (hregenerable : Regenerable vendored.manifest taken)
    (hrecorded : AllRecorded snapshot.entries vendored) :
    RevendorsOnly snapshot.entries (rewritten snapshot (wanted package attestation) vendored.base).entries vendored taken
      version assessment := by
  refine ⟨?_, fun entry hentry hbeside => ?_, h.projects.holdsCopy_after h.copy.base hidentity h.payloadRoot h.draft,
    attestation, h.assessed, ?_, fun path houtside hevidence =>
      h.projects.stays_outside h.copy hidentity h.draft houtside hevidence⟩
  · obtain ⟨found, hfound⟩ := h.readable
    have hentry := h.projects.entryAt_document (h.base hidentity) h.draft manifestFile_mem
    rw [show vendored.base ++ "/" ++ (manifestFile package).path = vendored.base ++ "/artifact.json" from
      (manifest_text vendored.base).symm] at hentry
    refine ⟨_, hentry, rfl, hfound.trans (congrArg Except.ok ?_)⟩
    exact (h.eq_manifest hversion hfound).trans ((Vendoring.vendorManifest_eq_iff h.manifest).mpr hregenerable)
  · obtain ⟨relative, hrelative, hpath⟩ := hrecorded entry hentry hbeside
    exact h.entryAt_recorded hidentity hentry hrelative hpath
  · exact h.draft.entryAt_desired (List.mem_append_right _ (List.mem_singleton.mpr rfl))

end Revendored

variable [ScanRuntime] {readSetup : SetupReader} {review : ReviewRecord} {check : VendoredArtifactCheck}
  {plan : RegistryWorkspacePlan}

theorem revendored_of_ok [JsonRuntime] (hsha : Sha256Length) (hsound : checkout.Sound)
    (hread : checkout.snapshot = .ok snapshot) (hvendored : readVendoredArtifact snapshot identity = .ok vendored)
    (htake : takeSubtree acquisition.snapshot vendored.path {} = .ok taken)
    (h : planArtifactRevendor readSetup snapshot acquisition vendored (some version) review importerVersion = .ok check)
    (hplan : check.plan = some plan) : ∃ package authored attestation,
      Revendored checkout snapshot identity acquisition vendored taken version importerVersion check.assessment plan package
        authored attestation := by
  obtain ⟨package, attestation, hrevendors⟩ := revendors_of_ok htake h hplan
  obtain ⟨authored, hprojects⟩ := reprojected_of_ok hrevendors.projects
  obtain ⟨hdraft, hseparate, hprojected⟩ := drafted_of_planned hsha hsound hread hrevendors.planned
  have hcopy := readVendored_of_ok hvendored
  obtain ⟨marker, _, hparsed⟩ := hcopy.manifest
  exact ⟨package, authored, attestation, hcopy, Vendoring.readManifest_of_parse hparsed, hprojects, hrevendors.readable,
    hrevendors.recorded, hrevendors.assessed, hdraft, hseparate, hprojected⟩

/-- A new version changes the version, the copy and the evidence only, exactly where nothing of the
manifest is left out and every other file of the package is recorded as authored. -/
theorem planArtifactRevendor_revendorsOnly [JsonRuntime] (hsha : Sha256Length) (hsound : checkout.Sound)
    (hread : checkout.snapshot = .ok snapshot) (hvendored : readVendoredArtifact snapshot identity = .ok vendored)
    (htake : takeSubtree acquisition.snapshot vendored.path {} = .ok taken) (hversion : parseSemver version.str = .ok version)
    (h : planArtifactRevendor readSetup snapshot acquisition vendored (some version) review importerVersion = .ok check)
    (hplan : check.plan = some plan) :
    (∃ projected, projectRegistryWorkspacePlan snapshot plan = .ok projected ∧
      RevendorsOnly snapshot.entries projected.entries vendored taken version check.assessment) ↔
    vendored.manifest.identity = identity ∧ Regenerable vendored.manifest taken ∧ AllRecorded snapshot.entries vendored := by
  obtain ⟨package, authored, attestation, hrevendored⟩ := revendored_of_ok hsha hsound hread hvendored htake h hplan
  constructor
  · rintro ⟨projected, hok, honly⟩
    obtain rfl := Except.ok.inj (hrevendored.projected.symm.trans hok)
    obtain ⟨hidentity, hregenerable⟩ := hrevendored.regenerable_of_only hversion honly
    exact ⟨hidentity, hregenerable, hrevendored.recorded_of_only honly⟩
  · rintro ⟨hidentity, hregenerable, hrecorded⟩
    exact ⟨_, hrevendored.projected, hrevendored.only_of_regenerable hversion hidentity hregenerable hrecorded⟩

end Claims

/-! ## A skill in its ninth version -/

/-- A digest that tells only whether a nine is read. -/
def nineSha (data : Bytes) : Bytes := List.replicate 32 (if data.contains 57 then 57 else 0)

@[reducible] def nineLibrary : StandardLibrary := pythonLibrary nineSha fun _ => true

def nineDigest : ObjectDigest := ⟨String.ofList (Framing.hexChars (List.replicate 32 57))⟩

section Samples

attribute [local instance] nineLibrary

local instance nineRuntime : JsonRuntime := pythonLibrary_jsonRuntime nineSha fun _ => true

theorem nineLibrary_sha256Length : Sha256Length := fun _ => List.length_replicate

theorem sha256Bytes_plain {data : Bytes} (h : 57 ∉ data) : sha256Bytes data = noDigest := by
  have hcontains : data.contains 57 = false := by
    simpa using h
  show (⟨String.ofList (Framing.hexChars (nineSha data))⟩ : ObjectDigest) = noDigest
  rw [nineSha, hcontains]
  rfl

theorem canonicalJsonBytes_chars {value : Json} (h : Frozen value) :
    canonicalJsonBytes value = (JsonText.print JsonText.compact 0 value ++ ['\n']).flatMap String.utf8EncodeChar := by
  rw [canonicalJsonBytes_eq h, encodeUtf8_ofList]

/-! ### Its documents -/

def firstVersion : SemVer := ⟨1, 0, 0, [], []⟩

def ninthVersion : SemVer := ⟨9, 0, 0, [], []⟩

def skillAt (version : SemVer) : ArtifactManifest := { skillManifest skillT with version := version }

def manifestBytes (version : SemVer) : Bytes := canonicalJsonBytes (artifactManifestToJson (skillAt version))

def plainCommit : String := String.ofList (List.replicate 40 '0')

def originOf (digest : ObjectDigest) : Native.Provenance where
  schemaVersion := 1
  origin := ⟨"git", "https://h/s.git", plainCommit, ⟨["s"]⟩, digest⟩
  importer := ⟨Vendoring.vendorImporterId, firstVersion, noDigest⟩
  warnings := []
  extensions := [(Vendoring.vendorRecordKey, Vendoring.recordJson ⟨"main", []⟩)]

def provenanceBytes (digest : ObjectDigest) : Bytes := canonicalJsonBytes (Native.provenanceToJson (originOf digest))

variable {version : SemVer} {digest : ObjectDigest}

theorem documentable_manifest (hversion : version = firstVersion ∨ version = ninthVersion) :
    Documentable 0 (artifactManifestToJson (skillAt version)) := by
  have hform : artifactManifestToJson (skillAt version) =
      .obj [("compatibility", .obj [("platforms", .arr [.str "linux"]), ("profiles", .arr [.str "claude"])]),
        ("install", .obj [("effects", .arr [.str "copy-tree"]), ("modes", .arr [.str "copy"]),
          ("scopes", .arr [.str "project"])]),
        ("name", .str "t"), ("payload", .obj [("format", .str "aart-skill-v1"), ("root", .str "payload")]),
        ("schema_version", .int 1), ("summary", .str "T"), ("type", .str "skill"), ("version", .str version.str)] := by
    obtain rfl | rfl := hversion <;> rfl
  rw [hform]
  refine ⟨?_, ?_, ?_, ?_⟩
  · simp only [Frozen, FrozenEntries, FrozenItems, List.map_cons, List.map_nil]
    decide
  · simp only [JsonText.Legible, JsonText.LegibleEntries, JsonText.LegibleItems, JsonText.InRange, List.map_cons, List.map_nil]
    decide
  · simp only [TextsWithin, TextsWithinEntries, TextsWithinItems]
    obtain rfl | rfl := hversion <;> decide
  · simp only [height, heightEntries, heightItems]
    decide

theorem manifest_read (hversion : version = firstVersion ∨ version = ninthVersion) :
    parseArtifactManifest (manifestBytes version) = .ok (skillAt version) := by
  rw [parseArtifactManifest, manifestBytes, parseJson_canonicalJsonBytes_iff.mpr (documentable_manifest hversion)]
  obtain rfl | rfl := hversion <;> rfl

def unlicensedSubtree : TakenSubtree :=
  ⟨⟨["s"]⟩, SourceSnapshot.of .local [⟨⟨["SKILL.md"]⟩, .file, [84], false⟩], noDigest, 1, 1⟩

theorem revendoredManifest_read_skill :
    @Vendoring.Regenerable Vendoring.asciiLicense (skillAt firstVersion) unlicensedSubtree := by
  have hsame : @Vendoring.vendorManifest Vendoring.asciiLicense unlicensedSubtree
      (revendorOptions (skillAt firstVersion) ninthVersion []) = skillAt ninthVersion := by
    have hlicense : (@Vendoring.discoverLicense Vendoring.asciiLicense unlicensedSubtree).identifier = none := by
      decide +kernel
    unfold Vendoring.vendorManifest
    rw [hlicense]
    rfl
  refine (@Vendoring.revendoredManifest_read_iff _ Vendoring.asciiLicense (skillAt firstVersion) _ ninthVersion [] _
    (manifestBytes firstVersion) _ (manifest_read (.inl rfl)) rfl ?_).mp (rfl : skillAt ninthVersion = _)
  rw [hsame]
  exact manifest_read (.inr rfl)

theorem provenanceToJson_form : Native.provenanceToJson (originOf digest) =
    .obj [("aart.vendor", .obj [("authored", .arr []), ("ref", .str "main")]),
      ("importer", .obj [("id", .str "registry-vendor-v1"), ("options_digest", .str noDigest.str), ("version", .str "1.0.0")]),
      ("origin", .obj [("input_digest", .str digest.str), ("kind", .str "git"), ("path", .str "s"),
        ("resolved_commit", .str plainCommit), ("url", .str "https://h/s.git")]),
      ("schema_version", .int 1), ("warnings", .arr [])] := by
  have hversion : firstVersion.str = "1.0.0" := by rfl
  simp [originOf, Native.provenanceToJson, Native.provenanceTable, Native.originTable, Native.importerTable,
    Schema.documentJson, Manifest.jsonObject, Manifest.present, sortEntries, Vendoring.recordJson, Vendoring.vendorRecordKey,
    Vendoring.vendorImporterId, SafeRelativePath.str, slashJoin, Schema.stringArray, hversion]

theorem documentable_provenance (hdigest : digest = noDigest ∨ digest = nineDigest) :
    Documentable 0 (Native.provenanceToJson (originOf digest)) := by
  rw [provenanceToJson_form]
  refine ⟨?_, ?_, ?_, ?_⟩
  · simp only [Frozen, FrozenEntries, FrozenItems, List.map_cons, List.map_nil]
    decide
  · simp only [JsonText.Legible, JsonText.LegibleEntries, JsonText.LegibleItems, JsonText.InRange, List.map_cons, List.map_nil]
    decide
  · simp only [TextsWithin, TextsWithinEntries, TextsWithinItems]
    obtain rfl | rfl := hdigest <;> decide
  · simp only [height, heightEntries, heightItems]
    decide

theorem provenance_read (hdigest : digest = noDigest ∨ digest = nineDigest) :
    Native.parseProvenance (provenanceBytes digest) = .ok (originOf digest) := by
  rw [Native.parseProvenance, provenanceBytes, parseJson_canonicalJsonBytes_iff.mpr (documentable_provenance hdigest)]
  obtain rfl | rfl := hdigest <;> rfl

theorem options_plain : Vendoring.vendorOptionsDigest "https://h/s.git" "main" ⟨["s"]⟩ = noDigest := by
  have hfrozen : Frozen (.obj [("path", .str "s"), ("ref", .str "main"), ("url", .str "https://h/s.git")]) := by
    simp only [Frozen, FrozenEntries]
    decide
  refine sha256Bytes_plain ?_
  rw [show (⟨["s"]⟩ : SafeRelativePath).str = "s" from rfl, canonicalJsonBytes_chars hfrozen]
  decide +kernel

theorem record_read : Vendoring.readVendorRecord (originOf digest) = .ok ⟨"main", []⟩ :=
  Vendoring.readVendorRecord_of_carries ⟨rfl, rfl, options_plain.symm⟩ (by decide) (by simp)

/-! ### Its registry -/

def skillBase : String := "artifacts/skill/t"

def skillReadme : SnapshotEntry := ⟨⟨["artifacts", "skill", "t", "README.md"]⟩, .file, [82], false⟩

/-- A registry that vendors a skill, with or without a file that the record does not name. -/
def skillRegistry (readme : Bool) : List SnapshotEntry :=
  [directoryAt ⟨["artifacts"]⟩, directoryAt ⟨["artifacts", "skill"]⟩, directoryAt ⟨["artifacts", "skill", "t"]⟩,
    directoryAt ⟨["artifacts", "skill", "t", "payload"]⟩, skillsMarker,
    ⟨⟨["artifacts", "skill", "t", "artifact.json"]⟩, .file, manifestBytes firstVersion, false⟩,
    ⟨⟨["artifacts", "skill", "t", "payload", "SKILL.md"]⟩, .file, [84], false⟩,
    ⟨⟨["artifacts", "skill", "t", "provenance.json"]⟩, .file, provenanceBytes noDigest, false⟩] ++
    if readme then [skillReadme] else []

def skillCheckout (readme : Bool) : Checkout := ⟨skillRegistry readme, []⟩

def skillSnapshot (readme : Bool) : SourceSnapshot := SourceSnapshot.of .local (skillRegistry readme)

theorem skillCheckout_sound (readme : Bool) : (skillCheckout readme).Sound where
  named := by cases readme <;> decide
  distinct := by cases readme <;> decide
  closed := by cases readme <;> decide
  bare := by cases readme <;> decide

theorem length_documents : (canonicalJsonBytes skillsJson).length ≤ 4000 ∧ (manifestBytes firstVersion).length ≤ 4000 ∧
    (manifestBytes ninthVersion).length ≤ 4000 ∧ (provenanceBytes noDigest).length ≤ 4000 ∧
      (provenanceBytes nineDigest).length ≤ 4000 := by
  have hlength {value : Json} (hfrozen : Frozen value) (hprinted : (JsonText.print JsonText.compact 0 value).length ≤ 999) :
      (canonicalJsonBytes value).length ≤ 4000 := by
    rw [canonicalJsonBytes_eq hfrozen]
    refine (length_encodeUtf8_le _).trans ?_
    rw [List.length_append, List.length_singleton]
    omega
  refine ⟨hlength ?_ (by decide +kernel), hlength (documentable_manifest (.inl rfl)).frozen (by decide +kernel),
    hlength (documentable_manifest (.inr rfl)).frozen (by decide +kernel),
    hlength (documentable_provenance (.inl rfl)).frozen (by decide +kernel),
    hlength (documentable_provenance (.inr rfl)).frozen (by decide +kernel)⟩
  simp only [skillsJson, Frozen, FrozenEntries, FrozenItems]
  decide

theorem skillCheckout_walked (readme : Bool) :
    SourceSnapshot.of .local (skillCheckout readme).walked = skillSnapshot readme := by
  cases readme <;> rfl

/-- A small entry that can be hashed. -/
structure SmallEntry (entry : SnapshotEntry) : Prop where
  path : Canonical entry.path
  hashable : entry.Hashable
  text : entry.path.str.length ≤ 100
  content : entry.content.length ≤ 4000

theorem smallDirectory {path : SafeRelativePath} (hpath : Canonical path) (htext : path.str.length ≤ 100) :
    SmallEntry (directoryAt path) := ⟨hpath, ⟨rfl, rfl⟩, htext, by simp [directoryAt]⟩

theorem smallFile {path : SafeRelativePath} {content : Bytes} (hpath : Canonical path) (htext : path.str.length ≤ 100)
    (hcontent : content.length ≤ 4000) : SmallEntry ⟨path, .file, content, false⟩ := ⟨hpath, trivial, htext, hcontent⟩

theorem SmallEntry.kind {entry : SnapshotEntry} (h : SmallEntry entry) : entry.kind = .directory ∨ entry.kind = .file := by
  have hhashable := h.hashable
  unfold SnapshotEntry.Hashable at hhashable
  cases hkind : entry.kind with
  | directory => exact .inl rfl
  | file => exact .inr rfl
  | symlink => rw [hkind] at hhashable; exact hhashable.elim
  | special => rw [hkind] at hhashable; exact hhashable.elim

theorem skillRegistry_small {readme : Bool} : ∀ entry ∈ skillRegistry readme, SmallEntry entry := by
  obtain ⟨hmarker, hmanifest, _, hprovenance, _⟩ := length_documents
  have hall : ∀ entry ∈ skillRegistry false, SmallEntry entry := by
    simp only [skillRegistry, skillsMarker, Bool.false_eq_true, if_false, List.append_nil, List.forall_mem_cons]
    exact ⟨smallDirectory rfl (by decide), smallDirectory rfl (by decide), smallDirectory rfl (by decide),
      smallDirectory rfl (by decide), smallFile rfl (by decide) hmarker, smallFile rfl (by decide) hmanifest,
      smallFile rfl (by decide) (by decide), smallFile rfl (by decide) hprovenance, by simp⟩
  intro entry hentry
  cases readme with
  | false => exact hall entry hentry
  | true =>
      rcases List.mem_append.mp hentry with hknown | hreadme
      · exact hall entry (List.mem_append_left _ hknown)
      · obtain rfl := List.mem_singleton.mp hreadme
        exact smallFile rfl (by decide) (by decide)

theorem skillCheckout_snapshot (readme : Bool) : (skillCheckout readme).snapshot = .ok (skillSnapshot readme) := by
  have hmem {entry : SnapshotEntry} (h : entry ∈ (skillCheckout readme).walked) : SmallEntry entry :=
    skillRegistry_small entry (Checkout.mem_walked.mp h).1
  have hsizes (entries : List SnapshotEntry) (h : ∀ entry ∈ entries, SmallEntry entry) :
      contentBytes entries ≤ 4000 * entries.length := by
    induction entries with
    | nil => rfl
    | cons entry rest ih =>
        have hfirst := (h entry List.mem_cons_self).content
        have hrest := ih fun other hother => h other (List.mem_cons_of_mem _ hother)
        unfold contentBytes at hrest ⊢
        rw [List.map_cons, List.sum_cons, List.length_cons]
        omega
  have hlength : (skillCheckout readme).walked.length ≤ 9 := by
    cases readme <;> decide
  refine (skillCheckout_sound readme).snapshot_eq_ok.mpr ⟨fun entry hentry => ?_, withinBounds_of_total ?_ ?_,
    (skillCheckout_walked readme).symm⟩
  · have hsmall := hmem hentry
    exact ⟨hsmall.kind, hsmall.path, hsmall.content.trans (by decide)⟩
  · have hbytes := hsizes _ fun entry => hmem
    unfold maxTotalBytes
    omega
  · unfold maxEntries
    omega

theorem skillSnapshot_hashable (readme : Bool) : HashableEntries (skillSnapshot readme).entries := by
  have hperm : (skillSnapshot readme).entries.Perm (skillRegistry readme) := perm_sortByPath _
  refine ⟨fun entry hentry => (skillRegistry_small entry (hperm.mem_iff.mp hentry)).path, ?_,
    fun entry hentry => (skillRegistry_small entry (hperm.mem_iff.mp hentry)).hashable⟩
  exact (hperm.map _).nodup_iff.mpr (skillCheckout_sound readme).distinct

def skillVendored : VendoredArtifactOrigin where
  base := skillBase
  url := "https://h/s.git"
  ref := "main"
  path := ⟨["s"]⟩
  recordedCommit := plainCommit
  inputDigest := noDigest
  manifest := skillAt firstVersion
  authored := []

def skillSorted (readme : Bool) : List SnapshotEntry :=
  [skillsMarker, directoryAt ⟨["artifacts"]⟩, directoryAt ⟨["artifacts", "skill"]⟩, directoryAt ⟨["artifacts", "skill", "t"]⟩] ++
    (if readme then [skillReadme] else []) ++
    [⟨⟨["artifacts", "skill", "t", "artifact.json"]⟩, .file, manifestBytes firstVersion, false⟩,
      directoryAt ⟨["artifacts", "skill", "t", "payload"]⟩,
      ⟨⟨["artifacts", "skill", "t", "payload", "SKILL.md"]⟩, .file, [84], false⟩,
      ⟨⟨["artifacts", "skill", "t", "provenance.json"]⟩, .file, provenanceBytes noDigest, false⟩]

theorem skillSnapshot_entries (readme : Bool) : (skillSnapshot readme).entries = skillSorted readme := by
  cases readme <;> rfl

theorem skillVendored_verified (readme : Bool) :
    skillVendored.verify (skillSnapshot readme).entries = .ok ⟨noDigest, noDigest, 1⟩ := by
  rw [skillSnapshot_entries]
  cases readme <;> rfl

def skillUpstream : SourceSnapshot :=
  .of .immutableGit [directoryAt ⟨["s"]⟩, ⟨⟨["s", "SKILL.md"]⟩, .file, [57], false⟩]

theorem skillUpstream_taken : ∃ taken, takeSubtree skillUpstream ⟨["s"]⟩ {} = .ok taken ∧
    taken.snapshot.entries = [⟨⟨["SKILL.md"]⟩, .file, [57], false⟩] ∧ taken.inputDigest = nineDigest := by
  have htaken : (takeSubtree skillUpstream ⟨["s"]⟩ {}).map (fun taken => (taken.snapshot.entries, taken.inputDigest)) =
      .ok ([⟨⟨["SKILL.md"]⟩, .file, [57], false⟩], nineDigest) := by rfl
  obtain ⟨taken, htake, hparts⟩ := Result.of_map_ok htaken
  obtain ⟨hentries, hdigest⟩ := Prod.mk.inj hparts
  exact ⟨taken, htake, hentries.symm, hdigest.symm⟩

theorem skillsSource_known : Native.parseSourceManifest (canonicalJsonBytes skillsJson) = .ok skillsSource := by
  rw [Native.parseSourceManifest, parseJson_canonicalJsonBytes_iff.mpr documentable_skillsJson]
  rfl

theorem skillSnapshot_digest (readme : Bool) : ∃ digest, sourceSnapshotDigest (skillSnapshot readme) = .ok digest := by
  refine exists_snapshotDigest nineLibrary_sha256Length (skillSnapshot_hashable readme) fun entry hentry => ?_
  have hsmall := skillRegistry_small entry ((perm_sortByPath _).mem_iff.mp hentry)
  exact ⟨hsmall.text.trans_lt (by decide), hsmall.content.trans_lt (by decide)⟩

theorem entryAt_registry (readme : Bool) (entry : SnapshotEntry) (h : entry ∈ skillRegistry readme) :
    entryAt (skillSnapshot readme).entries entry.path.str = some entry :=
  entryAt_of_mem (skillSnapshot_hashable readme).distinct ((perm_sortByPath _).mem_iff.mpr h)

theorem skillSnapshot_source (readme : Bool) : sourceManifest (skillSnapshot readme).entries = .ok skillsSource :=
  sourceManifest_of_parts (entryAt_registry readme skillsMarker (by simp [skillRegistry])) rfl skillsSource_known rfl
    (.inl rfl)

def manifestEntry : SnapshotEntry :=
  ⟨⟨["artifacts", "skill", "t", "artifact.json"]⟩, .file, manifestBytes firstVersion, false⟩

def provenanceEntry : SnapshotEntry :=
  ⟨⟨["artifacts", "skill", "t", "provenance.json"]⟩, .file, provenanceBytes noDigest, false⟩

theorem entryAt_manifest (readme : Bool) :
    entryAt (skillSnapshot readme).entries (skillBase ++ "/artifact.json") = some manifestEntry :=
  entryAt_registry readme manifestEntry (by simp [skillRegistry, manifestEntry])

theorem entryAt_provenance (readme : Bool) :
    entryAt (skillSnapshot readme).entries (skillBase ++ "/provenance.json") = some provenanceEntry :=
  entryAt_registry readme provenanceEntry (by simp [skillRegistry, provenanceEntry])

theorem skillBase_eq : artifactBase (skillsSource.artifactRoots.headD ⟨[]⟩) ⟨.skill, skillT⟩ = skillBase := by rfl

theorem skillVendored_read (readme : Bool) : readVendoredArtifact (skillSnapshot readme) ⟨.skill, skillT⟩ = .ok skillVendored := by
  obtain ⟨digest, hdigest⟩ := skillSnapshot_digest readme
  have hfiles : files (skillSnapshot readme) = .ok (skillSnapshot readme).entries := by
    unfold files
    rw [hdigest]
  have hmanifest : parseArtifactManifest manifestEntry.content = .ok (skillAt firstVersion) := manifest_read (.inl rfl)
  have hprovenance : Native.parseProvenance provenanceEntry.content = .ok (originOf noDigest) := provenance_read (.inl rfl)
  have hpackage : readVendoredPackage (skillSnapshot readme).entries skillBase (skillAt firstVersion) = .ok skillVendored :=
    readVendoredPackage_of_parts (entryAt_provenance readme) hprovenance record_read
  exact readVendoredArtifact_of_parts hfiles (skillSnapshot_source readme) skillBase_eq (entryAt_manifest readme) hmanifest
    hpackage

def skillAcquisition : NativeReferenceAcquisition where
  url := "https://h/s.git"
  requestedRef := "main"
  resolvedCommit := plainCommit
  snapshot := skillUpstream
  urlLine := Eq.refl true
  refLine := Eq.refl true
  commit := Eq.refl true
  pinned := by rfl

end Samples
end AgentArtifacts.RegistryCommands
