import AgentArtifacts.Vendoring.Evidence
import AgentArtifacts.Vendoring.Projection
import AgentArtifacts.Vendoring.Record

/-!
# A projected package verifies

Projection lets no authored file shadow a taken one, so the files of a package less the
authored ones are the taken files, and the record that the provenance carries is read back.
-/

namespace AgentArtifacts.Vendoring

open Native (textOf_relativePath provenanceToJson artifactManifestToJson)
open Registry (PackageEntries sortedBy mem_sortedBy perm_sortedBy)

/-! ## Authored files -/

/-- What is accepted as authored beside the taken paths. -/
structure AuthoredBeside (taken : List String) (files : List PackageFile) : Prop where
  distinct : (files.map PackageFile.path).Nodup
  apart : ∀ file ∈ files, file.path ∉ taken
  nonempty : ∀ file ∈ files, file.path ≠ ""
  projected : ∀ file ∈ files, file.path ∉ projectedRoots

section Authored

variable [StandardLibrary] {taken : List String}

theorem nonempty_of_parse {raw : String} {path : SafeRelativePath} (h : parseRelativePath raw = .ok path) : raw ≠ "" := by
  unfold parseRelativePath at h
  exact (Result.of_check_ok h).1

omit [StandardLibrary] in
theorem root_of_projected {path : String} (h : path ∈ projectedRoots) : (splitChar '/' path).headD "" = path := by
  simp only [projectedRoots, List.mem_cons, List.not_mem_nil, or_false] at h
  rcases h with rfl | rfl
  · rfl
  · rfl

/-- An authored file is accepted as it is given. -/
theorem authoredFile_eq_ok {accepted next : List PackageFile} {file : PackageFile}
    (haccepted : AuthoredBeside taken accepted) (h : authoredFile taken accepted file = .ok next) :
    next = accepted ++ [file] ∧ AuthoredBeside taken next := by
  unfold authoredFile at h
  split at h
  · exact absurd h (by simp [vendorError, error])
  rename_i path hpath
  have htext : path.str = file.path := textOf_relativePath _ _ hpath
  dsimp only at h
  rw [htext] at h
  obtain ⟨hroot, h⟩ := Result.of_check_ok h
  obtain ⟨_, h⟩ := Result.of_check_ok h
  obtain ⟨hnew, h⟩ := Result.of_check_ok h
  obtain ⟨hapart, h⟩ := Result.of_check_ok h
  obtain rfl := Except.ok.inj h
  refine ⟨rfl, ?_, ?_, ?_, ?_⟩
  · rw [List.map_append, List.nodup_append']
    refine ⟨haccepted.distinct, List.nodup_singleton _, ?_⟩
    intro found hfound hlast
    obtain rfl : found = file.path := List.mem_singleton.mp hlast
    exact hnew hfound
  · intro found hfound
    rcases List.mem_append.mp hfound with hfound | hfound
    · exact haccepted.apart found hfound
    · obtain rfl := List.mem_singleton.mp hfound
      exact hapart
  · intro found hfound
    rcases List.mem_append.mp hfound with hfound | hfound
    · exact haccepted.nonempty found hfound
    · obtain rfl := List.mem_singleton.mp hfound
      exact nonempty_of_parse hpath
  · intro found hfound
    rcases List.mem_append.mp hfound with hfound | hfound
    · exact haccepted.projected found hfound
    · obtain rfl := List.mem_singleton.mp hfound
      intro hprojected
      rw [root_of_projected hprojected] at hroot
      exact hroot hprojected

theorem authoredFold_eq_ok {files accepted final : List PackageFile} (haccepted : AuthoredBeside taken accepted)
    (h : files.foldlM (authoredFile taken) accepted = .ok final) :
    final = accepted ++ files ∧ AuthoredBeside taken final := by
  induction files generalizing accepted with
  | nil =>
      obtain rfl := Except.ok.inj h
      exact ⟨(List.append_nil _).symm, haccepted⟩
  | cons file rest ih =>
      rw [List.foldlM_cons] at h
      obtain ⟨next, hnext, h⟩ := Result.of_bind_ok h
      obtain ⟨rfl, hbeside⟩ := authoredFile_eq_ok haccepted hnext
      obtain ⟨rfl, hfinal⟩ := ih hbeside h
      exact ⟨by rw [List.append_assoc, List.singleton_append], hfinal⟩

/-- The authored files of a package are those of the options, beside the taken ones. -/
theorem authoredFiles_eq_ok {options : VendorOptions} {files : List PackageFile}
    (h : authoredFiles options taken = .ok files) : files = options.authored ∧ AuthoredBeside taken files :=
  authoredFold_eq_ok ⟨by simp, by simp, by simp, by simp⟩ h

end Authored

/-! ## The files of a package -/

/-- The files of a package as they stand in a registry. -/
def packageEntries (package : VendoredPackage) : PackageEntries :=
  package.files.map fun file => (file.path, ⟨⟨splitChar '/' file.path⟩, .file, file.content, file.executable⟩)

section Files

variable [StandardLibrary] [LicenseText] {subtree : TakenSubtree} {origin : VendorOrigin} {options : VendorOptions}
  {artifactRoot : SafeRelativePath} {importerVersion : SemVer} {package : VendoredPackage}

omit [LicenseText] in
/-- The two documents that the projection writes. -/
def packageDocuments (package : VendoredPackage) : List PackageFile :=
  [⟨"artifact.json", canonicalJsonBytes (artifactManifestToJson package.manifest), false⟩,
    ⟨"provenance.json", canonicalJsonBytes (provenanceToJson package.provenance), false⟩]

/-- What a projected package consists of. -/
structure Projected (subtree : TakenSubtree) (origin : VendorOrigin) (options : VendorOptions)
    (importerVersion : SemVer) (package : VendoredPackage) : Prop where
  beside : AuthoredBeside ((takenFiles subtree).map PackageFile.path) options.authored
  manifest : package.manifest = vendorManifest subtree options
  provenance : package.provenance = vendorProvenance subtree origin options importerVersion options.authored
  files : package.files.Perm
    ((packageDocuments package ++ takenFiles subtree ++ options.authored).map (below package.base))

theorem projected_of_ok (h : projectVendoredPackage subtree origin options artifactRoot importerVersion = .ok package) :
    Projected subtree origin options importerVersion package := by
  unfold projectVendoredPackage at h
  obtain ⟨authored, hauthored, h⟩ := Result.of_bind_ok h
  obtain ⟨rfl, hbeside⟩ := authoredFiles_eq_ok hauthored
  dsimp only at h
  split at h
  · exact absurd h (by simp [vendorError, error])
  obtain ⟨_, h⟩ := Result.of_check_ok h
  obtain rfl := Except.ok.inj h
  exact ⟨hbeside, rfl, rfl, perm_sortedBy _ _⟩

theorem mem_packageEntries (hprojected : Projected subtree origin options importerVersion package)
    {item : String × SnapshotEntry} (hitem : item ∈ packageEntries package) :
    item.2.kind = .file ∧ ∃ file, item.1 = package.base ++ "/" ++ file.path ∧ item.2.content = file.content ∧
      item.2.executable = file.executable ∧
        (file.path ∈ projectedRoots ∨ file ∈ takenFiles subtree ∨ file ∈ options.authored) := by
  obtain ⟨file, hfile, rfl⟩ := List.mem_map.mp hitem
  obtain ⟨source, hsource, rfl⟩ := List.mem_map.mp (hprojected.files.mem_iff.mp hfile)
  refine ⟨rfl, source, rfl, rfl, rfl, ?_⟩
  simp only [packageDocuments, List.mem_append, List.mem_cons, List.not_mem_nil, or_false] at hsource
  rcases hsource with ((rfl | rfl) | htaken) | hauthored
  · exact Or.inl (by simp [projectedRoots])
  · exact Or.inl (by simp [projectedRoots])
  · exact Or.inr (Or.inl htaken)
  · exact Or.inr (Or.inr hauthored)

theorem takenFile_mem_packageEntries (hprojected : Projected subtree origin options importerVersion package)
    {file : PackageFile} (hfile : file ∈ takenFiles subtree) :
    ∃ item ∈ packageEntries package, item.2.kind = .file ∧ item.1 = package.base ++ "/" ++ file.path ∧
      item.2.content = file.content ∧ item.2.executable = file.executable := by
  have hmem : below package.base file ∈ package.files := by
    rw [hprojected.files.mem_iff]
    exact List.mem_map_of_mem (List.mem_append_left _ (List.mem_append_right _ hfile))
  exact ⟨_, List.mem_map_of_mem hmem, rfl, rfl, rfl, rfl⟩

omit [StandardLibrary] [LicenseText] in
theorem ne_payload {path rest : String} (h : path ∈ projectedRoots) : path ≠ payloadRootName ++ "/" ++ rest := by
  intro heq
  have hlist := congrArg String.toList heq
  simp only [projectedRoots, List.mem_cons, List.not_mem_nil, or_false] at h
  rcases h with rfl | rfl
  · simp [payloadRootName] at hlist
  · simp [payloadRootName] at hlist

/-- The files of a package are a copy of the subtree that it was projected from. -/
theorem holdsCopy_packageEntries (hprojected : Projected subtree origin options importerVersion package) {authored : List String}
    (hauthored : ∀ path, path ∈ authored ↔ path ∈ options.authored.map PackageFile.path) :
    HoldsCopy (packageEntries package) package.base ⟨[payloadRootName]⟩ authored subtree := by
  have hlead (rest : String) : payloadLead package.base ⟨[payloadRootName]⟩ ++ rest =
      package.base ++ "/" ++ (payloadRootName ++ "/" ++ rest) := by
    simp [payloadLead, SafeRelativePath.str, slashJoin, String.append_assoc]
  intro path content executable
  constructor
  · rintro ⟨item, hitem, hcopy, htext, rfl, rfl⟩
    obtain ⟨_, file, hpath, hcontent, hexecutable, hsource⟩ := mem_packageEntries hprojected hitem
    have hfile : file.path = payloadRootName ++ "/" ++ path := append_left_text (hpath.symm.trans (htext.trans (hlead path)))
    rcases hsource with hdocument | htaken | hauthoredFile
    · exact absurd hfile (ne_payload hdocument)
    · obtain ⟨entry, hentry, rfl⟩ := List.mem_map.mp htaken
      obtain ⟨hin, hkind⟩ := List.mem_filter.mp hentry
      exact ⟨entry, hin, by simpa [SnapshotEntry.isFile] using hkind, append_left_text hfile, hcontent.symm, hexecutable.symm⟩
    · have hexcluded : item.1 ∈ excludedPaths package.base authored := by
        rw [hpath]
        exact List.mem_map_of_mem ((hauthored _).mpr (List.mem_map_of_mem hauthoredFile))
      simp [isCopied, hexcluded] at hcopy
  · rintro ⟨entry, hentry, hkind, rfl, rfl, rfl⟩
    have htaken : (⟨takenPath entry, entry.content, entry.executable⟩ : PackageFile) ∈ takenFiles subtree :=
      List.mem_map_of_mem (List.mem_filter.mpr ⟨hentry, by simpa [SnapshotEntry.isFile] using hkind⟩)
    obtain ⟨item, hitem, hfileKind, hpath, hcontent, hexecutable⟩ := takenFile_mem_packageEntries hprojected htaken
    have htext : item.1 = payloadLead package.base ⟨[payloadRootName]⟩ ++ entry.path.str := by
      rw [hpath, hlead]
      rfl
    refine ⟨item, hitem, ?_, htext, hcontent, hexecutable⟩
    have hstart : startsWith (payloadLead package.base ⟨[payloadRootName]⟩) item.1 = true := by
      rw [htext, startsWith, String.toList_append]
      exact List.isPrefixOf_iff_prefix.mpr (List.prefix_append _ _)
    have hkept : item.1 ∉ excludedPaths package.base authored := by
      intro hexcluded
      obtain ⟨relative, hrelative, hsame⟩ := List.mem_map.mp hexcluded
      obtain ⟨file, hfile, rfl⟩ := List.mem_map.mp ((hauthored _).mp hrelative)
      have hshadow : file.path = takenPath entry := append_left_text (hsame.trans hpath)
      exact hprojected.beside.apart file hfile (hshadow ▸ List.mem_map_of_mem htaken)
    simp [isCopied, hstart, hkept, hfileKind]

/-- No path of a package occurs twice. -/
theorem nodup_packageEntries (hprojected : Projected subtree origin options importerVersion package)
    (hdistinct : (subtree.snapshot.entries.map (·.path.str)).Nodup) : ((packageEntries package).map Prod.fst).Nodup := by
  have hpaths : (packageEntries package).map Prod.fst = package.files.map PackageFile.path := by
    rw [packageEntries, List.map_map]
    rfl
  have htaken : ((takenFiles subtree).map PackageFile.path).Nodup := by
    have hfiles : ((subtree.snapshot.entries.filter SnapshotEntry.isFile).map (·.path.str)).Nodup :=
      hdistinct.sublist (List.filter_sublist.map _)
    rw [takenFiles, List.map_map]
    refine List.Nodup.map_on ?_ (List.Nodup.of_map _ hfiles)
    intro a ha b hb hsame
    exact List.inj_on_of_nodup_map hfiles ha hb (append_left_text hsame)
  have hall : (((packageDocuments package ++ takenFiles subtree ++ options.authored).map PackageFile.path)).Nodup := by
    rw [List.map_append, List.map_append, List.nodup_append', List.nodup_append']
    refine ⟨⟨?_, htaken, ?_⟩, hprojected.beside.distinct, ?_⟩
    · simp [packageDocuments]
    · intro path hdocument htakenPath
      obtain ⟨file, hfile, rfl⟩ := List.mem_map.mp htakenPath
      obtain ⟨entry, _, rfl⟩ := List.mem_map.mp hfile
      have hdocument' : takenPath entry ∈ projectedRoots := by
        simpa [packageDocuments, projectedRoots] using hdocument
      exact ne_payload hdocument' rfl
    · intro path hleft hright
      obtain ⟨file, hfile, rfl⟩ := List.mem_map.mp hright
      rcases List.mem_append.mp hleft with hdocument | htakenPath
      · exact hprojected.beside.projected file hfile (by simpa [packageDocuments, projectedRoots] using hdocument)
      · exact hprojected.beside.apart file hfile htakenPath
  have hbelow : ((packageDocuments package ++ takenFiles subtree ++ options.authored).map (below package.base)).map
      PackageFile.path = ((packageDocuments package ++ takenFiles subtree ++ options.authored).map PackageFile.path).map
        fun path => package.base ++ "/" ++ path := by
    rw [List.map_map, List.map_map]
    rfl
  rw [hpaths, (hprojected.files.map PackageFile.path).nodup_iff, hbelow]
  exact hall.map fun a b hsame => append_left_text hsame

theorem carries_of_projected (hprojected : Projected subtree origin options importerVersion package) :
    Carries package.provenance ⟨origin.ref, sortedBy id (options.authored.map PackageFile.path)⟩ := by
  rw [hprojected.provenance]
  exact ⟨rfl, rfl, rfl⟩

theorem nonempty_authored (hprojected : Projected subtree origin options importerVersion package) :
    ∀ path ∈ sortedBy id (options.authored.map PackageFile.path), path ≠ "" := by
  intro path hpath
  obtain ⟨file, hfile, rfl⟩ := List.mem_map.mp (mem_sortedBy.mp hpath)
  exact hprojected.beside.nonempty file hfile

theorem provenance_mem_files (hprojected : Projected subtree origin options importerVersion package) :
    (⟨package.base ++ "/" ++ "provenance.json", canonicalJsonBytes (provenanceToJson package.provenance), false⟩ :
      PackageFile) ∈ package.files := by
  rw [hprojected.files.mem_iff]
  refine List.mem_map.mpr ⟨⟨"provenance.json", canonicalJsonBytes (provenanceToJson package.provenance), false⟩, ?_, rfl⟩
  simp [packageDocuments]

end Files

/-! ## Projection and verification -/

section Inverse

variable [StandardLibrary] [JsonRuntime] [LicenseText]

/-- The record of a copy, with the paths that it lists. -/
def copyRecord (origin : VendorOrigin) (options : VendorOptions) : VendorRecord :=
  ⟨origin.ref, sortedBy id (options.authored.map PackageFile.path)⟩

/-- A projected package gives its record back, from the value and from the bytes; its files
match the recorded digest; and files that match it are the taken ones. -/
theorem vendoring_verifies (hfree : CollisionFree) {snapshot : SourceSnapshot} {path : SafeRelativePath}
    {limits : SnapshotLimits} {subtree : TakenSubtree} {origin : VendorOrigin} {options : VendorOptions}
    {artifactRoot : SafeRelativePath} {importerVersion : SemVer} {package : VendoredPackage}
    (htake : takeSubtree snapshot path limits = .ok subtree)
    (hproject : projectVendoredPackage subtree origin options artifactRoot importerVersion = .ok package) :
    (origin.ref ≠ "" → readVendorRecord package.provenance = .ok (copyRecord origin options) ∧
      ∃ content, (⟨package.base ++ "/" ++ "provenance.json", content, false⟩ : PackageFile) ∈ package.files ∧
        ∀ written, Native.parseProvenance content = .ok written →
          readVendorRecord written = .ok (copyRecord origin options)) ∧
    (ClosedSubtree subtree ↔ CopyMatches (packageEntries package) package.base package.manifest.payload.root
      (copyRecord origin options).authored subtree.inputDigest) ∧
    ∀ files base payloadRoot authored, CopyMatches files base payloadRoot authored subtree.inputDigest →
      HoldsCopy files base payloadRoot authored subtree := by
  have hdigest := (takeSubtree_eq_ok htake).2
  have hprojected := projected_of_ok hproject
  have hcarries := carries_of_projected hprojected
  have hpaths := nonempty_authored hprojected
  refine ⟨fun href => ⟨readVendorRecord_of_carries hcarries href hpaths, _, provenance_mem_files hprojected,
    fun written hwritten => ?_⟩, ?_, fun files base payloadRoot authored h => (holds_of_matches hfree hdigest h).2⟩
  · exact readVendorRecord_of_carries (carries_of_parse hcarries hwritten) href hpaths
  · have hroot : package.manifest.payload.root = ⟨[payloadRootName]⟩ := by
      rw [hprojected.manifest]
      rfl
    have hholds : HoldsCopy (packageEntries package) package.base ⟨[payloadRootName]⟩ (copyRecord origin options).authored
        subtree := holdsCopy_packageEntries hprojected fun path => mem_sortedBy
    have hkeys := nodup_packageEntries hprojected (hashable_of_digest hdigest).distinct
    rw [hroot, copyMatches_iff hfree hdigest (exists_file_of_takeSubtree htake) hkeys]
    exact ⟨fun hclosed => ⟨hclosed, hholds⟩, fun h => h.1⟩

end Inverse

/-! ## A guideline beside an empty directory -/

@[reducible] def vendorLibrary : StandardLibrary := pythonLibrary id fun _ => true
@[reducible] def asciiLicense : LicenseText := ⟨fun text => text.map Char.toLower, fun data => (decodeUtf8 data).getD ""⟩

section Sample

attribute [local instance] vendorLibrary asciiLicense

def styleFile (path : SafeRelativePath) : SnapshotEntry := ⟨path, .file, encodeUtf8 "# Style\n", false⟩

/-- A repository with one guideline, and what else stands beside it. -/
def upstream (beside : List SnapshotEntry) : SourceSnapshot :=
  SourceSnapshot.of .immutableGit ([directoryAt ⟨["docs"]⟩, styleFile ⟨["docs", "style.md"]⟩] ++ beside)

def styleOrigin : VendorOrigin := ⟨"https://example.com/style.git", "main", "4b825dc642cb6eb9a060e54bf8d69288fbee4904"⟩

def styleOptions : VendorOptions where
  identity := ⟨.guideline, ⟨"style", Eq.refl true⟩⟩
  version := ⟨1, 0, 0, [], []⟩
  summary := "Style"
  profiles := []
  platforms := []
  scopes := [.project]
  modes := []

def emptyDirectory : SnapshotEntry := directoryAt ⟨["docs", "drafts"]⟩

theorem takeSubtree_empty : (takeSubtree (upstream [emptyDirectory]) ⟨["docs"]⟩ {}).map (·.snapshot.entries) =
    .ok [directoryAt ⟨["drafts"]⟩, styleFile ⟨["style.md"]⟩] := by rfl

theorem takeSubtree_bare : (takeSubtree (upstream []) ⟨["docs"]⟩ {}).map (·.snapshot.entries) =
    .ok [styleFile ⟨["style.md"]⟩] := by rfl

theorem projected_style {subtree : TakenSubtree}
    (h : subtree.snapshot.entries.filter SnapshotEntry.isFile = [styleFile ⟨["style.md"]⟩]) :
    ∃ package, projectVendoredPackage subtree styleOrigin styleOptions ⟨["artifacts"]⟩ ⟨1, 0, 0, [], []⟩ = .ok package := by
  unfold projectVendoredPackage takenFiles
  rw [h]
  exact ⟨_, rfl⟩

/-- An empty directory is taken and digested, and no package shows it. -/
theorem vendoring_loses_empty_directory : ∃ subtree package,
    takeSubtree (upstream [emptyDirectory]) ⟨["docs"]⟩ {} = .ok subtree ∧
      projectVendoredPackage subtree styleOrigin styleOptions ⟨["artifacts"]⟩ ⟨1, 0, 0, [], []⟩ = .ok package ∧
        ¬ CopyMatches (packageEntries package) package.base package.manifest.payload.root
          (copyRecord styleOrigin styleOptions).authored subtree.inputDigest := by
  obtain ⟨subtree, htake, hentries⟩ := Result.of_map_ok takeSubtree_empty
  obtain ⟨package, hproject⟩ := projected_style (by rw [← hentries]; rfl)
  refine ⟨subtree, package, htake, hproject, fun hmatch => ?_⟩
  have hclosed := (holds_of_matches Function.injective_id (takeSubtree_eq_ok htake).2 hmatch).1
  have hdirectory : directoryAt ⟨["drafts"]⟩ ∈ subtree.snapshot.entries := by
    rw [← hentries]
    simp
  obtain ⟨entry, hentry, hkind, hpath⟩ := (hclosed _).mp hdirectory
  rw [← hentries] at hentry
  simp only [List.mem_cons, List.not_mem_nil, or_false] at hentry
  rcases hentry with rfl | rfl
  · exact absurd hkind (by decide)
  · exact absurd hpath (by decide)

theorem vendoring_verifies_style : ∃ subtree package,
    takeSubtree (upstream []) ⟨["docs"]⟩ {} = .ok subtree ∧
      readVendorRecord package.provenance = .ok ⟨"main", []⟩ ∧
        CopyMatches (packageEntries package) package.base package.manifest.payload.root [] subtree.inputDigest := by
  obtain ⟨subtree, htake, hentries⟩ := Result.of_map_ok takeSubtree_bare
  obtain ⟨package, hproject⟩ := projected_style (by rw [← hentries]; rfl)
  have hruntime : JsonRuntime := pythonLibrary_jsonRuntime id fun _ => true
  obtain ⟨hrecord, hmatch, _⟩ := vendoring_verifies Function.injective_id htake hproject
  refine ⟨subtree, package, htake, (hrecord (by decide)).1, hmatch.mp fun path => ?_⟩
  rw [← hentries]
  simp [directoryAt, styleFile, properAncestors]

end Sample
end AgentArtifacts.Vendoring
