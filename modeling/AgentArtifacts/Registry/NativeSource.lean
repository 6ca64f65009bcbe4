import AgentArtifacts.Registry.Graph
import AgentArtifacts.Registry.Packages
import AgentArtifacts.Sources.Model

/-!
# Native sources

`load_native_source` reads an acquired tree: the manifest at its root, the packages below
the artifact roots, and the collections directly below the collection roots.
-/

namespace AgentArtifacts.Registry

open Native (SourceManifest parseSourceManifest parseCollectionManifest collectionInvalid)
open Schema (refuse)

def sourceTreeInvalid : DiagnosticCode := ⟨"source-tree-invalid"⟩

def sourceMarkerMissing : DiagnosticCode := ⟨"source-marker-missing"⟩

/-- The reader of a tree: its version, its capabilities, and how it reads setup recipes. -/
structure Executable where
  version : SemVer
  capabilities : List Capability
  readSetup : Native.ArtifactManifest → PackageEntries → Result SetupInstaller

/-- A compiled package, with its provenance as it was parsed. -/
structure LoadedPackage where
  package : NativeArtifactPackage
  provenance : Option Native.Provenance
deriving DecidableEq

structure NativeSource where
  manifest : SourceManifest
  artifacts : List LoadedPackage
  collections : List Native.CollectionManifest
deriving DecidableEq

/-- `dict.get` by path. -/
def entryAt (entries : List SnapshotEntry) (path : String) : Option SnapshotEntry :=
  entries.find? fun entry => entry.path.str == path

/-- `_under`: the parts of a path below a root. -/
def under (path : String) (root : SafeRelativePath) : Option (List String) :=
  if (splitChar '/' path).take root.parts.length = root.parts then some ((splitChar '/' path).drop root.parts.length)
  else none

/-! ## The packages of a tree -/

def packageKind (text : String) : Option ArtifactKind :=
  [ArtifactKind.skill, .guideline, .mcp, .hook, .memory].find? fun kind => kind.value == text

/-- The directory that a package stands in. -/
structure PackageCandidate where
  root : SafeRelativePath
  kind : ArtifactKind
  name : String
deriving DecidableEq

def packageCandidate (root : SafeRelativePath) (entry : SnapshotEntry) : Result (Option PackageCandidate) :=
  match under entry.path.str root with
  | none => .ok none
  | some [] => .ok none
  | some [_] =>
      if entry.kind = .directory then .ok none
      else error sourceTreeInvalid ("artifact root entries must use <type>/<name>/...: " ++ entry.path.str)
  | some (kind :: name :: _) =>
      match packageKind kind with
      | none => error sourceTreeInvalid ("unsupported artifact type directory " ++ pyRepr kind)
      | some kind => .ok (some ⟨root, kind, name⟩)

/-- `_package_candidates`. -/
def packageCandidates (entries : List SnapshotEntry) (manifest : SourceManifest) : Result (List PackageCandidate) := do
  let found ← manifest.artifactRoots.mapM fun root => entries.mapM (packageCandidate root)
  let candidates := (found.flatten.reduceOption).dedup
  if candidates.isEmpty then error sourceTreeInvalid "native source contains no canonical artifact packages"
  else return sortedBy (fun candidate => [candidate.root.str, candidate.kind.value, candidate.name]) candidates

def relativePackageEntries (entries : List SnapshotEntry) (base : String) : PackageEntries :=
  (entries.filter fun entry => startsWith (base ++ "/") entry.path.str).map fun entry =>
    (removePrefix (base ++ "/") entry.path.str, entry)

/-! ## Compatibility -/

/-- What `negotiate_capabilities` finds missing of the required ones. -/
def missingCapabilities (required available : List Capability) : List Capability :=
  (sortedBy Capability.value required.dedup).filter fun capability => capability ∉ available

variable [StandardLibrary]

def compatibilityDiagnostics (executable : Executable) (manifest : SourceManifest) : List Diagnostic :=
  (if manifest.requiresAart.allows executable.version then []
    else [⟨sourceIncompatible, "AART " ++ executable.version.str ++ " is outside source compatibility bounds"⟩]) ++
  match missingCapabilities manifest.requiredCapabilities executable.capabilities with
  | [] => []
  | missing => [⟨sourceIncompatible,
      "source requires unavailable capabilities: " ++ String.intercalate ", " (missing.map Capability.value)⟩]

/-! ## Entries -/

def validatedEntry (known : List SnapshotEntry) (entry : SnapshotEntry) : Result (List SnapshotEntry) := do
  let raw := entry.path.str
  refuse (decide (parseRelativePath raw ≠ .ok entry.path)) sourceTreeInvalid
    ("snapshot path is not canonical: " ++ pyRepr raw)
  refuse (decide (raw ∈ known.map (·.path.str))) sourceTreeInvalid ("duplicate snapshot path: " ++ raw)
  refuse (entry.kind == .directory && (!entry.content.isEmpty || entry.executable)) sourceTreeInvalid
    ("directory has file metadata: " ++ raw)
  return known ++ [entry]

/-- `_validated_entries`. -/
def validatedEntries (snapshot : SourceSnapshot) : Result (List SnapshotEntry) :=
  snapshot.entries.foldlM validatedEntry []

/-- The roots that a manifest declares. -/
def declaredRoots (manifest : SourceManifest) : List SafeRelativePath := manifest.artifactRoots ++ manifest.collectionRoots

def isDeclared (manifest : SourceManifest) (path : String) : Bool :=
  path == "aart-source.json" || (declaredRoots manifest).any fun root => (under path root).isSome

/-- `_validate_protocol_entry_kinds`. -/
def validateProtocolEntryKinds (entries : List SnapshotEntry) (manifest : SourceManifest) : Result Unit :=
  match entries.find? fun entry =>
      isDeclared manifest entry.path.str && (entry.kind == .symlink || entry.kind == .special) with
  | none => .ok ()
  | some entry => error sourceTreeInvalid ("protocol v1 forbids " ++ entry.kind.value ++
      " entries in declared content: " ++ entry.path.str)

/-! ## Loading -/

/-- `_load_package`; a directory whose name is no slug is no identity of a manifest. -/
def loadPackage (executable : Executable) (entries : List SnapshotEntry) (candidate : PackageCandidate) :
    Result LoadedPackage := do
  let members := relativePackageEntries entries
    (candidate.root.str ++ "/" ++ candidate.kind.value ++ "/" ++ candidate.name)
  match Manifest.slugOf candidate.name with
  | some name =>
      let package ← compilePackageEntries executable.readSetup members (some ⟨candidate.kind, name⟩)
      let provenance ← packageProvenance members
      return ⟨package, provenance⟩
  | none =>
      let manifest ← packageManifest members
      error artifactInvalid ("manifest identity " ++ manifest.identity.str ++ " does not match package path " ++
        candidate.kind.value ++ "/" ++ candidate.name)

/-- One more package, beside those with other identities. -/
def loadNext (executable : Executable) (entries : List SnapshotEntry) (loaded : List LoadedPackage)
    (candidate : PackageCandidate) : Result (List LoadedPackage) := do
  let found ← loadPackage executable entries candidate
  let identity := found.package.manifest.identity
  refuse (decide (identity ∈ loaded.map (·.package.manifest.identity))) artifactInvalid
    ("duplicate artifact identity: " ++ identity.str)
  return loaded ++ [found]

/-- What the entry says about the collections below a root. -/
def loadCollection (root : SafeRelativePath) (known : List Native.CollectionManifest) (entry : SnapshotEntry) :
    Result (List Native.CollectionManifest) :=
  match under entry.path.str root with
  | none => .ok known
  | some [] => .ok known
  | some relative =>
      if entry.kind = .directory then .ok known
      else do
        let file := relative.headD ""
        refuse (decide (relative.length ≠ 1) || !endsWith ".json" file) collectionInvalid
          ("collection files must be direct JSON children of " ++ root.str ++ ": " ++ entry.path.str)
        let parsed ← parseCollectionManifest entry.content
        let expected := removeSuffix ".json" file
        refuse (decide (parsed.name.value ≠ expected)) collectionInvalid
          ("collection name " ++ pyRepr parsed.name.value ++ " does not match " ++ pyRepr expected)
        refuse (decide (parsed.name ∈ known.map (·.name))) collectionInvalid
          ("duplicate collection identity: " ++ parsed.name.value)
        return known ++ [parsed]

/-- `_load_collections`. -/
def loadCollections (entries : List SnapshotEntry) (manifest : SourceManifest) : Result (List Native.CollectionManifest) := do
  let found ← manifest.collectionRoots.foldlM (fun known root => entries.foldlM (loadCollection root) known) []
  return sortedBy (fun collection => collection.name.value) found

/-- `load_native_source`. -/
def loadNativeSource (executable : Executable) (snapshot : SourceSnapshot)
    (referencedOrigins : ArtifactIdentity → Option String) : Result NativeSource := do
  let entries ← validatedEntries snapshot
  match (entryAt entries "aart-source.json").filter SnapshotEntry.isFile with
  | none => error sourceMarkerMissing "native source requires aart-source.json at the acquired tree root"
  | some marker =>
      let manifest ← parseSourceManifest marker.content
      validateProtocolEntryKinds entries manifest
      match compatibilityDiagnostics executable manifest with
      | [] =>
          let candidates ← packageCandidates entries manifest
          let packages ← candidates.foldlM (loadNext executable entries) []
          validateDeclaredDependencies (packages.map LoadedPackage.package) referencedOrigins
          let collections ← loadCollections entries manifest
          return { manifest, collections,
                   artifacts := sortedBy (fun loaded => loaded.package.manifest.identity.str) packages }
      | diagnostics => .error diagnostics

end AgentArtifacts.Registry
