import AgentArtifacts.Protocol.IndexSchema
import AgentArtifacts.Protocol.NativeDocuments
import AgentArtifacts.Registry.InputsDigest
import AgentArtifacts.Registry.Tree
import AgentArtifacts.Sources.SnapshotDigest
import AgentArtifacts.Store.ObjectEnvelope

/-!
# Registry workspaces

The documents of a registry workspace as its maintainer's planners read them, the packages that
are acquired for its entries, and what stands in a projected tree after one entry is set.
-/

namespace AgentArtifacts.Maintenance

open Manifest (validDigest)
open Native (SourceManifest parseSourceManifest parseCollectionManifest provenanceToJson)
open Registry (Executable LoadedPackage sortedBy lastKeyed? entryAt entryAt_append under loadNativeSource
  missingCapabilities indexArtifactFromPackage)
open RegistrySchema (RegistryManifest RegistryEntry LockedArtifact parseRegistryEntry)
open Schema (refuse)

def registryMaintenanceInvalid : DiagnosticCode := ⟨"registry-maintenance-invalid"⟩

def maintenanceError {α : Type} (message : String) : Result α := error registryMaintenanceInvalid message

/-! ## One entry set -/

section Entries

/-- `dict.__setitem__` by path. -/
def setEntry (entries : List SnapshotEntry) (entry : SnapshotEntry) : List SnapshotEntry :=
  if (entryAt entries entry.path.str).isSome then
    entries.map fun known => if known.path.str = entry.path.str then entry else known
  else entries ++ [entry]

variable {entries output next : List SnapshotEntry} {entry : SnapshotEntry} {path : String}

theorem entryAt_singleton : entryAt [entry] path = if path = entry.path.str then some entry else none := by
  unfold entryAt
  rw [List.find?_singleton]
  simp only [beq_iff_eq, eq_comm (a := path)]

theorem entryAt_replaced : entryAt (entries.map fun known => if known.path.str = entry.path.str then entry else known) path =
    if path = entry.path.str then (entryAt entries path).map fun _ => entry else entryAt entries path := by
  induction entries with
  | nil => simp [entryAt]
  | cons known rest ih =>
      unfold entryAt at *
      rw [List.map_cons, List.find?_cons, List.find?_cons, ih]
      by_cases hsame : known.path.str = entry.path.str
      · rw [if_pos hsame, hsame]
        by_cases hpath : path = entry.path.str
        · simp [hpath]
        · have hother : (entry.path.str == path) = false := by simpa using Ne.symm hpath
          rw [hother, if_neg hpath]
      · rw [if_neg hsame]
        by_cases hpath : path = entry.path.str
        · have hother : (known.path.str == path) = false := by simpa [hpath] using hsame
          rw [hother, if_pos hpath]
        · rw [if_neg hpath, if_neg hpath]

/-- An entry that is set stands at its path, and nothing else changes. -/
theorem entryAt_setEntry :
    entryAt (setEntry entries entry) path = if path = entry.path.str then some entry else entryAt entries path := by
  unfold setEntry
  split
  · rename_i hfound
    rw [entryAt_replaced]
    split
    · rename_i hpath
      obtain ⟨known, hknown⟩ := Option.isSome_iff_exists.mp hfound
      rw [hpath, hknown]
      rfl
    · rfl
  · rename_i hnone
    rw [entryAt_append, entryAt_singleton]
    split
    · rename_i hpath
      rw [hpath, Option.not_isSome_iff_eq_none.mp hnone]
      rfl
    · exact Option.or_none

end Entries

/-! ## Documents -/

section Documents

variable [StandardLibrary]

def requiredFile (files : List SnapshotEntry) (path : String) : Result SnapshotEntry :=
  match (entryAt files path).filter SnapshotEntry.isFile with
  | none => maintenanceError ("registry workspace requires " ++ path)
  | some entry => .ok entry

def registrySourceManifest (files : List SnapshotEntry) (registry : RegistryManifest) : Result SourceManifest := do
  let marker ← requiredFile files "aart-source.json"
  let source ← parseSourceManifest marker.content
  if source.sourceId ≠ registry.registryId then maintenanceError "registry and native source identities must match"
  else return source

def identityPath (identity : ArtifactIdentity) : String :=
  "entries/" ++ identity.kind.value ++ "/" ++ identity.name.value ++ ".json"

/-- `_entry_path`. -/
def entryPath (entry : RegistryEntry) : String := identityPath entry.identity

/-- A file that is read as an entry. -/
def isEntryPath (entry : SnapshotEntry) : Bool := startsWith "entries/" entry.path.str && entry.isFile

def currentEntry (file : SnapshotEntry) : Result RegistryEntry := do
  let parsed ← parseRegistryEntry file.content
  if file.path.str ≠ entryPath parsed then
    maintenanceError ("registry entry identity does not match its path: " ++ file.path.str)
  else return parsed

/-- `_current_entries`. -/
def currentEntries (files : List SnapshotEntry) : Result (List RegistryEntry) := do
  let entries ← (files.filter isEntryPath).mapM currentEntry
  if (entries.map RegistryEntry.identity).Nodup then return entries
  else maintenanceError "registry workspace contains duplicate entry identities"

/-- `_referenced_origins`; later entries of one identity replace earlier ones. -/
def referencedOrigins (files : List SnapshotEntry) (identity : ArtifactIdentity) : Option String :=
  match currentEntries files with
  | .error _ => none
  | .ok entries => Registry.lastKeyed? (entries.map fun entry => (entry.identity, entry.source.url)) identity

end Documents

/-! ## Acquisitions -/

/-- An acquisition that its constructor accepted. -/
structure NativeReferenceAcquisition where
  url : String
  requestedRef : String
  resolvedCommit : String
  snapshot : SourceSnapshot
  urlLine : isRevision url = true
  refLine : isRevision requestedRef = true
  commit : isCommit resolvedCommit = true
  pinned : snapshot.origin = .immutableGit

/-- `SafeRelativePath((*root.parts, identity.kind, identity.name))`. -/
def packagePath (root : SafeRelativePath) (identity : ArtifactIdentity) : SafeRelativePath :=
  ⟨root.parts ++ [identity.kind.value, identity.name.value]⟩

section Packages

variable [StandardLibrary]

structure AcquiredPackage where
  package : Registry.NativeArtifactPackage
  object : Envelope
  provenanceDigest : Option ObjectDigest
  sourceId : SourceId

def packageMember (above : String) (item : SnapshotEntry) : Result SnapshotEntry :=
  match parseRelativePath (removePrefix above item.path.str) with
  | .error _ => maintenanceError ("native package contains an unsafe relative path: " ++ item.path.str)
  | .ok path => .ok { item with path := path }

/-- `_package_object`. -/
def packageObject (snapshot : SourceSnapshot) (path : SafeRelativePath) : Result Envelope := do
  let above := path.str ++ "/"
  let entries ← (snapshot.entries.filter fun item => startsWith above item.path.str).mapM (packageMember above)
  makeObjectCandidate entries none

/-- `_acquired_package`. -/
def acquiredPackage (executable : Executable) (entry : RegistryEntry) (acquisition : NativeReferenceAcquisition) :
    Result AcquiredPackage := do
  refuse (acquisition.url != entry.source.url || acquisition.requestedRef != entry.source.ref ||
      !isCommit acquisition.resolvedCommit) registryMaintenanceInvalid
    "acquired Git origin/ref does not match the registry entry"
  let loaded ← loadNativeSource executable acquisition.snapshot fun _ => none
  match loaded.artifacts.filter fun found => found.package.manifest.identity = entry.identity with
  | [found] =>
      refuse (decide (entry.source.path ∉ loaded.manifest.artifactRoots.map fun root => packagePath root entry.identity))
        registryMaintenanceInvalid ("acquired native source does not contain exact identity " ++ entry.identity.str)
      let object ← packageObject acquisition.snapshot entry.source.path
      return ⟨found.package, object, found.provenance.map fun provenance => jsonDigest (provenanceToJson provenance),
        loaded.manifest.sourceId⟩
  | _ => maintenanceError ("acquired native source does not contain exact identity " ++ entry.identity.str)

/-! ## What the registry owns -/

/-- A collection below a root that has no packages beside it. -/
def collectionBelow (root : SafeRelativePath) (known : List Native.CollectionManifest) (item : SnapshotEntry) :
    Result (List Native.CollectionManifest) :=
  if startsWith (root.str ++ "/") item.path.str && item.isFile then do
    let relative := removePrefix (root.str ++ "/") item.path.str
    refuse (pyIn "/" relative || !endsWith ".json" relative) registryMaintenanceInvalid
      ("collection files must be direct JSON children of " ++ root.str ++ ": " ++ item.path.str)
    let parsed ← parseCollectionManifest item.content
    refuse (parsed.name.value != removeSuffix ".json" relative) registryMaintenanceInvalid
      ("collection identity does not match its path: " ++ item.path.str)
    return known ++ [parsed]
  else .ok known

/-- `_collections_without_index`. -/
def collectionsWithoutIndex (files : List SnapshotEntry) : Result (List Native.CollectionManifest) := do
  let marker ← requiredFile files "aart-source.json"
  let source ← parseSourceManifest marker.content
  let collections ← source.collectionRoots.foldlM (fun known root => files.foldlM (collectionBelow root) known) []
  refuse (decide (¬ (collections.map (·.name)).Nodup)) registryMaintenanceInvalid
    "registry workspace contains duplicate collection identities"
  return sortedBy (fun collection => collection.name.value) collections

/-- Whether a file stands below an artifact root. -/
def isOwnedFile (source : SourceManifest) (item : SnapshotEntry) : Bool :=
  item.isFile && source.artifactRoots.any fun root => (under item.path.str root).any (!·.isEmpty)

/-- The row of a package that the registry owns. -/
def ownedArtifact (snapshot : SourceSnapshot) (files : List SnapshotEntry) (registryId : SourceId)
    (source : SourceManifest) (found : LoadedPackage) : Result Registry.IndexArtifact := do
  let identity := found.package.manifest.identity
  match source.artifactRoots.filter fun root =>
      (entryAt files ((packagePath root identity).str ++ "/artifact.json")).isSome with
  | [root] =>
      let object ← packageObject snapshot (packagePath root identity)
      return indexArtifactFromPackage found.package registryId object.digest none []
  | _ => maintenanceError ("registry-owned package path is ambiguous: " ++ identity.str)

/-- `_native_registry_content`. -/
def nativeRegistryContent (executable : Executable) (snapshot : SourceSnapshot) (files : List SnapshotEntry)
    (manifest : RegistryManifest) : Result (List Registry.IndexArtifact × List Native.CollectionManifest) := do
  let source ← registrySourceManifest files manifest
  refuse (!manifest.requiresAart.allows executable.version || !source.requiresAart.allows executable.version)
    registryMaintenanceInvalid "registry workspace is incompatible with this AART version"
  let missing := missingCapabilities (manifest.requiredCapabilities ++ source.requiredCapabilities) executable.capabilities
  refuse (!missing.isEmpty) registryMaintenanceInvalid
    ("registry workspace requires unavailable capabilities: " ++
      String.intercalate ", " (missing.map Registry.Capability.value))
  if files.any (isOwnedFile source) then do
    let loaded ← loadNativeSource executable snapshot (referencedOrigins files)
    let artifacts ← loaded.artifacts.mapM (ownedArtifact snapshot files manifest.registryId loaded.manifest)
    return (artifacts, loaded.collections)
  else do
    let collections ← collectionsWithoutIndex files
    return ([], collections)

/-! ## What is locked -/

/-- What is locked of a package that was acquired for an entry. -/
def lockedOf (entry : RegistryEntry) (acquisition : NativeReferenceAcquisition) (acquired : AcquiredPackage) :
    LockedArtifact where
  originUrl := acquisition.url
  requestedRef := acquisition.requestedRef
  resolvedCommit := acquisition.resolvedCommit
  path := entry.source.path
  manifestDigest := acquired.package.manifestDigest
  payloadDigest := acquired.package.payloadDigest
  objectDigest := acquired.object.digest
  artifactVersion := acquired.package.manifest.version
  review := entry.review
  provenanceDigest := acquired.provenanceDigest

/-- The row of a package that was acquired for an entry. -/
def indexedOf (entry : RegistryEntry) (acquired : AcquiredPackage) : Registry.IndexArtifact :=
  indexArtifactFromPackage acquired.package acquired.sourceId acquired.object.digest (some entry.review) []

end Packages

end AgentArtifacts.Maintenance
