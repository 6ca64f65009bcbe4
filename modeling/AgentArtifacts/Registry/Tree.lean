import AgentArtifacts.Configuration.Model
import AgentArtifacts.Protocol.RegistrySchema
import AgentArtifacts.Registry.NativeSource

/-!
# The inputs of a registry and its committed lock

A registry is hashed by the documents and the packages that it declares, with the JSON in
canonical form. References are resolved from the lock alone, and only while it was made of
these inputs.
-/

namespace AgentArtifacts.Registry

open Configuration (TextRuntime)
open RegistrySchema (RegistryEntry RegistryLock LockedArtifact registryLockInvalid)
open Schema (refuse insteadOf)

def registryTreeInvalid : DiagnosticCode := ⟨"registry-tree-invalid"⟩

def registryLockStale : DiagnosticCode := ⟨"registry-lock-stale"⟩

def registrySelfReference : DiagnosticCode := ⟨"registry-self-reference"⟩

/-! ## Inputs -/

def generatedPaths : List String := ["aart.lock.json", "aart.index.json"]

def inputMarkers : List String := ["aart-registry.json", "aart-source.json"]

def inputRoots : List String := ["entries/", "artifacts/", "collections/"]

def isRegistryInput (path : String) : Bool := decide (path ∈ inputMarkers) || inputRoots.any fun root => startsWith root path

/-- A path that is hashed; what is generated is no input. -/
def isInput (path : String) : Bool := decide (path ∉ generatedPaths) && isRegistryInput path

section Inputs

variable [StandardLibrary]

/-- The loop over the entries: the paths seen, the inputs among the files, and whether the marker was met. -/
structure InputState where
  seen : List String := []
  files : List SnapshotEntry := []
  markerFound : Bool := false

def inputEntry (state : InputState) (entry : SnapshotEntry) : Result InputState := do
  let path := entry.path.str
  refuse (decide (parseRelativePath path ≠ .ok entry.path)) registryTreeInvalid
    ("snapshot path is not canonical: " ++ pyRepr path)
  refuse (decide (path ∈ state.seen)) registryTreeInvalid ("duplicate snapshot path: " ++ path)
  let state := { state with
    seen := state.seen ++ [path]
    markerFound := state.markerFound || (path == "aart-registry.json" && entry.isFile) }
  if isInput path then
    match entry.kind with
    | .directory => return state
    | .file => return { state with files := state.files ++ [entry] }
    | kind => error registryTreeInvalid ("registry inputs forbid " ++ kind.value ++ " entries: " ++ path)
  else return state

/-- `_validated_input_files`. -/
def validatedInputFiles (snapshot : SourceSnapshot) : Result (List SnapshotEntry) := do
  let state ← snapshot.entries.foldlM inputEntry {}
  refuse (!state.markerFound) registryTreeInvalid "registry inputs require root aart-registry.json"
  return sortByPath state.files

/-- An input as it is hashed. -/
def inputFile (entry : SnapshotEntry) : Result TreeEntry := do
  let content ←
    if endsWith ".json" entry.path.str then
      insteadOf ((parseJson entry.content).map canonicalJsonBytes) registryTreeInvalid
        ("registry JSON input is invalid: " ++ entry.path.str)
    else .ok entry.content
  return .file entry.path entry.executable content.length (sha256Bytes content)

def inputDirectory (raw : String) : Result TreeEntry := do
  let path ← insteadOf (parseRelativePath raw) registryTreeInvalid ("registry input directory is invalid: " ++ raw)
  return .directory path

/-- The directories above the inputs. -/
def inputDirectories (files : List SnapshotEntry) : List String :=
  sortedSet ((files.flatMap fun entry => properAncestors entry.path).map SafeRelativePath.str)

def inputsTree (files : List SnapshotEntry) : Result ObjectDigest := do
  let hashed ← files.mapM inputFile
  let directories ← (inputDirectories files).mapM inputDirectory
  insteadOf (treeDigest (hashed ++ directories)) registryTreeInvalid "registry inputs cannot be hashed"

/-- `registry_inputs_digest`. -/
def registryInputsDigest (snapshot : SourceSnapshot) : Result ObjectDigest := do
  let files ← validatedInputFiles snapshot
  inputsTree files

end Inputs

/-! ## References -/

/-- `_normalized_origin`. -/
def normalizedOrigin [TextRuntime] (url : String) : String :=
  let normalized := removeSuffix ".git" (pyRstrip '/' url)
  if startsWith "https://" normalized then
    match splitChar '/' (removePrefix "https://" normalized) with
    | [] => normalized
    | authority :: rest =>
        "https://" ++ TextRuntime.casefold authority ++ (if rest.isEmpty then "" else "/") ++ slashJoin rest
  else if startsWith "git@" normalized then
    match splitChar ':' normalized with
    | [] => normalized
    | authority :: rest => TextRuntime.casefold authority ++ (if rest.isEmpty then "" else ":") ++ String.intercalate ":" rest
  else normalized

/-- Whether an entry references the registry that it stands in. -/
def referencesOrigin [TextRuntime] (registryOriginUrl : String) (entry : RegistryEntry) : Bool :=
  normalizedOrigin entry.source.url == normalizedOrigin registryOriginUrl

/-- Whether the lock holds what an entry names. -/
def agreesWithLock (entry : RegistryEntry) (locked : LockedArtifact) : Bool :=
  entry.source.url == locked.originUrl && entry.source.ref == locked.requestedRef &&
    entry.source.path == locked.path && entry.review == locked.review

/-- One entry that is resolved; where the caller names no origin of the registry, none is its own. -/
def resolveEntry (isOwn : RegistryEntry → Bool) (lock : RegistryLock) (entry : RegistryEntry) :
    Result (ArtifactIdentity × LockedArtifact) :=
  match lastKeyed? lock.entries entry.identity with
  | none => error registryLockStale ("registry lock is missing " ++ entry.identity.str)
  | some locked => do
      refuse (isOwn entry) registrySelfReference
        ("registry entry " ++ entry.identity.str ++ " references its own registry origin")
      refuse (!agreesWithLock entry locked) registryLockStale
        ("registry entry and lock disagree for " ++ entry.identity.str)
      refuse (entry.review.status != "approved") registryLockInvalid
        ("registry entry " ++ entry.identity.str ++ " is not approved")
      return (entry.identity, locked)

/-- `resolve_locked_references`: a resolved reference is what is locked for its identity. -/
def resolveLockedReferences (isOwn : RegistryEntry → Bool) (entries : List RegistryEntry) (lock : RegistryLock)
    (expectedInputsDigest : ObjectDigest) : Result (List (ArtifactIdentity × LockedArtifact)) := do
  refuse (decide (lock.registryInputsDigest ≠ expectedInputsDigest)) registryLockStale
    "registry lock does not match deterministic registry inputs"
  match firstDuplicate? RegistryEntry.identity [] entries with
  | some entry => error registryLockInvalid ("duplicate registry entry: " ++ entry.identity.str)
  | none =>
      (sortedBy (fun entry => [entry.identity.kind.value, entry.identity.name.value]) entries).mapM
        (resolveEntry isOwn lock)

end AgentArtifacts.Registry
