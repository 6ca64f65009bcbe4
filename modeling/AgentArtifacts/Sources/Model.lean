import AgentArtifacts.InstallState.Manifest
import AgentArtifacts.Marketplace
import AgentArtifacts.Registry.Model
import AgentArtifacts.Store.Objects

/-!
# Source acquisition, snapshot and persistence values

A candidate carries the proof that its digest binds its snapshot, so a port can
return any candidate but no forged one. The constructors of requests check
texts that come from a configuration; such a check raises and is no result.
-/

namespace AgentArtifacts

open Manifest (validDigest)

/-- A computation that raises the error of a constructor, or goes on with a value. -/
abbrev Raising (α : Type) := Except String α

def checked {α : Type} (condition : Bool) (text : String) (value : α) : Raising α :=
  if condition then .ok value else .error text

/-- Normalized and absolute. -/
def isRooted (path : String) : Bool := isAbs path && normPath path == path

/-- One non-empty line. -/
def isRevision (text : String) : Bool :=
  text != "" && !text.toList.any fun c => c == '\r' || c == '\n'

/-! ## Store paths -/

structure SourceInstanceId where
  value : String
deriving DecidableEq

def isInstanceId (value : String) : Bool :=
  ["git-", "local-", "registry-"].any fun head =>
    startsWith head value && (removePrefix head value).toList.length == 32 &&
      (removePrefix head value).toList.all isLowerHex

structure SourceStorePaths where
  root : String
  mirror : String
  snapshots : String
  currentFile : String
  lockDirectory : String
  temporaryRoot : String
deriving DecidableEq

def instancePrefix : SourceKind → String
  | .registryGit => "registry"
  | .sourceGit => "git"
  | .sourceLocal => "local"

section Paths

variable [StandardLibrary]

/-- The ref of a local source is the empty text. -/
def sourceInstanceId (source : ConfiguredSource) : Raising SourceInstanceId :=
  let digest := jsonDigest (.obj
    [("kind", .str source.kind.value), ("location", .str source.location), ("ref", .str (source.ref.getD ""))])
  let value := instancePrefix source.kind ++ "-" ++ String.ofList (digest.value.toList.take 32)
  checked (isInstanceId value) "source instance ID must be a canonical kind/digest value" ⟨value⟩

end Paths

def SourceStorePaths.all (paths : SourceStorePaths) : List String :=
  [paths.root, paths.mirror, paths.snapshots, paths.currentFile, paths.lockDirectory, paths.temporaryRoot]

def sourceStorePaths (dataRoot : String) (instanceId : SourceInstanceId) : Raising SourceStorePaths :=
  if !isRooted dataRoot then .error "source data root must be normalized and absolute"
  else
    let root := joinPath (joinPath dataRoot "sources") instanceId.value
    let paths : SourceStorePaths :=
      { root := root, mirror := joinPath root "mirror.git", snapshots := joinPath root "snapshots",
        currentFile := joinPath root "current.json", lockDirectory := joinPath root "sync.lock",
        temporaryRoot := joinPath root "tmp" }
    checked (paths.all.all isRooted) "source store paths must be normalized and absolute" paths

/-! ## Candidates -/

inductive SnapshotOrigin where
  | local
  | immutableGit
deriving DecidableEq

/-- The constructor sorts the entries by path. -/
structure SourceSnapshot where
  origin : SnapshotOrigin
  entries : List SnapshotEntry
  sorted : sortByPath entries = entries
deriving DecidableEq

def sourceInvalid : DiagnosticCode := ⟨"source-invalid"⟩

section Candidates

variable [StandardLibrary]

/-- One entry of a snapshot as it is hashed; the paths seen so far precede it. -/
def snapshotTreeEntry (seen : List String) (entry : SnapshotEntry) : Result TreeEntry :=
  let raw := entry.path.str
  if (parseRelativePath raw).toOption ≠ some entry.path ∨ raw ∈ seen then
    error sourceInvalid ("snapshot path is invalid or duplicated: " ++ pyRepr raw)
  else
    match entry.kind with
    | .directory =>
        if entry.content ≠ [] ∨ entry.executable = true then
          error sourceInvalid ("snapshot directory has file metadata: " ++ raw)
        else .ok (.directory entry.path)
    | .file => .ok (.file entry.path entry.executable entry.content.length (sha256Bytes entry.content))
    | kind => error sourceInvalid ("snapshot contains forbidden " ++ kind.value ++ ": " ++ raw)

def snapshotTree : List String → List SnapshotEntry → Result (List TreeEntry)
  | _, [] => .ok []
  | seen, entry :: rest => do
      let hashed ← snapshotTreeEntry seen entry
      let others ← snapshotTree (seen ++ [entry.path.str]) rest
      return hashed :: others

def sourceSnapshotDigest (snapshot : SourceSnapshot) : Result ObjectDigest := do
  let entries ← snapshotTree [] snapshot.entries
  treeDigest entries

/-- A candidate that its constructor accepted. -/
structure SourceCandidate where
  instanceId : SourceInstanceId
  sourceAlias : SourceAlias
  resolvedRevision : String
  snapshotDigest : ObjectDigest
  snapshot : SourceSnapshot
  revisionLine : isRevision resolvedRevision = true
  canonical : validDigest snapshotDigest = true
  binds : sourceSnapshotDigest snapshot = .ok snapshotDigest
deriving DecidableEq

structure ValidatedSourceCandidate where
  candidate : SourceCandidate
  declaredSourceId : SourceId
deriving DecidableEq

structure CurrentSource where
  candidate : SourceCandidate
  declaredSourceId : SourceId
  publishedAtEpochSeconds : Nat
  snapshotRoot : String
deriving DecidableEq

end Candidates

/-! ## Limits -/

def maxSnapshotLimits : List Nat := [10000, 10 * 1024 * 1024, 100 * 1024 * 1024, 64]

structure SnapshotLimits where
  maxFiles : Nat := 10000
  maxFileBytes : Nat := 10 * 1024 * 1024
  maxTotalBytes : Nat := 100 * 1024 * 1024
  maxDepth : Nat := 64
  bounded : ∀ value ∈ [maxFiles, maxFileBytes, maxTotalBytes, maxDepth].zip maxSnapshotLimits,
    0 < value.1 ∧ value.1 ≤ value.2 := by decide
deriving DecidableEq

/-! ## Requests -/

structure LocalSnapshotRequest where
  instanceId : SourceInstanceId
  sourceAlias : SourceAlias
  root : String
  limits : SnapshotLimits
deriving DecidableEq

def localSnapshotRequest (request : LocalSnapshotRequest) : Raising LocalSnapshotRequest :=
  checked (isRooted request.root) "local snapshot request requires an alias and normalized absolute root" request

structure GitSnapshotRequest where
  instanceId : SourceInstanceId
  sourceAlias : SourceAlias
  location : String
  ref : String
  mirrorPath : String
  temporaryRoot : String
  limits : SnapshotLimits
  timeoutSeconds : Nat
  allowLocalTransport : Bool := false
deriving DecidableEq

def gitSnapshotRequest (request : GitSnapshotRequest) : Raising GitSnapshotRequest :=
  if request.location = "" ∨ isRevision request.ref = false then
    .error "Git snapshot request identity is invalid"
  else if !([request.mirrorPath, request.temporaryRoot].all isRooted) then
    .error "Git snapshot paths must be normalized and absolute"
  else checked (request.timeoutSeconds != 0) "Git snapshot timeout/transport value is invalid" request

structure CurrentSourceRequest where
  paths : SourceStorePaths
  sourceAlias : SourceAlias
deriving DecidableEq

/-- The timeout is a float; any rational number stands for it. -/
structure SourceLockRequest where
  lockDirectory : String
  timeoutSeconds : Rat
  staleAfterSeconds : Int
deriving DecidableEq

def sourceLockRequest (request : SourceLockRequest) : Raising SourceLockRequest :=
  checked (isRooted request.lockDirectory && decide (0 < request.timeoutSeconds) &&
    decide (0 < request.staleAfterSeconds)) "source lock request is invalid" request

structure SourceLockLease where
  lockDirectory : String
  token : String
deriving DecidableEq

section Outcomes

variable [StandardLibrary]

structure SourceValidationRequest where
  candidate : SourceCandidate
  executableVersion : SemVer
  availableCapabilities : List Registry.Capability
deriving DecidableEq

structure SourcePublishCommand where
  paths : SourceStorePaths
  validated : ValidatedSourceCandidate
  observedAtEpochSeconds : Nat
deriving DecidableEq

structure SourcePublishReceipt where
  current : CurrentSource
deriving DecidableEq

/-! ## Health -/

structure SourceHealth where
  status : HealthStatus
  ageSeconds : Option Nat
  current : Option CurrentSource
  diagnostics : List Diagnostic := []
deriving DecidableEq

/-- Both clocks count from the epoch, and an age is never negative. -/
def assessSourceHealth (current : Option CurrentSource) (now maxAgeSeconds : Nat) (diagnostics : List Diagnostic) :
    SourceHealth :=
  match current with
  | none =>
      if diagnostics ≠ [] then ⟨.degraded, none, none, diagnostics⟩ else ⟨.missing, none, none, diagnostics⟩
  | some current =>
      let age := now - current.publishedAtEpochSeconds
      let status : HealthStatus :=
        if diagnostics ≠ [] then .degraded else if maxAgeSeconds < age then .stale else .healthy
      ⟨status, some age, some current, diagnostics⟩

end Outcomes

inductive SyncFallback where
  | requireFresh
  | allowLastKnownGood
deriving DecidableEq

inductive SyncDisposition where
  | published
  | unchanged
  | retained
deriving DecidableEq

structure SourceSyncOutcome [StandardLibrary] where
  disposition : SyncDisposition
  current : CurrentSource
  diagnostics : List Diagnostic := []
deriving DecidableEq

/-! ## Identity transitions -/

/-- One move from a subscribed identity to the identity an origin now declares. -/
structure TransitionData where
  fromSourceId : SourceId
  toSourceId : SourceId
  fromRevision : String
  toRevision : String
  fromDigest : ObjectDigest
  toDigest : ObjectDigest
deriving DecidableEq

/-- The checks of the constructor, in its order and with its messages. -/
def TransitionData.check (data : TransitionData) : Except String Unit :=
  if data.fromSourceId = data.toSourceId then
    .error "identity transition requires two different declared source IDs"
  else if !([data.fromRevision, data.toRevision].all isRevision) then
    .error "identity transition revisions must be one non-empty line"
  else if !([data.fromDigest, data.toDigest].all validDigest) then
    .error "identity transition digests must be canonical SHA-256"
  else .ok ()

structure SourceIdentityTransition extends TransitionData where
  accepted : toTransitionData.check = .ok ()
deriving DecidableEq

def sourceIdentityTransition (data : TransitionData) : Raising SourceIdentityTransition :=
  match h : data.check with
  | .error text => .error text
  | .ok () => .ok ⟨data, h⟩

theorem sourceIdentityTransition_eq_ok {data : TransitionData} {transition : SourceIdentityTransition}
    (h : sourceIdentityTransition data = .ok transition) : transition.toTransitionData = data := by
  unfold sourceIdentityTransition at h
  split at h
  · cases h
  · cases h
    rfl

section Transitions

variable [StandardLibrary]

def transitionData (current : CurrentSource) (validated : ValidatedSourceCandidate) : TransitionData :=
  ⟨current.declaredSourceId, validated.declaredSourceId, current.candidate.resolvedRevision,
    validated.candidate.resolvedRevision, current.candidate.snapshotDigest, validated.candidate.snapshotDigest⟩

end Transitions

end AgentArtifacts
