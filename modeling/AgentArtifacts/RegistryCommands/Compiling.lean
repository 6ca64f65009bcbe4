import AgentArtifacts.Maintenance.Workspace
import AgentArtifacts.RegistryCommands.Planning

/-!
# Locking and building a registry

The acquisitions of a registry's entries are handed over as a list. They are matched to the
entries by trial: an entry takes the one that is left and that it resolves from. What they
resolve to is written to the lock, and with the packages of the registry to the index.
-/

namespace AgentArtifacts.RegistryCommands

open Maintenance (NativeReferenceAcquisition AcquiredPackage acquiredPackage nativeRegistryContent lockedOf
  indexedOf)
open Native (SourceManifest parseSourceManifest)
open Registry (Executable entryAt lastKeyed? registryInputsDigest resolveLockedReferences)
open RegistrySchema (RegistryManifest RegistryEntry RegistryLock LockedArtifact parseRegistryManifest parseRegistryEntry
  parseRegistryLock registryLockToJson registryIndexToJson buildRegistryIndex)
open Schema (refuse)

instance : DecidableEq NativeReferenceAcquisition := fun first second =>
  decidable_of_iff (first.url = second.url ∧ first.requestedRef = second.requestedRef ∧
      first.resolvedCommit = second.resolvedCommit ∧ first.snapshot = second.snapshot) <| by
    cases first
    cases second
    simp

section Compiling

variable [StandardLibrary]

/-! ## Documents of the workspace -/

/-- `_source_manifest`. -/
def sourceManifest (files : List SnapshotEntry) : Result SourceManifest :=
  match (entryAt files "aart-source.json").filter SnapshotEntry.isFile with
  | none => commandError "registry workspace requires aart-source.json"
  | some marker => do
      let parsed ← parseSourceManifest marker.content
      refuse (parsed.artifactRoots != [⟨["artifacts"]⟩] ||
          !(parsed.collectionRoots == [] || parsed.collectionRoots == [⟨["collections"]⟩])) registryCommandInvalid
        "registry maintainer commands require canonical artifacts/ and collections/ roots"
      return parsed

def entryFile (file : SnapshotEntry) : Result RegistryEntry := do
  let parsed ← parseRegistryEntry file.content
  refuse (file.path.str != Maintenance.identityPath parsed.identity) registryCommandInvalid
    ("registry entry identity does not match its path: " ++ file.path.str)
  return parsed

/-- `_registry_inputs`. -/
def registryInputs (snapshot : SourceSnapshot) : Result (RegistryManifest × SourceManifest × List RegistryEntry) := do
  let current ← files snapshot
  match (entryAt current "aart-registry.json").filter SnapshotEntry.isFile with
  | none => commandError "registry workspace requires aart-registry.json"
  | some marker => do
      let registry ← parseRegistryManifest marker.content
      let source ← sourceManifest current
      refuse (registry.registryId != source.sourceId) registryCommandInvalid "registry and source identities differ"
      let entries ← (current.filter fun item => startsWith "entries/" item.path.str && item.isFile).mapM entryFile
      refuse (decide (¬ (entries.map (·.identity)).Nodup)) registryCommandInvalid
        "registry workspace contains duplicate entry identities"
      return (registry, source, entries)

/-! ## Acquisitions -/

structure ResolvedAcquisition where
  acquired : AcquiredPackage
  acquisition : NativeReferenceAcquisition

/-- The acquisitions that are left, and what was resolved of the others. -/
structure Matched where
  available : List NativeReferenceAcquisition
  resolved : List (ArtifactIdentity × ResolvedAcquisition) := []

/-- What an entry resolves to from an acquisition, if it does. -/
def resolvedFrom (executable : Executable) (entry : RegistryEntry) (acquisition : NativeReferenceAcquisition) :
    Option ResolvedAcquisition :=
  (acquiredPackage executable entry acquisition).toOption.map fun acquired => ⟨acquired, acquisition⟩

def matchEntry (executable : Executable) (state : Matched) (entry : RegistryEntry) : Result Matched :=
  match state.available.filterMap (resolvedFrom executable entry) with
  | [found] => .ok ⟨state.available.erase found.acquisition, state.resolved ++ [(entry.identity, found)]⟩
  | _ => commandError ("registry acquisition is missing or ambiguous for " ++ entry.identity.str)

/-- `_acquisitions_by_identity`. -/
def acquisitionsByIdentity (executable : Executable) (entries : List RegistryEntry)
    (acquisitions : List NativeReferenceAcquisition) : Result (List (ArtifactIdentity × ResolvedAcquisition)) := do
  refuse (entries.length != acquisitions.length) registryCommandInvalid
    "registry lock/build requires one acquisition per entry"
  let state ← entries.foldlM (matchEntry executable) { available := acquisitions }
  return state.resolved

/-- `_acquire_entries`. -/
def acquireEntries (acquire : String → String → Result NativeReferenceAcquisition) (entries : List RegistryEntry) :
    Result (List NativeReferenceAcquisition) :=
  entries.mapM fun entry => do
    refuse (entry.review.status != "approved") registryCommandInvalid
      ("refusing to acquire unapproved reference " ++ entry.identity.str)
    acquire entry.source.url entry.source.ref

/-- `resolved[identity]`. -/
def resolvedEntry (resolved : List (ArtifactIdentity × ResolvedAcquisition)) (entry : RegistryEntry) :
    Result ResolvedAcquisition :=
  match lastKeyed? resolved entry.identity with
  | none => raised entry.identity.str
  | some found => .ok found

/-! ## Lock and index -/

def lockedEntry (resolved : List (ArtifactIdentity × ResolvedAcquisition)) (entry : RegistryEntry) :
    Result (ArtifactIdentity × LockedArtifact) := do
  let found ← resolvedEntry resolved entry
  return (entry.identity, lockedOf entry found.acquisition found.acquired)

/-- `plan_registry_lock`. -/
def planRegistryLock (executable : Executable) (snapshot : SourceSnapshot)
    (acquisitions : List NativeReferenceAcquisition) : Result RegistryWorkspacePlan := do
  let (registry, _, entries) ← registryInputs snapshot
  let current ← files snapshot
  let _ ← nativeRegistryContent executable snapshot current registry
  refuse (entries.any fun entry => entry.review.status != "approved") registryCommandInvalid
    "registry lock requires every authored entry to be approved"
  let resolved ← acquisitionsByIdentity executable entries acquisitions
  let inputs ← registryInputsDigest snapshot
  let locked ← entries.mapM (lockedEntry resolved)
  let lock : RegistryLock := ⟨1, inputs, locked⟩
  planWorkspace .lock snapshot [⟨"aart.lock.json", canonicalJsonBytes (registryLockToJson lock), false⟩] none

/-- The `==` of locked artifacts, in which versions that differ in build metadata only are equal. -/
def sameLocked (a b : LockedArtifact) : Bool :=
  a.artifactVersion.samePrecedence b.artifactVersion && { a with artifactVersion := b.artifactVersion } == b

/-- The row of an entry whose acquired package is the one that is locked. -/
def builtRow (lock : RegistryLock) (resolved : List (ArtifactIdentity × ResolvedAcquisition)) (entry : RegistryEntry) :
    Result Registry.IndexArtifact := do
  let found ← resolvedEntry resolved entry
  refuse (!(lastKeyed? lock.entries entry.identity).any fun locked =>
      sameLocked locked (lockedOf entry found.acquisition found.acquired)) registryCommandInvalid
    ("acquired package does not match lock for " ++ entry.identity.str)
  return indexedOf entry found.acquired

/-- `plan_registry_build`. -/
def planRegistryBuild (executable : Executable) (snapshot : SourceSnapshot)
    (acquisitions : List NativeReferenceAcquisition) : Result RegistryWorkspacePlan := do
  let (registry, _, entries) ← registryInputs snapshot
  let current ← files snapshot
  match (entryAt current "aart.lock.json").filter SnapshotEntry.isFile with
  | none => commandError "registry build requires a valid aart.lock.json"
  | some lockFile => do
      let lock ← parseRegistryLock lockFile.content
      let inputs ← registryInputsDigest snapshot
      let _ ← resolveLockedReferences (fun _ => false) entries lock inputs
      let resolved ← acquisitionsByIdentity executable entries acquisitions
      let (owned, collections) ← nativeRegistryContent executable snapshot current registry
      let rows ← entries.mapM (builtRow lock resolved)
      let index ← buildRegistryIndex registry inputs (owned ++ rows) collections
      planWorkspace .build snapshot [⟨"aart.index.json", canonicalJsonBytes (registryIndexToJson index), false⟩] none

end Compiling

end AgentArtifacts.RegistryCommands
