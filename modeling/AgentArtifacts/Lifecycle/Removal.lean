import AgentArtifacts.Installation.JsonMerge
import AgentArtifacts.Installation.MemoryBlock
import AgentArtifacts.Lifecycle.Model

/-!
# Status and removal of recorded effects

What a recorded effect looks like on disk and the mutation that takes it back.
A merged member is found by its recorded identity, a memory block by its
markers, copied content by its digest; an effect that displaced foreign content
gives the bytes of its sidecar back.
-/

namespace AgentArtifacts

variable [StandardLibrary]

/-! ## Merged members -/

/-- The value at a dotted path; the empty path is the document. -/
def navigate (root : Json) (path : String) : Option Json := root.member (pathParts path)

/-- Where a merged member was found. -/
inductive MergePlace where
  | key (name : String)
  | index (place : Nat)
deriving DecidableEq

structure MergeMatch where
  path : String
  place : MergePlace
  value : Json
deriving DecidableEq

/-- Whether a value has every recorded identity field with its recorded value. -/
def hasIdentity (value : Json) (evidence : Dict) : Bool :=
  evidence.all fun entry =>
    match value.identityValue entry.1 with
    | none => false
    | some actual => actual.pyEq entry.2

def mergeMatches (effect : EffectProof) (root : Json) : List MergeMatch :=
  let path := effect.jsonPath.getD ""
  match effect.mergeMode, effect.identityEvidence with
  | some .key, .arr [.str key] =>
      match navigate root path with
      | some (.obj container) =>
          match Dict.get? container key with
          | some value => [⟨path, .key key, value⟩]
          | none => []
      | _ => []
  | some .list, .obj evidence =>
      match navigate root path with
      | some (.arr items) =>
          (items.zipIdx.filter fun item => hasIdentity item.1 evidence).map fun item =>
            ⟨path, .index item.2, item.1⟩
      | _ => []
  | _, _ => []

/-- The steps of a path as repeated partition reads them. -/
def partitionParts (path : String) : List String :=
  if path = "" then []
  else
    let parts := splitChar '.' path
    if parts.getLast? = some "" then parts.dropLast else parts

def replaceAt (replacement : Json) : List String → Json → Option Json
  | [], _ => some replacement
  | part :: rest, .obj entries => do
      let child ← Dict.get? entries part
      let updated ← replaceAt replacement rest child
      return .obj (entries.map fun entry => (entry.1, if entry.1 = part then updated else entry.2))
  | _ :: _, _ => none

/-- The document without the one member that carries the identity. -/
def removeMergeIdentity (effect : EffectProof) (root : Json) : Option Json :=
  match mergeMatches effect root with
  | [found] => do
      let container ← navigate root found.path
      let replacement ← match found.place, container with
        | .key name, .obj entries => some (.obj (entries.filter fun entry => entry.1 ≠ name))
        | .index place, .arr items => some (.arr (items.eraseIdx place))
        | _, _ => none
      replaceAt replacement (partitionParts found.path) root
  | _ => none

/-- Whether a document holds nothing but the empty containers of a path. -/
def isBareContainerChain : Json → List String → Bool
  | .obj entries, [] => entries.isEmpty
  | .arr items, [] => items.isEmpty
  | _, [] => false
  | .obj [(key, child)], part :: rest => key == part && isBareContainerChain child rest
  | _, _ :: _ => false

/-! ## Status -/

def mergeEffectStatus (effect : EffectProof) (snapshot : Observed) : LifecycleStatus :=
  match snapshot with
  | .absent => .missing
  | .file content _ =>
      if effect.identityEvidence = .null then .drifted
      else
        match parseJson content with
        | .error _ => .drifted
        | .ok root =>
            match mergeMatches effect root with
            | [] =>
                match navigate root (effect.jsonPath.getD ""), effect.mergeMode with
                | none, _ => .missing
                | some (.arr items), some .list => if items.isEmpty then .missing else .drifted
                | some _, some .list => .drifted
                | some (.obj _), _ => .missing
                | some _, _ => .drifted
            | [found] => if jsonDigest found.value = effect.installedDigest then .current else .drifted
            | _ => .drifted
  | _ => .drifted

def managedBlockStatus (name : String) (snapshot : Observed) : LifecycleStatus :=
  match snapshot with
  | .absent => .missing
  | .file content _ =>
      match decodeUtf8 content with
      | none => .drifted
      | some text =>
          let first := (beginMarker name).toList
          let last := (endMarker name).toList
          match Text.partition? first text.toList, Text.partition? last text.toList with
          | none, none => .missing
          | some (before, _), some (upto, _) =>
              if upto.length < before.length then .drifted
              else if Text.count first text.toList = 1 ∧ Text.count last text.toList = 1 then .current
              else .drifted
          | _, _ => .drifted
  | _ => .drifted

def linkStatus (effect : EffectProof) (snapshot : Observed) : LifecycleStatus :=
  match snapshot with
  | .absent => .missing
  | .symlink target targetExists =>
      if effect.linkTarget ≠ some target then .retargeted
      else if targetExists then .current
      else .broken
  | _ => .replaced

/-- The kind of snapshot that copied content of an effect has. -/
def expectedKind (kind : EffectKind) : String := if kind = .copyTree then "tree" else "file"

def ownsCopy (effect : EffectProof) (snapshot : Observed) : Bool :=
  snapshot.kind == expectedKind effect.kind && snapshot.digest? == some effect.installedDigest

def effectStatus (record : InstallationRecord) (effect : EffectProof) (snapshot : Observed) :
    LifecycleStatus :=
  match effect.kind with
  | .symlinkFile | .symlinkTree => linkStatus effect snapshot
  | .mergeJson => mergeEffectStatus effect snapshot
  | .managedBlock => managedBlockStatus record.artifact.identity.name.value snapshot
  | .copyTree | .writeFile =>
      if snapshot.isAbsent then .missing
      else if ownsCopy effect snapshot then .current
      else .drifted

def LifecycleStatus.value : LifecycleStatus → String
  | .current => "current"
  | .updateAvailable => "update-available"
  | .changed => "changed"
  | .removed => "removed"
  | .removedUpstream => "removed-upstream"
  | .sourceUnavailable => "source-unavailable"
  | .identityChanged => "identity-changed"
  | .missing => "missing"
  | .drifted => "drifted"
  | .broken => "broken"
  | .retargeted => "retargeted"
  | .replaced => "replaced"
  | .conflict => "conflict"
  | .failed => "failed"
  | .skipped => "skipped"

/-! ## Removal -/

def linkRemoval (effect : EffectProof) (snapshot : Observed) (force : Bool) : Except String Mutation :=
  match linkStatus effect snapshot with
  | .missing => .ok .none
  | .current | .broken => .ok .remove
  | status =>
      if force then .ok .remove
      else .error ("managed link is " ++ status.value ++ ": " ++ effect.destination)

def mergeRemoval (effect : EffectProof) (snapshot : Observed) (force : Bool) : Except String Mutation :=
  match snapshot with
  | .absent => .ok .none
  | .file content _ =>
      if effect.identityEvidence = .null then
        .error ("managed merge cannot be proven: " ++ effect.destination)
      else
        match parseJson content with
        | .error _ => .error ("managed merge JSON is invalid: " ++ effect.destination)
        | .ok root =>
            match mergeMatches effect root with
            | [] =>
                let drifted : Bool := match navigate root (effect.jsonPath.getD ""), effect.mergeMode with
                  | none, _ => false
                  | some (.arr items), some .list => !items.isEmpty
                  | some _, some .list => true
                  | some (.obj _), _ => false
                  | some _, _ => true
                if drifted && !force then
                  .error ("managed merge identity drifted: " ++ effect.destination)
                else .ok .none
            | [found] =>
                if jsonDigest found.value ≠ effect.installedDigest ∧ force = false then
                  .error ("managed merge drifted: " ++ effect.destination)
                else
                  match removeMergeIdentity effect root with
                  | none => .error ("managed merge cannot be reversed: " ++ effect.destination)
                  | some updated =>
                      -- A file the effect created goes when nothing but its containers is left.
                      if effect.createdDestination &&
                          isBareContainerChain updated (pathParts (effect.jsonPath.getD "")) then
                        .ok .remove
                      else .ok (.write (canonicalJsonBytes updated))
            | _ => .error ("managed merge identity is ambiguous: " ++ effect.destination)
  | _ => .error ("managed merge cannot be proven: " ++ effect.destination)

def blockRemoval (record : InstallationRecord) (effect : EffectProof) (snapshot : Observed) :
    Except String Mutation :=
  match snapshot with
  | .absent => .ok .none
  | .file content _ =>
      match stripManagedBlock record.artifact.identity.name.value content with
      | none => .error ("managed block markers drifted: " ++ effect.destination)
      | some stripped =>
          if stripped = content then .ok .none
          else if stripped = [] then .ok .remove
          else .ok (.write stripped)
  | _ => .error ("managed block destination changed type: " ++ effect.destination)

def copyRemoval (effect : EffectProof) (snapshot : Observed) (force : Bool) (restore : Option Observed) :
    Except String Mutation :=
  if snapshot.isAbsent then .ok .none
  else if !ownsCopy effect snapshot && !force then
    .error ("managed Copy destination drifted: " ++ effect.destination)
  else
    match effect.restoresFrom with
    | none => .ok .remove
    | some sidecar =>
        match restore with
        | some (.file content _) => .ok (.write content)
        | _ => .error ("replaced memory backup is missing: " ++ sidecar)

/-- The mutation that takes an effect back, or the conflict that forbids it. -/
def planRemoval (record : InstallationRecord) (effect : EffectProof) (snapshot : Observed)
    (force : Bool) (restore : Option Observed) : Except String Mutation :=
  match snapshot with
  | .special _ => .error ("unsafe special destination: " ++ effect.destination)
  | _ =>
      match effect.kind with
      | .symlinkFile | .symlinkTree => linkRemoval effect snapshot force
      | .mergeJson => mergeRemoval effect snapshot force
      | .managedBlock => blockRemoval record effect snapshot
      | .copyTree | .writeFile => copyRemoval effect snapshot force restore

end AgentArtifacts
