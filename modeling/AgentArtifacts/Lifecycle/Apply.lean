import AgentArtifacts.Lifecycle.Model

/-!
# Applying an uninstall plan

The adapter re-reads manifest, index and destinations, mutates the destinations
with a verification read after each, replaces the manifest, releases the
installed reference, and compensates in the reverse order when a step raises.
Reclaiming emptied directories and the manifest comes after the proven removal
and never fails the call.
-/

namespace AgentArtifacts

variable [StandardLibrary]

/-! ## Failing steps -/

/-- Which steps of one call fail, and how. Operations are named by their place
in the plan; `emptied` tells which directories are removed as empty. -/
structure UninstallFaults where
  lock : Option String := none
  change : Nat → Option WriteFault := fun _ => none
  state : Option WriteFault := none
  release : ReferenceFault := .none
  restoreReference : ReferenceFault := .none
  restoreState : Option WriteFault := none
  restore : Nat → Option WriteFault := fun _ => none
  emptied : String → Bool := fun _ => false
  reclaimState : Option String := none
  reclaimLock : Option String := none

/-! ## Destinations -/

/-- The node a mutation leaves at its destination. -/
def Mutation.apply (mutation : Mutation) (current : Node) : Except String Node :=
  match mutation with
  | .none => .ok current
  | .remove => .ok .absent
  | .write content => atomicWrite content current

/-- What the verification read after a mutation complains about. -/
def verifyMutation (operation : UninstallOperation) (observed : Result Observed) : Option String :=
  match observed with
  | .error diagnostics => some (messages diagnostics)
  | .ok state =>
      match operation.mutation with
      | .none => none
      | .remove =>
          if state.kind = "absent" then none
          else some ("destination removal did not take effect: " ++ operation.effect.destination)
      | .write content =>
          if state.kind = "file" ∧ state.digest? = some (fileSnapshotDigest content false) then none
          else some ("destination replacement did not take effect: " ++ operation.effect.destination)

def applyUninstallOperation (fault : Option WriteFault) (operation : UninstallOperation)
    (world : World) : World × Option String :=
  let path := operation.absoluteDestination
  let step := settle fault (world.files path) (operation.mutation.apply (world.files path))
  let after := world.setFile path step.1
  match step.2 with
  | some message => (after, some message)
  | none => (after, verifyMutation operation (after.inspectPath path))

/-- The loop over the operations up to the first failure. -/
structure UninstallProgress where
  world : World
  attempted : List (UninstallOperation × Nat) := []
  error : Option String := none

def applyUninstallOperations (faults : UninstallFaults) :
    List (UninstallOperation × Nat) → UninstallProgress → UninstallProgress
  | [], progress => progress
  | (operation, place) :: rest, progress =>
      if operation.mutation.changes then
        let step := applyUninstallOperation (faults.change place) operation progress.world
        let reached : UninstallProgress :=
          ⟨step.1, progress.attempted ++ [(operation, place)], step.2⟩
        match step.2 with
        | some _ => reached
        | none => applyUninstallOperations faults rest reached
      else applyUninstallOperations faults rest progress

variable [ManifestCodec]

/-! ## Manifest and reference -/

def replaceState (faults : UninstallFaults) (plan : UninstallPlan) (world : World) :
    World × Option String :=
  let content := installStateBytes plan.replacementState
  let step := settle faults.state (world.manifests plan.statePath)
    (atomicWrite content (world.manifests plan.statePath))
  let after := world.setManifest plan.statePath step.1
  match step.2 with
  | some message => (after, some message)
  | none =>
      match after.inspectState plan.statePath with
      | .error diagnostics => (after, some (messages diagnostics))
      | .ok state =>
          if state.kind = "file" ∧ state.digest? = some (fileSnapshotDigest content false) then
            (after, none)
          else (after, some "installation state replacement did not take effect")

/-- How the release of the installed reference ended: whether the compensation
has to restore the reference, and the warning or what was raised. -/
structure Release where
  world : World
  released : Bool
  result : Except String String

def releaseReference (fault : ReferenceFault) (plan : UninstallPlan) (world : World) : Release :=
  match replaceReferences fault world.references .installed plan.referenceOwner [] with
  | none => ⟨world, false, .error "reference index is invalid"⟩
  | some (index, .error diagnostics) =>
      if index = plan.referenceReplacement then
        ⟨world.setReferences index, true,
          .ok "object reference released; store-lock cleanup reported a warning"⟩
      else ⟨world.setReferences index, false, .error (messages diagnostics)⟩
  | some (index, .ok updated) =>
      if updated ≠ plan.referenceReplacement ∨ index ≠ plan.referenceReplacement then
        ⟨world.setReferences index,
          (index.ownerDigests .installed plan.referenceOwner).isEmpty,
          .error "object references changed after Review"⟩
      else ⟨world.setReferences index, true, .ok ""⟩

/-! ## The forward phase -/

structure UninstallForward where
  world : World
  attempted : List (UninstallOperation × Nat) := []
  stateAttempted : Bool := false
  released : Bool := false
  result : Except String String

def uninstallForward (faults : UninstallFaults) (plan : UninstallPlan) (world : World) :
    UninstallForward :=
  let progress := applyUninstallOperations faults plan.operations.zipIdx { world := world }
  match progress.error with
  | some message =>
      { world := progress.world, attempted := progress.attempted, result := .error message }
  | none =>
      let written := replaceState faults plan progress.world
      match written.2 with
      | some message =>
          { world := written.1, attempted := progress.attempted, stateAttempted := true
            result := .error message }
      | none =>
          let release := releaseReference faults.release plan written.1
          { world := release.world, attempted := progress.attempted, stateAttempted := true
            released := release.released, result := release.result }

/-! ## Compensation -/

/-- The index after the reference was restored, if the index could be built, and
the errors of the restore. -/
def rollbackReference (fault : ReferenceFault) (plan : UninstallPlan) (world : World) :
    Option (World × List String) :=
  let expected := plan.referencePrecondition.ownerDigests .installed plan.referenceOwner
  (replaceReferences fault world.references .installed plan.referenceOwner expected).map
    fun (index, _) =>
      (world.setReferences index,
        if index.ownerDigests .installed plan.referenceOwner = expected then []
        else ["installed object reference restore failed"])

def rollbackState (faults : UninstallFaults) (plan : UninstallPlan) (world : World) :
    World × List String :=
  let step := settle faults.restoreState (world.manifests plan.statePath)
    (restoredNode plan.statePrecondition)
  let after := world.setManifest plan.statePath step.1
  match step.2 with
  | some message => (after, ["state: " ++ message])
  | none =>
      (after, if after.inspectState plan.statePath = .ok plan.statePrecondition then []
        else ["state: restore verification failed"])

/-- Restores in the given order, each followed by a verification read. -/
def rollbackOperations (faults : UninstallFaults) :
    List (UninstallOperation × Nat) → World → World × List String
  | [], world => (world, [])
  | (operation, place) :: rest, world =>
      let path := operation.absoluteDestination
      let step := settle (faults.restore place) (world.files path) (restoredNode operation.precondition)
      let after := world.setFile path step.1
      let errors := match step.2 with
        | some message => [operation.effect.destination ++ ": " ++ message]
        | none =>
            if after.inspectPath path = .ok operation.precondition then []
            else [operation.effect.destination ++ ": restore verification failed"]
      let later := rollbackOperations faults rest after
      (later.1, errors ++ later.2)

/-- `none` when restoring the reference raised. -/
def rollbackUninstall (faults : UninstallFaults) (plan : UninstallPlan) (stopped : UninstallForward) :
    Option (World × List String) :=
  let reference :=
    if stopped.released then rollbackReference faults.restoreReference plan stopped.world
    else some (stopped.world, [])
  reference.map fun (world, referenceErrors) =>
    let state := if stopped.stateAttempted then rollbackState faults plan world else (world, [])
    let operations := rollbackOperations faults stopped.attempted.reverse state.1
    (operations.1, referenceErrors ++ state.2 ++ operations.2)

/-! ## Teardown -/

/-- Only a real directory goes, and only while it is empty. -/
def removeIfEmpty (emptied : String → Bool) (world : World) (path : String) : World :=
  match world.files path with
  | .directory _ | .unreadable _ => if emptied path then world.setFile path .absent else world
  | _ => world

/-- What could not be reclaimed is reported, never raised. -/
def tearDown (faults : UninstallFaults) (teardown : ScopeTeardown) (world : World) : World × String :=
  let pruned := teardown.directories.foldl (removeIfEmpty faults.emptied) world
  if !teardown.reclaimsState then (pruned, "")
  else
    match faults.reclaimState with
    | some message => (pruned, "installation state left in place: " ++ message)
    | none =>
        let reclaimed := pruned.setManifest teardown.statePath .absent
        match faults.reclaimLock with
        | some message => (reclaimed, "installation state left in place: " ++ message)
        | none => (removeIfEmpty faults.emptied reclaimed teardown.stateRoot, "")

/-! ## The call -/

/-- The world after a call and its item; a call without an item let an exception escape. -/
structure UninstallReport where
  world : World
  item : Option LifecycleItem

def removedEffect (operation : UninstallOperation) : LifecycleEffect :=
  ⟨operation.effect.kind, operation.effect.destination,
    if operation.mutation.changes then .changed else .current, ""⟩

def conflictItem (plan : UninstallPlan) (detail : String) : LifecycleItem :=
  ⟨LifecycleKey.fromRecord plan.record, .conflict, [], ⟨detail, []⟩⟩

/-- Whether the reviewed manifest and index are still in place. -/
def storesAsReviewed (world : World) (plan : UninstallPlan) : Bool :=
  world.inspectState plan.statePath == .ok plan.statePrecondition &&
    world.references == plan.referencePrecondition

def destinationAsReviewed (world : World) (operation : UninstallOperation) : Bool :=
  world.inspectPath operation.absoluteDestination == .ok operation.precondition

def applyUninstallPlan (faults : UninstallFaults) (world : World) (plan : UninstallPlan) :
    UninstallReport :=
  let failed (detail : EffectDetail) : LifecycleItem :=
    ⟨LifecycleKey.fromRecord plan.record, .failed, [], detail⟩
  match faults.lock with
  | some message => ⟨world, some (failed ⟨message, []⟩)⟩
  | none =>
      if !storesAsReviewed world plan then
        ⟨world, some (conflictItem plan "state or object references changed after Review")⟩
      else
        match plan.operations.find? fun operation => !destinationAsReviewed world operation with
        | some operation =>
            ⟨world, some (conflictItem plan
              ("destination changed after Review: " ++ operation.effect.destination))⟩
        | none =>
            let stopped := uninstallForward faults plan world
            match stopped.result with
            | .ok warning =>
                let torn := match plan.teardown with
                  | none => (stopped.world, "")
                  | some teardown => tearDown faults teardown stopped.world
                ⟨torn.1, some ⟨LifecycleKey.fromRecord plan.record, .removed,
                  plan.operations.map removedEffect,
                  ⟨String.intercalate "; " ([warning, torn.2].filter (· != "")), []⟩⟩⟩
            | .error message =>
                match rollbackUninstall faults plan stopped with
                | none => ⟨stopped.world, none⟩
                | some (restored, errors) => ⟨restored, some (failed ⟨message, errors⟩)⟩

end AgentArtifacts
