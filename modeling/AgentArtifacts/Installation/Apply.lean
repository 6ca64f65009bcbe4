import AgentArtifacts.Installation.Steps

/-!
# Applying an installation plan

`applyPlan` is the adapter's transaction: it retains the object under a
transaction reference, writes the destinations and the manifest, moves the
reference to the installation and compensates when a step fails. Every step
that touches the disk or the reference index may fail, and a failed write may
leave anything behind.
-/

namespace AgentArtifacts

variable [StandardLibrary] [ManifestCodec]

/-! ## Outcomes -/

inductive InstallStatus where
  | applied
  | current
  | conflicted
  | failed
deriving DecidableEq

inductive EffectStatus where
  | changed
  | current
  | skipped
  | failed
  | rolledBack
deriving DecidableEq

/-- The text of a detail, kept apart from the errors a rollback appended to it. -/
structure EffectDetail where
  text : String
  rollbackErrors : List String := []
deriving DecidableEq

def EffectDetail.render (detail : EffectDetail) : String :=
  if detail.rollbackErrors.isEmpty then detail.text
  else detail.text ++ "; rollback incomplete: " ++ String.intercalate "; " detail.rollbackErrors

structure EffectOutcome where
  kind : EffectKind
  destination : String
  status : EffectStatus
  detail : Option EffectDetail := none
deriving DecidableEq

structure InstallOutcome where
  status : InstallStatus
  effects : List EffectOutcome
  stateWritten : Bool
deriving DecidableEq

/-- No effect of the outcome reports an incomplete rollback. -/
def InstallOutcome.rollbackComplete (outcome : InstallOutcome) : Bool :=
  outcome.effects.all fun effect =>
    match effect.detail with
    | none => true
    | some detail => detail.rollbackErrors.isEmpty

/-! ## Failing steps -/

/-- Which steps of one call fail, and how. Destinations are named by path. -/
structure InstallFaults where
  lock : Option String := none
  retain : ReferenceFault := .none
  write : String → Option WriteFault := fun _ => none
  state : Option WriteFault := none
  installed : ReferenceFault := .none
  release : ReferenceFault := .none
  restore : String → Option WriteFault := fun _ => none
  restoreState : Option WriteFault := none
  cleanup : ReferenceFault := .none

/-! ## Preconditions -/

def linkBoundary (plan : InstallPlan) : LinkSemantics → String
  | .mutableLocal => plan.source.origin
  | .immutableObject => plan.objectRoot

def operationPreconditionCurrent (world : World) (plan : InstallPlan) (operation : InstallOperation) :
    Bool :=
  (match operation.action with
    | .link _ target targetState semantics =>
        world.inspectLinkTarget target (linkBoundary plan semantics) == .ok targetState
    | _ => true) &&
    world.inspectPath operation.absoluteDestination == .ok operation.precondition

def preconditionsCurrent (world : World) (plan : InstallPlan) : Bool :=
  world.objects plan.objectDigest == some ⟨plan.objectCandidate, plan.objectRoot⟩ &&
    plan.operations.all (operationPreconditionCurrent world plan) &&
    world.inspectState plan.statePath == .ok plan.statePrecondition

/-! ## Operations -/

/-- The node an operation leaves at its destination. -/
def intendedNode (operation : InstallOperation) : Node :=
  match operation.action with
  | .copyTree _ tree => .directory tree
  | .writeFile _ content executable _ _ => .file content executable
  | .link _ target _ _ => .symlink target
  | .mergeJson _ _ _ _ _ content => .file content false

/-- A written link has to lead to the reviewed target. -/
def linkPostcondition (world : World) (plan : InstallPlan) (operation : InstallOperation) : Bool :=
  match operation.action with
  | .link _ target targetState semantics =>
      world.inspectLinkTarget target (linkBoundary plan semantics) == .ok targetState &&
        world.inspectPath operation.absoluteDestination == .ok (.symlink target true)
  | _ => true

def applyOperation (faults : InstallFaults) (plan : InstallPlan) (operation : InstallOperation)
    (world : World) : World × Option String :=
  let path := operation.absoluteDestination
  let step := settle (faults.write path) (world.files path) (.ok (intendedNode operation))
  let after := world.setFile path step.1
  match step.2 with
  | some message => (after, some message)
  | none =>
      if linkPostcondition after plan operation then (after, none)
      else (after, some "installed link postcondition does not match Review")

/-- The loop over the operations up to the first failure. -/
structure Progress where
  world : World
  attempted : List InstallOperation := []
  applied : List InstallOperation := []
  failed : Option (InstallOperation × String) := none

def applyOperations (faults : InstallFaults) (plan : InstallPlan) :
    List InstallOperation → Progress → Progress
  | [], progress => progress
  | operation :: rest, progress =>
      if operationIsCurrent operation then applyOperations faults plan rest progress
      else
        let step := applyOperation faults plan operation progress.world
        match step.2 with
        | some message =>
            { progress with
              world := step.1
              attempted := progress.attempted ++ [operation]
              failed := some (operation, message) }
        | none =>
            applyOperations faults plan rest
              { progress with
                world := step.1
                attempted := progress.attempted ++ [operation]
                applied := progress.applied ++ [operation] }

/-! ## The forward phase -/

def transactionOwner (plan : InstallPlan) : String := "transaction/" ++ plan.referenceOwner

def stateIsCurrent (plan : InstallPlan) : Bool :=
  match plan.statePrecondition with
  | .file content _ => content == installStateBytes plan.replacementState
  | _ => false

/-- Where the forward phase stopped and what was raised there. -/
structure Forward where
  world : World
  attempted : List InstallOperation := []
  applied : List InstallOperation := []
  failedAt : Option InstallOperation := none
  stateAttempted : Bool := false
  transactionRetained : Bool := false
  error : Option Raised := none

/-- The manifest write, skipped when the manifest already holds the new state. -/
def writeState (faults : InstallFaults) (plan : InstallPlan) (world : World) : World × Option String :=
  if stateIsCurrent plan then (world, none)
  else
    let step := settle faults.state (world.manifests plan.statePath)
      (atomicWrite (installStateBytes plan.replacementState) (world.manifests plan.statePath))
    (world.setManifest plan.statePath step.1, step.2)

/-- Everything up to the moment the installation owns its object. -/
def forward (faults : InstallFaults) (plan : InstallPlan) (world : World) : Forward :=
  let retained := updateReferences faults.retain world .transaction (transactionOwner plan)
    [plan.objectDigest] "cannot retain transaction object reference"
  match retained.2 with
  | some raised => { world := retained.1, error := some raised }
  | none =>
      let progress := applyOperations faults plan plan.operations { world := retained.1 }
      match progress.failed with
      | some (operation, message) =>
          { world := progress.world
            attempted := progress.attempted
            applied := progress.applied
            failedAt := some operation
            transactionRetained := true
            error := some (.caught message) }
      | none =>
          let written := writeState faults plan progress.world
          let reached : Forward :=
            { world := written.1
              attempted := progress.attempted
              applied := progress.applied
              stateAttempted := !stateIsCurrent plan
              transactionRetained := true
              error := written.2.map .caught }
          match written.2 with
          | some _ => reached
          | none =>
              let referenced := updateReferences faults.installed written.1 .installed
                plan.referenceOwner [plan.objectDigest] "cannot retain installed object reference"
              { reached with world := referenced.1, error := referenced.2 }

/-! ## Rollback -/

def InstallOperation.restoration (operation : InstallOperation) : Restoration :=
  ⟨operation.absoluteDestination, operation.destination, operation.precondition⟩

def rollbackManifest (faults : InstallFaults) (plan : InstallPlan) (stopped : Forward) :
    World × List String :=
  if stopped.stateAttempted then
    let result := restoreFiles (fun _ => faults.restoreState)
      [⟨plan.statePath, "state", plan.statePrecondition⟩] stopped.world.manifests
    ({ stopped.world with manifests := result.1 }, result.2)
  else (stopped.world, [])

/-- The world after the restores and the errors of the restores. -/
def restoreWorld (faults : InstallFaults) (plan : InstallPlan) (stopped : Forward) :
    World × List String :=
  let manifest := rollbackManifest faults plan stopped
  let result := restoreFiles faults.restore
    (stopped.attempted.reverse.map InstallOperation.restoration) manifest.1.files
  ({ manifest.1 with files := result.1 }, manifest.2 ++ result.2)

/-- The transaction reference is released when it was retained. -/
def releaseTransaction (fault : ReferenceFault) (plan : InstallPlan) (retained : Bool)
    (world : World) : World × Option Raised :=
  if retained then
    updateReferences fault world .transaction (transactionOwner plan) [] ""
  else (world, none)

/-- What a failed call reports for one operation. -/
def failureEffect (stopped : Forward) (message : String) (rollbackErrors : List String)
    (operation : InstallOperation) : EffectOutcome :=
  let outcome (status : EffectStatus) (errors : List String) : EffectOutcome :=
    ⟨operation.effectKind, operation.destination, status, some ⟨message, errors⟩⟩
  if stopped.failedAt = some operation then outcome .failed rollbackErrors
  else if operation ∈ stopped.applied then outcome .rolledBack []
  else if operationIsCurrent operation then outcome .current []
  else outcome .skipped []

/-! ## The call -/

/-- The world after a call, its outcome, and the errors of its restores. A call
without an outcome let an exception of the index constructor escape. -/
structure ApplyReport where
  world : World
  outcome : Option InstallOutcome
  restoreErrors : List String := []

def failWith (faults : InstallFaults) (plan : InstallPlan) (stopped : Forward) (message : String) :
    ApplyReport :=
  let restored := restoreWorld faults plan stopped
  let released := releaseTransaction faults.cleanup plan stopped.transactionRetained restored.1
  let report (pending : List String) : ApplyReport :=
    ⟨released.1,
      some ⟨.failed,
        plan.operations.map (failureEffect stopped message (restored.2 ++ pending)), false⟩,
      restored.2⟩
  match released.2 with
  | none => report []
  | some (.caught _) => report ["transaction object reference cleanup is pending"]
  | some .escaped => ⟨released.1, none, restored.2⟩

def successEffect (operation : InstallOperation) : EffectOutcome :=
  ⟨operation.effectKind, operation.destination,
    if operationIsCurrent operation then .current else .changed, none⟩

/-- A failed release is only reported on the first effect. -/
def successEffects (operations : List InstallOperation) (releaseFailed : Bool) : List EffectOutcome :=
  match operations.map successEffect with
  | [] => []
  | first :: rest =>
      (if releaseFailed then
        { first with
          detail := some ⟨"installed safely; stale transaction reference cleanup is pending", []⟩ }
      else first) :: rest

def applyPlan (faults : InstallFaults) (world : World) (plan : InstallPlan) : ApplyReport :=
  match faults.lock with
  | some message => failWith faults plan { world := world } message
  | none =>
      if preconditionsCurrent world plan then
        let stopped := forward faults plan world
        match stopped.error with
        | some .escaped => ⟨stopped.world, none, []⟩
        | some (.caught message) => failWith faults plan stopped message
        | none =>
            let released := updateReferences faults.release stopped.world .transaction
              (transactionOwner plan) [] ""
            if released.2 = some .escaped then ⟨released.1, none, []⟩
            else
              ⟨released.1,
                some ⟨if stopped.applied.isEmpty && !stopped.stateAttempted then .current else .applied,
                  successEffects plan.operations released.2.isSome, stopped.stateAttempted⟩,
                []⟩
      else
        ⟨world,
          some ⟨.conflicted,
            plan.operations.map fun operation =>
              ⟨operation.effectKind, operation.destination, .skipped,
                some ⟨"precondition changed while acquiring install lock", []⟩⟩,
            false⟩,
          []⟩

end AgentArtifacts
