import AgentArtifacts.Marketplace
import AgentArtifacts.Store.References

/-!
# Installation plans

Requests, operations and the reviewed plan. An operation carries the state
observed at its destination; the path of that snapshot is the destination
itself. A plan exists only with the proof that it passed every check of its
constructor.
-/

namespace AgentArtifacts

/-! ## Requests and locations -/

structure InstallLocation where
  projectRoot : String
  userHome : String
  dataRoot : String
  projectRootAbsolute : isAbsolutePath projectRoot = true
  userHomeAbsolute : isAbsolutePath userHome = true
  dataRootAbsolute : isAbsolutePath dataRoot = true

structure InstallRequest where
  identity : ArtifactIdentity
  source : Option SourceAlias := none
  version : Option String := none
  profile : Slug
  profileVersion : Nat := 1
  platform : String := "darwin"
  scope : InstallScope := .project
  mode : InstallMode := .copy
  force : Bool := false
  offline : Bool := false
  memoryMode : MemoryMode := .prepend
  mutableLocalPayloadRoot : Option String := none
deriving DecidableEq

/-- Only links may follow a mutable local payload, and its root is absolute. -/
def InstallRequest.valid (request : InstallRequest) : Bool :=
  1 ≤ request.profileVersion && request.profileVersion ≤ 2 ^ 63 - 1 && request.platform != "" &&
    !pyIn "\n" request.platform &&
    (match request.mutableLocalPayloadRoot with
      | none => true
      | some root => request.mode == .symlink && isAbsolutePath root)

/-- The memory mode a record keeps; other kinds have none. -/
def InstallRequest.recordedMemoryMode (request : InstallRequest) : Option MemoryMode :=
  if request.identity.kind = .memory then some request.memoryMode else none

structure InstallStatePaths where
  destinationPath : String
  lockPath : String
deriving DecidableEq

def stateRoot (scope : InstallScope) (location : InstallLocation) : String :=
  match scope with
  | .project => joinPath location.projectRoot ".agent-artifacts"
  | .user => joinPath location.dataRoot "state"

def installStatePaths (scope : InstallScope) (location : InstallLocation) : InstallStatePaths :=
  ⟨joinPath (stateRoot scope location) "manifest.json", joinPath (stateRoot scope location) "state.lock"⟩

/-! ## Operations -/

/-- What an operation does at its destination. The digest and the kind of a
link target are those of the state observed at the target. -/
inductive OperationAction where
  | copyTree (sourcePath : String) (tree : DirectoryTree)
  | writeFile (sourcePath : String) (content : Bytes) (executable managedBlock : Bool)
      (restoresFrom : Option String)
  | link (sourcePath target : String) (targetState : Observed) (semantics : LinkSemantics)
  | mergeJson (jsonPath : String) (mergeMode : MergeMode) (identity : List String)
      (identityEvidence : Json) (valueDigest : ObjectDigest) (content : Bytes)
deriving DecidableEq

structure InstallOperation where
  destination : String
  absoluteDestination : String
  precondition : Observed
  overwrote : Bool
  action : OperationAction
deriving DecidableEq

def InstallOperation.isLink (operation : InstallOperation) : Bool :=
  match operation.action with
  | .link _ _ _ _ => true
  | _ => false

def InstallOperation.effectKind (operation : InstallOperation) : EffectKind :=
  match operation.action with
  | .copyTree _ _ => .copyTree
  | .writeFile _ _ _ managedBlock _ => if managedBlock then .managedBlock else .writeFile
  | .link _ _ targetState _ =>
      match targetState with
      | .tree _ => .symlinkTree
      | _ => .symlinkFile
  | .mergeJson _ _ _ _ _ _ => .mergeJson

theorem InstallOperation.link_effectKind {operation : InstallOperation} {sourcePath target : String}
    {targetState : Observed} {semantics : LinkSemantics}
    (h : operation.action = .link sourcePath target targetState semantics) :
    operation.effectKind = .symlinkFile ∨ operation.effectKind = .symlinkTree := by
  unfold InstallOperation.effectKind
  simp only [h]
  split
  · exact Or.inr rfl
  · exact Or.inl rfl

/-- Only a merge has the effect of one. -/
theorem InstallOperation.action_of_mergeJson {operation : InstallOperation}
    (h : operation.effectKind = .mergeJson) :
    ∃ jsonPath mergeMode identity evidence valueDigest content,
      operation.action = .mergeJson jsonPath mergeMode identity evidence valueDigest content := by
  cases haction : operation.action with
  | mergeJson jsonPath mergeMode identity evidence valueDigest content =>
      exact ⟨jsonPath, mergeMode, identity, evidence, valueDigest, content, rfl⟩
  | copyTree sourcePath tree => exact absurd h (by simp [InstallOperation.effectKind, haction])
  | writeFile sourcePath content executable managedBlock restoresFrom =>
      cases managedBlock <;> exact absurd h (by simp [InstallOperation.effectKind, haction])
  | link sourcePath target targetState semantics =>
      rcases operation.link_effectKind haction with hkind | hkind <;>
        exact absurd (hkind.symm.trans h) (by simp)

/-- Only a write with the flag has the effect of a managed block. -/
theorem InstallOperation.action_of_managedBlock {operation : InstallOperation}
    (h : operation.effectKind = .managedBlock) :
    ∃ sourcePath content executable restoresFrom,
      operation.action = .writeFile sourcePath content executable true restoresFrom := by
  cases haction : operation.action with
  | writeFile sourcePath content executable managedBlock restoresFrom =>
      cases managedBlock with
      | true => exact ⟨sourcePath, content, executable, restoresFrom, rfl⟩
      | false => exact absurd h (by simp [InstallOperation.effectKind, haction])
  | mergeJson jsonPath mergeMode identity evidence valueDigest content =>
      exact absurd h (by simp [InstallOperation.effectKind, haction])
  | copyTree sourcePath tree => exact absurd h (by simp [InstallOperation.effectKind, haction])
  | link sourcePath target targetState semantics =>
      rcases operation.link_effectKind haction with hkind | hkind <;>
        exact absurd (hkind.symm.trans h) (by simp)

variable [StandardLibrary]

/-- Whether the destination already holds what the operation would leave there. -/
def operationIsCurrent (operation : InstallOperation) : Bool :=
  match operation.action with
  | .link _ target _ _ => operation.precondition == .symlink target true
  | .copyTree _ tree =>
      match treeMembersDigest tree with
      | .ok digest => operation.precondition.digest? == some digest
      | .error _ => false
  | .writeFile _ content executable _ _ =>
      operation.precondition.digest? == some (fileSnapshotDigest content executable)
  | .mergeJson _ _ _ _ _ content =>
      operation.precondition.digest? == some (fileSnapshotDigest content false)

/-- The checks of the operation constructors beyond what the types carry. -/
def InstallOperation.valid (operation : InstallOperation) : Bool :=
  isAbsolutePath operation.absoluteDestination &&
    (match operation.action with
      | .copyTree sourcePath tree => isSafeRelative sourcePath && (treeMembersDigest tree).toBool
      | .writeFile sourcePath _ _ _ restoresFrom =>
          isSafeRelative sourcePath && restoresFrom != some operation.destination
      | .link sourcePath target targetState _ =>
          isSafeRelative sourcePath && isAbsolutePath target &&
            (match targetState with
              | .file _ _ => true
              | .tree tree => (treeMembersDigest tree).toBool
              | _ => false)
      | .mergeJson jsonPath _ identity _ _ _ =>
          jsonPath != "" && !identity.isEmpty &&
            identity.all fun item => item != "" && !pyIn "\n" item)

/-! ## Proofs of effects -/

/-- The proof an operation leaves in the record. -/
def proofOf (operation : InstallOperation) : EffectProof :=
  let created := operation.precondition.isAbsent
  match operation.action with
  | .copyTree sourcePath tree =>
      { kind := .copyTree, destination := operation.destination, actualMode := .copy
        installedDigest := (treeMembersDigest tree).toOption.getD ⟨""⟩
        sourcePath := some sourcePath, createdDestination := created
        overwrote := operation.overwrote }
  | .writeFile sourcePath content executable managedBlock restoresFrom =>
      { kind := operation.effectKind, destination := operation.destination, actualMode := .copy
        installedDigest := fileSnapshotDigest content executable
        sourcePath := if managedBlock then none else some sourcePath
        createdDestination := created, overwrote := operation.overwrote
        restoresFrom := restoresFrom }
  | .link sourcePath target targetState semantics =>
      { kind := operation.effectKind, destination := operation.destination, actualMode := .symlink
        installedDigest := targetState.digest?.getD ⟨""⟩
        sourcePath := some sourcePath, linkTarget := some target
        linkSemantics := some semantics, createdDestination := created
        overwrote := operation.overwrote }
  | .mergeJson jsonPath mergeMode _ identityEvidence valueDigest _ =>
      { kind := .mergeJson, destination := operation.destination, actualMode := .copy
        installedDigest := valueDigest, jsonPath := some jsonPath, mergeMode := some mergeMode
        identityDigest := some (jsonDigest identityEvidence), identityEvidence := identityEvidence
        createdDestination := created, overwrote := operation.overwrote }

@[simp] theorem proofOf_destination (operation : InstallOperation) :
    (proofOf operation).destination = operation.destination := by
  unfold proofOf
  cases operation.action <;> rfl

/-- The fields of a recorded effect that have to be those of its operation. -/
def effectMatchesOperation (effect : EffectProof) (operation : InstallOperation) : Bool :=
  let proof := proofOf operation
  effect.destination == proof.destination && effect.kind == proof.kind &&
    effect.actualMode == proof.actualMode && effect.installedDigest == proof.installedDigest &&
    effect.sourcePath == proof.sourcePath && effect.jsonPath == proof.jsonPath &&
    (match operation.action with
      | .link _ target _ semantics =>
          effect.linkTarget == some target && effect.linkSemantics == some semantics
      | .mergeJson _ mergeMode _ identityEvidence _ _ =>
          effect.mergeMode == some mergeMode && effect.identityDigest == proof.identityDigest &&
            effect.identityEvidence == identityEvidence
      | _ => true)

/-! ## Plans -/

structure InstallProvenance where
  originUrl : String
  resolvedCommit : String
  path : SafeRelativePath
deriving DecidableEq

/-- The fields of a plan before its constructor accepts them. The snapshot of
the state file is the state observed at the state path. -/
structure InstallPlanData where
  request : InstallRequest
  coordinate : ArtifactCoordinate
  source : SourceEvidence
  sourceHealth : HealthStatus
  sourceAgeSeconds : Nat
  sourceSnapshotDigest : ObjectDigest
  artifact : ArtifactEvidence
  trust : TrustClass
  trustEvidenceDigest : ObjectDigest
  policyDigest : ObjectDigest
  objectStorePaths : ObjectStorePaths
  objectCandidate : ObjectCandidate
  objectRoot : String
  provenance : Option InstallProvenance
  operations : List InstallOperation
  statePath : String
  stateLockPath : String
  statePrecondition : Observed
  replacementState : InstallState
  referenceOwner : String
deriving DecidableEq

namespace InstallPlanData

/-- The digest of the reviewed object. -/
def objectDigest (plan : InstallPlanData) : ObjectDigest := plan.objectCandidate.digest

def replacementRecord (plan : InstallPlanData) : Option InstallationRecord :=
  plan.replacementState.installations.find? fun record =>
    record.isFor plan.coordinate.source plan.coordinate.artifact plan.request.profile
      plan.request.scope

/-- The shapes of operations each artifact kind may have. -/
def operationsMatchArtifact (plan : InstallPlanData) : Bool :=
  let isTree (operation : InstallOperation) : Bool :=
    operation.effectKind == .copyTree || operation.effectKind == .symlinkTree
  let isMerge (operation : InstallOperation) : Bool := operation.effectKind == .mergeJson
  let isWrite (operation : InstallOperation) : Bool :=
    operation.effectKind == .writeFile || operation.effectKind == .managedBlock
  let restoresFrom (operation : InstallOperation) : Option String :=
    match operation.action with
    | .writeFile _ _ _ _ source => source
    | _ => none
  match plan.request.identity.kind, plan.operations with
  | .skill, [operation] => isTree operation
  | .guideline, [operation] => isWrite operation || operation.effectKind == .symlinkFile
  | .mcp, [operation] => isMerge operation
  | .hook, [scripts, settings] => isTree scripts && isMerge settings
  | .memory, [sidecar, target] =>
      isWrite sidecar && isWrite target && restoresFrom sidecar == none &&
        restoresFrom target == some sidecar.destination
  | .memory, [operation] => isWrite operation
  | _, _ => false

def destinationsAreScoped (plan : InstallPlanData) : Bool :=
  let projectRoot := dirName (dirName plan.statePath)
  plan.operations.all fun operation =>
    match plan.request.scope with
    | .project => operation.absoluteDestination == joinPath projectRoot operation.destination
    | .user => operation.absoluteDestination == operation.destination

/-- Where a link of the plan has to point. -/
def expectedLinkTarget (plan : InstallPlanData) (sourcePath : String) (semantics : LinkSemantics) :
    Option String :=
  let base := match semantics with
    | .immutableObject => some (joinPath plan.objectRoot "payload")
    | .mutableLocal => plan.request.mutableLocalPayloadRoot
  base.bind fun root =>
    if sourcePath = "payload" then some root
    else if startsWith "payload/" sourcePath then
      some (joinPath root (removePrefix "payload/" sourcePath))
    else none

def linksAreSafe (plan : InstallPlanData) : Bool :=
  plan.operations.all fun operation =>
    match operation.action with
    | .link sourcePath target _ semantics =>
        plan.request.mode == .symlink &&
          plan.expectedLinkTarget sourcePath semantics == some target &&
          semantics == (if plan.request.mutableLocalPayloadRoot.isSome then .mutableLocal
            else .immutableObject)
    | _ => true

def mutableRootIsSafe (plan : InstallPlanData) : Bool :=
  match plan.request.mutableLocalPayloadRoot with
  | none => true
  | some root =>
      plan.source.kind == .sourceLocal && commonPath plan.source.origin root == some plan.source.origin &&
        plan.operations.any (·.isLink)

/-- The replacement record states exactly what the operations will do. -/
def recordMatches (plan : InstallPlanData) : Bool :=
  match plan.replacementRecord with
  | none => false
  | some record =>
      record.source == plan.source && record.artifact == plan.artifact &&
        record.profileVersion == plan.request.profileVersion &&
        record.requestedMode == plan.request.mode &&
        record.memoryMode == plan.request.recordedMemoryMode &&
        record.effects.length == plan.operations.length &&
        (record.effects.zip plan.operations).all fun pair => effectMatchesOperation pair.1 pair.2

/-- Every check of the plan constructor. -/
def valid (plan : InstallPlanData) : Bool :=
  isAbsolutePath plan.objectRoot && isAbsolutePath plan.statePath &&
    isAbsolutePath plan.stateLockPath &&
    plan.coordinate.source == plan.source.sourceAlias &&
    plan.coordinate.artifact == plan.artifact.identity &&
    plan.coordinate.version == some plan.artifact.version &&
    plan.artifact.objectDigest == plan.objectCandidate.digest &&
    plan.objectRoot == plan.objectStorePaths.objectRoot plan.objectCandidate.digest &&
    [HealthStatus.healthy, .stale, .degraded].contains plan.sourceHealth &&
    plan.operations.all (·.valid) && !plan.operations.isEmpty && plan.operationsMatchArtifact &&
    decide (plan.operations.map (·.absoluteDestination)).Nodup && plan.destinationsAreScoped &&
    plan.linksAreSafe && plan.mutableRootIsSafe && plan.referenceOwner.length ≤ 499 &&
    plan.recordMatches

end InstallPlanData

/-- A plan that its constructor accepted. -/
structure InstallPlan extends InstallPlanData where
  accepted : toInstallPlanData.valid = true

end AgentArtifacts
