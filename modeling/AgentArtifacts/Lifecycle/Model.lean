import AgentArtifacts.Installation.Apply

/-!
# Lifecycle plans

Values of status, update and uninstall. An uninstall plan is bound to the
manifest it was reviewed against: its replacement is that manifest without the
record, and its reference replacement is the reviewed index without the
installed references of the record's owner.
-/

namespace AgentArtifacts

/-! ## Outcomes -/

inductive LifecycleStatus where
  | current
  | updateAvailable
  | changed
  | removed
  | removedUpstream
  | sourceUnavailable
  | identityChanged
  | missing
  | drifted
  | broken
  | retargeted
  | replaced
  | conflict
  | failed
  | skipped
deriving DecidableEq

structure LifecycleKey where
  coordinate : ArtifactCoordinate
  profile : Slug
  scope : InstallScope
deriving DecidableEq

def LifecycleKey.fromRecord (record : InstallationRecord) : LifecycleKey :=
  ⟨record.coordinate, record.profile, record.scope⟩

structure LifecycleEffect where
  kind : EffectKind
  destination : String
  status : LifecycleStatus
  detail : String := ""
deriving DecidableEq

structure LifecycleItem where
  key : LifecycleKey
  status : LifecycleStatus
  effects : List LifecycleEffect := []
  detail : EffectDetail := ⟨"", []⟩
deriving DecidableEq

/-! ## Places of effects -/

def absoluteEffectPath (effect : EffectProof) (scope : InstallScope) (location : InstallLocation) :
    Except String String :=
  match scope with
  | .user =>
      if isAbs effect.destination then .ok effect.destination
      else .error "user lifecycle destination must be absolute"
  | .project =>
      if isAbs effect.destination then .error "project lifecycle destination must be relative"
      else .ok (normPath (joinPath location.projectRoot effect.destination))

/-! ## Operations -/

/-- What an uninstall does at a destination; only a write carries content. -/
inductive Mutation where
  | none
  | remove
  | write (content : Bytes)
deriving DecidableEq

def Mutation.changes : Mutation → Bool
  | .none => false
  | _ => true

structure UninstallOperation where
  effect : EffectProof
  absoluteDestination : String
  precondition : Observed
  mutation : Mutation
deriving DecidableEq

/-- Normalized absolute paths other than the root. -/
def isNormalized (path : String) : Bool := isAbs path && normPath path == path && path != "/"

/-! ## Teardown -/

structure ScopeTeardown where
  statePath : String
  stateLockPath : String
  stateRoot : String
  directories : List String := []
  reclaimsState : Bool := false
deriving DecidableEq

def slashes (path : String) : Nat := path.toList.count '/'

/-- Deeper paths come first, paths of one depth in text order. -/
def deeperFirst (a b : String) : Prop := slashes b < slashes a ∨ (slashes a = slashes b ∧ a ≤ b)

instance (a b : String) : Decidable (deeperFirst a b) :=
  inferInstanceAs (Decidable (slashes b < slashes a ∨ (slashes a = slashes b ∧ a ≤ b)))

def ScopeTeardown.valid (teardown : ScopeTeardown) : Bool :=
  (teardown.statePath :: teardown.stateLockPath :: teardown.stateRoot :: teardown.directories).all
      isNormalized &&
    teardown.stateRoot == dirName teardown.statePath &&
    teardown.stateRoot == dirName teardown.stateLockPath && decide teardown.directories.Nodup &&
    teardown.directories == teardown.directories.insertionSort deeperFirst

/-- Ancestors of a destination from its parent up to the second level below the root. -/
def prunableAncestors (destination root : String) : List String :=
  let head := pyRstrip '/' root ++ "/"
  if startsWith head destination then
    let parts := splitChar '/' (String.ofList (destination.toList.drop head.toList.length))
    ((List.range parts.length).reverse.filter (2 ≤ ·)).map fun depth =>
      (parts.take depth).foldl joinPath root
  else []

def scopeTeardown (record : InstallationRecord) (operations : List UninstallOperation)
    (statePath stateLockPath : String) (location : InstallLocation) (reclaimsState : Bool) :
    Except String ScopeTeardown :=
  let root := match record.scope with
    | .project => location.projectRoot
    | .user => location.userHome
  let directories := (operations.filter (·.mutation == .remove)).flatMap fun operation =>
    prunableAncestors operation.absoluteDestination root
  let teardown : ScopeTeardown :=
    ⟨statePath, stateLockPath, dirName statePath, directories.dedup.insertionSort deeperFirst,
      reclaimsState⟩
  if teardown.valid then .ok teardown else .error "scope teardown is invalid"

/-! ## Uninstall plans -/

structure UninstallPlanData where
  record : InstallationRecord
  force : Bool
  operations : List UninstallOperation
  statePath : String
  stateLockPath : String
  statePrecondition : Observed
  replacementState : InstallState
  objectStorePaths : ObjectStorePaths
  referencePrecondition : ReferenceIndex
  terminal : Option LifecycleStatus
  detail : String
  teardown : Option ScopeTeardown := none
deriving DecidableEq

namespace UninstallPlanData

/-- The constructor accepts no other owner. -/
def referenceOwner (plan : UninstallPlanData) : String := AgentArtifacts.referenceOwner plan.record

/-- The constructor accepts no other replacement of the index. -/
def referenceReplacement (plan : UninstallPlanData) : ReferenceIndex :=
  plan.referencePrecondition.without .installed plan.referenceOwner

def destinationsAreScoped (plan : UninstallPlanData) : Bool :=
  let projectRoot := dirName (dirName plan.statePath)
  plan.operations.all fun operation =>
    match plan.record.scope with
    | .project => operation.absoluteDestination == joinPath projectRoot operation.effect.destination
    | .user => operation.absoluteDestination == operation.effect.destination

variable [ManifestCodec]

/-- The reviewed manifest without the record. -/
def expectedState (plan : UninstallPlanData) : Option InstallState :=
  match plan.statePrecondition with
  | .file content _ =>
      match parseInstallState content with
      | .error _ => none
      | .ok current =>
          if plan.record ∈ current.installations then
            (InstallState.make
              (current.installations.filter fun item => item.key ≠ plan.record.key)).toOption
          else none
  | _ => none

def teardownMatches (plan : UninstallPlanData) : Bool :=
  match plan.teardown with
  | none => true
  | some teardown =>
      teardown.valid && plan.terminal.isNone && teardown.statePath == plan.statePath &&
        teardown.stateLockPath == plan.stateLockPath &&
        teardown.reclaimsState == plan.replacementState.installations.isEmpty

/-- Every check of the plan constructor. -/
def valid (plan : UninstallPlanData) : Bool :=
  isAbs plan.statePath && isAbs plan.stateLockPath &&
    plan.stateLockPath == joinPath (dirName plan.statePath) "state.lock" &&
    plan.operations.all (fun operation => isNormalized operation.absoluteDestination) &&
    plan.expectedState == some plan.replacementState &&
    (plan.terminal == none || plan.terminal == some .conflict) &&
    (if plan.terminal.isNone then plan.operations.map (·.effect) == plan.record.effects
      else plan.operations.isEmpty) &&
    plan.destinationsAreScoped && plan.teardownMatches

end UninstallPlanData

/-- A plan that its constructor accepted. -/
structure UninstallPlan [ManifestCodec] extends UninstallPlanData where
  accepted : toUninstallPlanData.valid = true

variable [ManifestCodec]

theorem UninstallPlan.expectedState_eq (plan : UninstallPlan) :
    plan.expectedState = some plan.replacementState := by
  have h := plan.accepted
  simp only [UninstallPlanData.valid, Bool.and_eq_true, beq_iff_eq] at h
  exact h.1.1.1.1.2

/-- The manifest of a plan was observed as a file, and its replacement keeps the
other records and no record with the key of the plan. -/
theorem UninstallPlan.replacementState_spec (plan : UninstallPlan) :
    ∃ content executable current, plan.statePrecondition = .file content executable ∧
      parseInstallState content = .ok current ∧ plan.record ∈ current.installations ∧
      ∀ record, record ∈ plan.replacementState.installations ↔
        record ∈ current.installations ∧ record.key ≠ plan.record.key := by
  have hexpected := plan.expectedState_eq
  unfold UninstallPlanData.expectedState at hexpected
  split at hexpected
  · rename_i content executable hfile
    split at hexpected
    · exact absurd hexpected (by simp)
    · rename_i current hcurrent
      split at hexpected
      · rename_i hmem
        refine ⟨content, executable, current, hfile, hcurrent, hmem, ?_⟩
        intro record
        cases hmake : InstallState.make
            (current.installations.filter fun item => item.key ≠ plan.record.key) with
        | error message =>
            rw [hmake] at hexpected
            exact absurd hexpected (by simp [Except.toOption])
        | ok state =>
            rw [hmake] at hexpected
            have hstate : state = plan.replacementState := by simpa [Except.toOption] using hexpected
            rw [← hstate, InstallState.mem_make hmake]
            simp
      · exact absurd hexpected (by simp)
  · exact absurd hexpected (by simp)

/-- A plan whose last record it is carries a teardown that says so, if it has one. -/
theorem UninstallPlan.teardown_spec (plan : UninstallPlan) {teardown : ScopeTeardown}
    (h : plan.teardown = some teardown) :
    teardown.statePath = plan.statePath ∧
      (teardown.reclaimsState = true → plan.replacementState.installations = []) := by
  have haccepted := plan.accepted
  simp only [UninstallPlanData.valid, Bool.and_eq_true, UninstallPlanData.teardownMatches, h,
    beq_iff_eq] at haccepted
  obtain ⟨⟨⟨⟨_, _⟩, hpath⟩, _⟩, hreclaims⟩ := haccepted.2
  refine ⟨hpath, ?_⟩
  intro hstate
  rw [hreclaims] at hstate
  exact List.isEmpty_iff.mp hstate

/-! ## Update plans -/

/-- An update installs, prunes or ends without a change. -/
inductive UpdateChoice [StandardLibrary] where
  | install (plan : InstallPlan)
  | uninstall (plan : UninstallPlan)
  | terminal (item : LifecycleItem)

structure UpdatePlan [StandardLibrary] where
  record : InstallationRecord
  prune : Bool
  choice : UpdateChoice

/-- The checks of the constructor: the nested plan is one for the record. -/
def UpdatePlan.valid [StandardLibrary] (plan : UpdatePlan) : Bool :=
  match plan.choice with
  | .install installPlan =>
      let request := installPlan.request
      installPlan.coordinate.source == plan.record.coordinate.source &&
        installPlan.coordinate.artifact == plan.record.coordinate.artifact &&
        request.profile == plan.record.profile &&
        request.profileVersion == plan.record.profileVersion &&
        request.scope == plan.record.scope && request.mode == plan.record.requestedMode &&
        request.identity == plan.record.artifact.identity &&
        request.source == some plan.record.source.sourceAlias &&
        request.memoryMode == plan.record.memoryMode.getD .prepend
  | .uninstall uninstallPlan => plan.prune && uninstallPlan.record == plan.record
  | .terminal item => item.key == LifecycleKey.fromRecord plan.record

end AgentArtifacts
