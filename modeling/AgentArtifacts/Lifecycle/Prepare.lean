import AgentArtifacts.Installation.Prepare
import AgentArtifacts.Lifecycle.Apply
import AgentArtifacts.Lifecycle.Removal

/-!
# Preparing uninstalls and updates

An uninstall is planned from the record, the manifest it is in and the index of
references; an update is an installation with the recorded options, or the
uninstall of an artifact that its source no longer publishes. An update that
would drop the proof of a recorded effect is refused.
-/

namespace AgentArtifacts

variable [StandardLibrary] [ManifestCodec]

def lifecycleInvalid : DiagnosticCode := ⟨"lifecycle-invalid"⟩

structure LifecycleReadPorts extends InstallReadPorts where
  readReferences : Result ReferenceIndex

/-! ## Uninstall -/

/-- What the removal of one effect came to. -/
inductive Removal where
  | planned (operation : UninstallOperation)
  | conflicted (detail : String)

def liftPath (path : Except String String) : Result String :=
  match path with
  | .ok absolute => .ok absolute
  | .error message => error lifecycleInvalid message

def planEffect (record : InstallationRecord) (location : InstallLocation) (ports : LifecycleReadPorts)
    (force : Bool) (effect : EffectProof) : Result Removal := do
  let absolute ← liftPath (absoluteEffectPath effect record.scope location)
  let observed ← ports.inspectPath absolute
  let restore ← match effect.restoresFrom with
    | none => (.ok none : Result (Option Observed))
    | some sidecar =>
        -- The path of the sidecar is computed outside the handler of the effect's own path.
        match absoluteEffectPath { effect with destination := sidecar, restoresFrom := none }
            record.scope location with
        | .error message => raised message
        | .ok path => (ports.inspectPath path).map some
  match planRemoval record effect observed force restore with
  | .ok mutation => return .planned ⟨effect, absolute, observed, mutation⟩
  | .error detail => return .conflicted detail

def Removal.operation? : Removal → Option UninstallOperation
  | .planned operation => some operation
  | .conflicted _ => none

def Removal.conflict? : Removal → Option String
  | .planned _ => none
  | .conflicted detail => some detail

def acceptUninstall (data : UninstallPlanData) : Result UninstallPlan :=
  if h : data.valid = true then .ok ⟨data, h⟩
  else error lifecycleInvalid "uninstall plan is invalid: uninstall plan is not exactly bound"

/-- The manifest is the reviewed state, both as parsed and as observed. -/
def uninstallState (state : InstallState) (ports : LifecycleReadPorts) (path : String) :
    Result Observed := do
  let loaded ← ports.readState path
  let snapshot ← ports.inspectState path
  match snapshot with
  | .file content _ =>
      if loaded ≠ some state then
        error lifecycleInvalid "installation state changed before uninstall review"
      else
        match parseInstallState content with
        | .ok parsed =>
            if parsed = state then return snapshot
            else error lifecycleInvalid "installation state snapshot does not match parsed state"
        | .error _ => error lifecycleInvalid "installation state snapshot does not match parsed state"
  | _ => error lifecycleInvalid "installation state changed before uninstall review"

def prepareUninstall (record : InstallationRecord) (state : InstallState) (location : InstallLocation)
    (storePaths : ObjectStorePaths) (ports : LifecycleReadPorts) (force : Bool) :
    Result UninstallPlan := do
  if record ∉ state.installations then
    error lifecycleInvalid "uninstall record is not present in installation state"
  else do
    let paths := installStatePaths record.scope location
    let snapshot ← uninstallState state ports paths.destinationPath
    let references ← ports.readReferences
    let removals ← record.effects.mapM (planEffect record location ports force)
    let conflicts := removals.filterMap (·.conflict?)
    let operations := removals.filterMap (·.operation?)
    match InstallState.make (state.installations.filter fun item => item.key ≠ record.key) with
    | .error message => raised message
    | .ok replacement => do
        let teardown ←
          if conflicts ≠ [] then (.ok none : Result (Option ScopeTeardown))
          else
            match scopeTeardown record operations paths.destinationPath paths.lockPath location
                replacement.installations.isEmpty with
            | .ok teardown => .ok (some teardown)
            | .error message => raised message
        acceptUninstall
          { record := record
            force := force
            operations := if conflicts ≠ [] then [] else operations
            statePath := paths.destinationPath
            stateLockPath := paths.lockPath
            statePrecondition := snapshot
            replacementState := replacement
            objectStorePaths := storePaths
            referencePrecondition := references
            terminal := if conflicts ≠ [] then some .conflict else none
            detail := String.intercalate "; " conflicts
            teardown := teardown }

/-! ## Subscriptions -/

/-- The origin a configured source is recorded under. -/
def configuredOrigin (services : PlanningServices) (source : ConfiguredSource) : Option String :=
  if source.kind = .sourceLocal then some source.location
  else (services.gitLocationParts source.location).map fun parts => parts.1 ++ "/" ++ parts.2

def catalogSource (catalog : MarketplaceCatalog) (sourceAlias : SourceAlias) :
    Option MarketplaceSourceView :=
  catalog.sources.find? fun source => source.sourceAlias == sourceAlias

/-- Same alias, same origin, same ref; the declared identity is not part of it. -/
def recordedSubscriptionCurrent (inputs : PlanningInputs) (record : InstallationRecord) : Bool :=
  match configuredSource inputs.effective record.source.sourceAlias,
      catalogSource inputs.catalog record.source.sourceAlias with
  | some configured, some source =>
      configured.kind == record.source.kind &&
        configuredOrigin inputs.services configured == some record.source.origin &&
        source.kind == record.source.kind && source.origin == record.source.origin &&
        configured.ref == record.source.subscriptionRef && source.resolvedRevision.isSome &&
        source.snapshotDigest.isSome &&
        (source.health == .healthy || source.health == .stale || source.health == .degraded)
  | _, _ => false

def recordedIdentityChanged (inputs : PlanningInputs) (record : InstallationRecord) : Bool :=
  match catalogSource inputs.catalog record.source.sourceAlias with
  | none => false
  | some source => source.sourceId != some record.source.declaredId

def currentItem (inputs : PlanningInputs) (record : InstallationRecord) : Option MarketplaceItem :=
  inputs.catalog.items.find? fun item =>
    item.source.sourceAlias == record.source.sourceAlias &&
      item.artifact.identity == record.artifact.identity

/-! ## Update -/

/-- The root of a recorded mutable link, when the links of the record agree on one. -/
def mutablePayloadRoot (record : InstallationRecord) : Option String :=
  if record.source.kind ≠ .sourceLocal then none
  else
    let roots := (record.effects.filterMap fun effect =>
      match effect.linkSemantics, effect.linkTarget with
      | some .mutableLocal, some target =>
          let sourcePath := effect.sourcePath.getD "payload"
          if sourcePath = "payload" then some target
          else if startsWith "payload/" sourcePath then
            some ((splitChar '/' (removePrefix "payload/" sourcePath)).foldl
              (fun path _ => dirName path) target)
          else none
      | _, _ => none).dedup
    match roots with
    | [root] => some root
    | _ => none

def terminalUpdate (record : InstallationRecord) (status : LifecycleStatus) (detail : String) :
    UpdatePlan :=
  ⟨record, false, .terminal ⟨LifecycleKey.fromRecord record, status, [], ⟨detail, []⟩⟩⟩

/-- Destinations of recorded effects whose proof the replacement does not carry. -/
def retiredDestinations (record replacement : InstallationRecord) : List String :=
  ((record.effects.filter fun effect =>
      !(replacement.effects.map (·.locator)).contains effect.locator).map (·.destination)).insertionSort
    (· ≤ ·)

def retiredDetail (record : InstallationRecord) (retired : List String) : String :=
  let scope := if record.scope = .user then " --scope user" else ""
  let arguments := record.coordinate.str ++ " --profile " ++ record.profile.value ++ scope ++ " --yes"
  let tick := String.singleton (Char.ofNat 96)
  "update would orphan recorded effects at " ++ String.intercalate ", " retired ++
    "; migrate transactionally with " ++ tick ++ "aart marketplace uninstall " ++ arguments ++ tick ++
    ", then " ++ tick ++ "aart marketplace install " ++ arguments ++ tick

/-- Refuses an update that cannot retire a recorded destination. -/
def retiredEffectUpdate (record : InstallationRecord) (install : InstallPlan) : Option UpdatePlan :=
  match install.replacementState.installations.find? fun item => item.key == record.key with
  | none =>
      some (terminalUpdate record .failed "replacement installation record is unavailable")
  | some replacement =>
      match retiredDestinations record replacement with
      | [] => none
      | retired => some (terminalUpdate record .conflict (retiredDetail record retired))

structure UpdateOptions where
  force : Bool := false
  prune : Bool := false
  offline : Bool := false
  platform : String := "darwin"
deriving DecidableEq

/-- The recorded options as a request. -/
def updateRequest (record : InstallationRecord) (options : UpdateOptions) : InstallRequest where
  identity := record.artifact.identity
  source := some record.source.sourceAlias
  profile := record.profile
  profileVersion := record.profileVersion
  platform := options.platform
  scope := record.scope
  mode := record.requestedMode
  force := options.force
  offline := options.offline
  memoryMode := record.memoryMode.getD .prepend
  mutableLocalPayloadRoot := mutablePayloadRoot record

def stateForRecord (record : InstallationRecord) (location : InstallLocation)
    (ports : LifecycleReadPorts) : Result InstallState := do
  match ← ports.readState (installStatePaths record.scope location).destinationPath with
  | none => error lifecycleInvalid "recorded installation state is unavailable"
  | some state =>
      if record ∈ state.installations then return state
      else error lifecycleInvalid "recorded installation state is unavailable"

def prunePlan (record : InstallationRecord) (inputs : PlanningInputs) (ports : LifecycleReadPorts)
    (force : Bool) : Result UpdatePlan := do
  let state ← stateForRecord record inputs.location ports
  let uninstall ← prepareUninstall record state inputs.location inputs.storePaths ports force
  return ⟨record, true, .uninstall uninstall⟩

/-- A failed preparation ends the update, as a conflict when it was one; an
exception goes on to the caller. -/
def failedUpdate (record : InstallationRecord) (diagnostics : List Diagnostic) : Result UpdatePlan :=
  if diagnostics.any fun item => item.code == exceptionCode then .error diagnostics
  else
    .ok (terminalUpdate record
      (if diagnostics.any fun item => item.code == installConflict then .conflict else .failed)
      (messages diagnostics))

def prepareUpdate (record : InstallationRecord) (inputs : PlanningInputs) (ports : LifecycleReadPorts)
    (options : UpdateOptions) : Result UpdatePlan :=
  if inputs.profile.name ≠ record.profile then
    error lifecycleInvalid "lifecycle profile does not match the recorded profile"
  else if !recordedSubscriptionCurrent inputs record then
    .ok (terminalUpdate record .sourceUnavailable
      "recorded source is missing, disabled, unhealthy, or changed origin/ref")
  else
    match currentItem inputs record with
    | none =>
        if options.prune then prunePlan record inputs ports options.force
        else .ok (terminalUpdate record .removedUpstream
          "artifact was removed from the recorded source; rerun with prune to uninstall")
    | some _ =>
        match prepareInstall (updateRequest record options) inputs ports.toInstallReadPorts with
        | .error diagnostics => failedUpdate record diagnostics
        | .ok install =>
            match retiredEffectUpdate record install with
            | some refused => .ok refused
            | none => .ok ⟨record, false, .install install⟩

/-! ## What an update is made of -/

theorem failedUpdate_choice {record : InstallationRecord} {diagnostics : List Diagnostic}
    {updated : UpdatePlan} (h : failedUpdate record diagnostics = .ok updated) :
    ∃ item, updated.choice = .terminal item := by
  unfold failedUpdate at h
  split at h
  · exact absurd h (by simp)
  · rw [← Except.ok.inj h]
    exact ⟨_, rfl⟩

/-- An update that installs carries a plan of the install planner for the recorded
options, and no recorded effect is retired by it. -/
theorem prepareUpdate_install_spec {record : InstallationRecord} {inputs : PlanningInputs}
    {ports : LifecycleReadPorts} {options : UpdateOptions} {updated : UpdatePlan} {plan : InstallPlan}
    (h : prepareUpdate record inputs ports options = .ok updated)
    (hchoice : updated.choice = .install plan) :
    prepareInstall (updateRequest record options) inputs ports.toInstallReadPorts = .ok plan ∧
      retiredEffectUpdate record plan = none := by
  unfold prepareUpdate at h
  split at h
  · exact absurd h (by simp [error])
  · split at h
    · rw [← Except.ok.inj h] at hchoice
      exact absurd hchoice (by simp [terminalUpdate])
    · split at h
      · split at h
        · obtain ⟨_, _, h⟩ := Result.of_bind_ok h
          obtain ⟨_, _, h⟩ := Result.of_bind_ok h
          rw [← Except.ok.inj h] at hchoice
          exact absurd hchoice (by simp)
        · rw [← Except.ok.inj h] at hchoice
          exact absurd hchoice (by simp [terminalUpdate])
      · split at h
        · obtain ⟨item, hitem⟩ := failedUpdate_choice h
          rw [hitem] at hchoice
          exact absurd hchoice (by simp)
        · rename_i install hinstall
          split at h
          · rename_i refused hrefused
            have hterminal : ∃ item, refused.choice = .terminal item := by
              unfold retiredEffectUpdate at hrefused
              split at hrefused
              · rw [← Option.some.inj hrefused]
                exact ⟨_, rfl⟩
              · split at hrefused
                · exact absurd hrefused (by simp)
                · rw [← Option.some.inj hrefused]
                  exact ⟨_, rfl⟩
            obtain ⟨item, hitem⟩ := hterminal
            rw [← Except.ok.inj h, hitem] at hchoice
            exact absurd hchoice (by simp)
          · rename_i hkept
            rw [← Except.ok.inj h] at hchoice
            obtain rfl : install = plan := by simpa using hchoice
            exact ⟨hinstall, hkept⟩

theorem prepareUpdate_install {record : InstallationRecord} {inputs : PlanningInputs}
    {ports : LifecycleReadPorts} {options : UpdateOptions} {updated : UpdatePlan} {plan : InstallPlan}
    (h : prepareUpdate record inputs ports options = .ok updated)
    (hchoice : updated.choice = .install plan) :
    prepareInstall (updateRequest record options) inputs ports.toInstallReadPorts = .ok plan :=
  (prepareUpdate_install_spec h hchoice).1

/-! ## The ports of the local adapter -/

def World.lifecyclePorts (world : World) : LifecycleReadPorts where
  toInstallReadPorts := world.readPorts
  readReferences := .ok world.references

end AgentArtifacts
