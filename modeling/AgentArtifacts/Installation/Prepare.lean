import AgentArtifacts.Installation.Actions
import AgentArtifacts.Installation.Apply

/-!
# Preparing an installation

Resolution, policy, the observed destinations, the operations, the conflicts an
unforced plan is refused for, and the replacement of the manifest. Whatever an
accepted plan says about the manifest is bound to the bytes of its reviewed
snapshot: the replacement is the parsed manifest with one record replaced.
-/

namespace AgentArtifacts

section Planning

variable [StandardLibrary] [ManifestCodec]

/-! ## Services outside the planner -/

/-- The package compiler, the compatibility rules, the Git location reader and
the policy codec; plans treat their answers as given. -/
structure PlanningServices where
  validateObjectEvidence : StoredObject → IndexArtifact → Result Unit
  incompatibilities : IndexArtifact → InstallRequest → List String
  gitLocationParts : String → Option (String × String)
  policyDigest : OrganizationPolicy → ObjectDigest

/-- What one planning call is made with besides its ports. -/
structure PlanningInputs where
  catalog : MarketplaceCatalog
  effective : EffectiveConfiguration
  profile : Profile
  location : InstallLocation
  storePaths : ObjectStorePaths
  services : PlanningServices

/-! ## Gates -/

def installPolicyDenied : DiagnosticCode := ⟨"install-policy-denied"⟩

def installObjectUnavailable : DiagnosticCode := ⟨"install-object-unavailable"⟩

def policyAllows (request : InstallRequest) (trust : TrustClass) (effective : EffectiveConfiguration) :
    Result Unit :=
  match request.scope, effective.policy.minimumTrustForUserScope with
  | .user, some minimum =>
      if trust.rank < minimum.rank then
        error installPolicyDenied ("user-scope install requires trust " ++ pyRepr minimum.value ++
          "; artifact trust is " ++ pyRepr trust.value)
      else .ok ()
  | _, _ => .ok ()

def mutableRootAllowed (request : InstallRequest) (source : ConfiguredSource) : Result Unit :=
  match request.mutableLocalPayloadRoot with
  | none => .ok ()
  | some root =>
      if source.kind = .sourceLocal ∧ commonPath source.location root = some source.location then .ok ()
      else error installPolicyDenied
        "mutable-local links require an explicit payload root inside the selected local source"

def isOneOf (characters value : String) : Bool := value.toList.any (characters.toList.contains ·)

def safeGitRef (value : String) : Bool :=
  oneLine value && !startsWith "-" value && value != "." && value != ".." &&
    !(endsWith "." value || endsWith "/" value || endsWith ".lock" value) &&
    !(splitChar '/' value).any (fun part => part == "" || part == "." || part == "..") &&
    !(pyIn ".." value || pyIn "@\x7b" value || isOneOf "\\ ~^:?*[" value)

def safeGitIdentity (value : String) : Bool :=
  let parts := splitChar '/' value
  oneLine value && !pyIn "://" value && !pyIn "@" value && 2 ≤ parts.length &&
    pyIn "." (parts.headD "") && parts.all (fun part => part != "" && part != "." && part != "..") &&
    !isOneOf "\\?#%" value

def isLowerHex (c : Char) : Bool := ('0' ≤ c && c ≤ '9') || ('a' ≤ c && c ≤ 'f')

def isCommit (value : String) : Bool := value.toList.length == 40 && value.toList.all isLowerHex

def isLocalRevision (value : String) : Bool :=
  value == "local" ||
    (startsWith "local:" value && (value.toList.drop 6).length == 64 &&
      (value.toList.drop 6).all isLowerHex)

/-- The checks of the constructor of source evidence. -/
def SourceEvidence.check (services : PlanningServices) (source : SourceEvidence) : Except String Unit :=
  if !oneLine source.origin then .error "installation source evidence is invalid"
  else if source.kind = .sourceLocal then
    if isAbs source.origin && normPath source.origin == source.origin &&
        isLocalRevision source.resolvedCommit && source.subscriptionRef.isNone then .ok ()
    else .error "local source origin must be a normalized absolute path"
  else if isCommit source.resolvedCommit &&
      ((services.gitLocationParts source.origin).isSome || safeGitIdentity source.origin) &&
      safeGitRef (source.subscriptionRef.getD "") then .ok ()
  else .error "Git source origin/ref must be a credential-free Git location and safe subscription"

/-! ## Observation -/

/-- The state at a planned path; unsafe kinds are refused before anything is planned. -/
def observeTarget (request : InstallRequest) (location : InstallLocation) (ports : InstallReadPorts)
    (path : String) : Result (String × PathSnapshot) := do
  let destination ← destinationOf path request.scope location
  let observed ← ports.inspectPath destination.absolute
  let refused : Bool := match observed with
    | .special _ => true
    | .symlink _ _ => request.mode == .copy
    | _ => false
  if refused then
    error installConflict ("install destination has an unsafe existing type: " ++ destination.absolute)
  else return (path, ⟨destination.absolute, observed⟩)

/-- The manifest as it was parsed, checked against the snapshot the plan is bound to. -/
def reviewedState (ports : InstallReadPorts) (path : String) : Result (InstallState × Observed) := do
  let read ← ports.readState path
  let snapshot ← ports.inspectState path
  match snapshot with
  | .absent =>
      if read.isSome then error installConflict "installation state changed while preparing the plan"
      else return (emptyState, snapshot)
  | .file content _ =>
      let parsed ← parseInstallState content
      if read = some parsed then return (parsed, snapshot)
      else error installConflict "installation state changed while preparing the plan"
  | _ => error installConflict "installation state path is not a regular file"

/-! ## Conflicts -/

/-- The recorded effect of the same artifact, profile and scope at a destination. -/
def previousEffect (state : InstallState) (request : InstallRequest) (coordinate : ArtifactCoordinate)
    (destination : String) : Option EffectProof :=
  (state.installations.find? fun record =>
      record.isFor coordinate.source coordinate.artifact request.profile request.scope).bind
    fun record => record.effects.find? fun effect => effect.destination == destination

def hasWholeBlock (name : String) (text : Chars) : Bool :=
  let first := (beginMarker name).toList
  let last := (endMarker name).toList
  Text.count first text == 1 && Text.count last text == 1 &&
    (match Text.partition? first text, Text.partition? last text with
      | some (before, _), some (upto, _) => before.length < upto.length
      | _, _ => false)

/-- Another memory artifact's block already makes the destination a shared file. -/
def sharedManagedMemoryIsCurrent (state : InstallState) (request : InstallRequest)
    (destination : String) (current : Observed) : Bool :=
  match current with
  | .file content _ =>
      match decodeUtf8 content with
      | none => false
      | some text =>
          state.installations.any fun record =>
            record.profile == request.profile && record.scope == request.scope &&
              record.artifact.identity.kind == .memory &&
              record.artifact.identity != request.identity &&
              (record.memoryMode == some .prepend || record.memoryMode == some .append) &&
              (record.effects.any fun effect =>
                effect.kind == .managedBlock && effect.destination == destination) &&
              hasWholeBlock record.artifact.identity.name.value text.toList
  | _ => false

/-- The destination still holds what the previous effect left there. -/
def previousOwns (previous : Option EffectProof) (current : Observed) : Bool :=
  match previous with
  | none => false
  | some effect =>
      match effect.actualMode, current with
      | .symlink, .symlink target _ => effect.linkTarget == some target
      | .copy, .file _ _ => current.digest? == some effect.installedDigest
      | .copy, .tree _ => current.digest? == some effect.installedDigest
      | _, _ => false

/-- Whether an unforced plan may carry an operation. -/
def mayProceed (state : InstallState) (request : InstallRequest) (coordinate : ArtifactCoordinate)
    (operation : InstallOperation) : Bool :=
  operation.precondition.isAbsent || operationIsCurrent operation ||
    operation.effectKind == .mergeJson ||
    (operation.effectKind == .managedBlock &&
      sharedManagedMemoryIsCurrent state request operation.destination operation.precondition) ||
    previousOwns (previousEffect state request coordinate operation.destination) operation.precondition

def conflicts (operations : List InstallOperation) (state : InstallState) (request : InstallRequest)
    (coordinate : ArtifactCoordinate) : List String :=
  if request.force then []
  else
    (operations.filter fun operation => !mayProceed state request coordinate operation).map
      (·.destination)

/-! ## The replacement of the manifest -/

/-- A repeated effect keeps who created its destination, and that it overwrote something. -/
def inheritProof (prior : Option InstallationRecord) (proof : EffectProof) : EffectProof :=
  match prior.bind fun record => record.effects.find? fun effect => effect.locator == proof.locator with
  | none => proof
  | some previous =>
      if previous.kind = proof.kind then
        { proof with
          createdDestination := previous.createdDestination
          overwrote := previous.overwrote || proof.overwrote }
      else proof

def replacementRecord (current : InstallState) (request : InstallRequest)
    (coordinate : ArtifactCoordinate) (source : SourceEvidence) (artifact : ArtifactEvidence)
    (operations : List InstallOperation) : InstallationRecord :=
  let prior := current.installations.find? fun record =>
    record.isFor coordinate.source coordinate.artifact request.profile request.scope
  { source := source
    artifact := artifact
    profile := request.profile
    profileVersion := request.profileVersion
    scope := request.scope
    requestedMode := request.mode
    effects := operations.map fun operation => inheritProof prior (proofOf operation)
    memoryMode := request.recordedMemoryMode }

def replacementState (current : InstallState) (request : InstallRequest)
    (coordinate : ArtifactCoordinate) (source : SourceEvidence) (artifact : ArtifactEvidence)
    (operations : List InstallOperation) : Result InstallState := do
  let record := replacementRecord current request coordinate source artifact operations
  -- The proofs are built outside the handler that turns the other errors into a conflict.
  match record.effects.findSome? fun effect =>
      match effect.check with
      | .ok _ => none
      | .error message => some message with
  | some message => raised message
  | none =>
      let built : Except String InstallState := do
        record.check
        InstallState.make
          ((current.installations.filter fun item => item.key ≠ record.key) ++ [record])
      match built with
      | .ok state => return state
      | .error message =>
          error installConflict ("installation state ownership conflict: " ++ message)

/-! ## The plan -/

def resolvedSource (inputs : PlanningInputs) (item : MarketplaceItem) :
    Option (ConfiguredSource × SourceEvidence × Nat × ObjectDigest) := do
  let configured ← configuredSource inputs.effective item.source.sourceAlias
  let sourceId ← item.source.sourceId
  let revision ← item.source.resolvedRevision
  let snapshot ← item.source.snapshotDigest
  let age ← item.source.ageSeconds
  return (configured,
    ⟨item.source.sourceAlias, sourceId, item.source.kind, item.source.origin, revision, configured.ref⟩,
    age, snapshot)

variable {inputs : PlanningInputs}

omit [StandardLibrary] [ManifestCodec] in
theorem resolvedSource_alias {item : MarketplaceItem}
    {configured : ConfiguredSource} {source : SourceEvidence} {age : Nat} {digest : ObjectDigest}
    (h : resolvedSource inputs item = some (configured, source, age, digest)) :
    source.sourceAlias = item.source.sourceAlias := by
  simp only [resolvedSource, bind, Option.bind_eq_some_iff, pure, Option.some.injEq,
    Prod.mk.injEq] at h
  obtain ⟨_, _, _, _, _, _, _, _, _, _, _, hsource, _⟩ := h
  rw [← hsource]

def artifactEvidence (artifact : IndexArtifact) : ArtifactEvidence :=
  ⟨artifact.identity, artifact.version, artifact.manifestDigest, artifact.payloadDigest,
    artifact.objectDigest⟩

def installReferenceOwner (request : InstallRequest) (source : SourceAlias) : String :=
  slashJoin [request.scope.value, source.value, request.identity.kind.value,
    request.identity.name.value, request.profile.value]

/-- The provenance a plan records, if the index has one; `none` is a location
that is not credential-free Git. -/
def planProvenance (services : PlanningServices) (artifact : IndexArtifact) :
    Option (Option InstallProvenance) :=
  match artifact.provenance with
  | none => some none
  | some provenance =>
      (services.gitLocationParts provenance.originUrl).map fun parts =>
        some ⟨parts.1 ++ "/" ++ parts.2, provenance.resolvedCommit, provenance.path⟩

/-- The operations of a plan together with the state observed for them. -/
def plannedOperations (inputs : PlanningInputs) (request : InstallRequest) (stored : StoredObject)
    (configured : ConfiguredSource) (ports : InstallReadPorts) : Result (List InstallOperation) := do
  let targets := profileForScope inputs.profile request.scope inputs.location.userHome
  let paths ← targetPaths request.identity inputs.profile.name targets
  let snapshots ← paths.mapM (observeTarget request inputs.location ports)
  let actions ← nativeActions request stored targets snapshots
  let boundary := if request.mutableLocalPayloadRoot.isSome then configured.location else stored.root
  convertActions request stored inputs.location snapshots ports boundary actions

def loadObject (request : InstallRequest) (item : MarketplaceItem) (services : PlanningServices)
    (ports : InstallReadPorts) : Result StoredObject := do
  match ← ports.readObject item.artifact.objectDigest with
  | none =>
      error installObjectUnavailable ("verified cached object is unavailable" ++
        (if request.offline then " while offline" else "") ++ ": " ++ item.coordinate.str)
  | some stored =>
      if stored.candidate.digest ≠ item.artifact.objectDigest then
        error installInvalid "loaded object does not match marketplace evidence"
      else do
        let _ ← services.validateObjectEvidence stored item.artifact
        return stored

/-- Everything a plan is made of besides the request and the inputs. -/
structure Preparation where
  item : MarketplaceItem
  configured : ConfiguredSource
  source : SourceEvidence
  age : Nat
  snapshotDigest : ObjectDigest
  stored : StoredObject
  operations : List InstallOperation
  current : InstallState
  statePrecondition : Observed
  replacement : InstallState
  provenance : Option InstallProvenance

def Preparation.data (made : Preparation) (request : InstallRequest) (inputs : PlanningInputs) :
    InstallPlanData where
  request := request
  coordinate := made.item.coordinate
  source := made.source
  sourceHealth := made.item.source.health
  sourceAgeSeconds := made.age
  sourceSnapshotDigest := made.snapshotDigest
  artifact := artifactEvidence made.item.artifact
  trust := made.item.trust.kind
  trustEvidenceDigest := made.item.trust.evidenceDigest
  policyDigest := inputs.services.policyDigest inputs.effective.policy
  objectStorePaths := inputs.storePaths
  objectCandidate := made.stored.candidate
  objectRoot := made.stored.root
  provenance := made.provenance
  operations := made.operations
  statePath := (installStatePaths request.scope inputs.location).destinationPath
  stateLockPath := (installStatePaths request.scope inputs.location).lockPath
  statePrecondition := made.statePrecondition
  replacementState := made.replacement
  referenceOwner := installReferenceOwner request made.item.source.sourceAlias

def acceptPlan (data : InstallPlanData) : Result InstallPlan :=
  if h : data.valid = true then .ok ⟨data, h⟩
  else error installInvalid "canonical install plan is invalid: install plan is not exactly bound"

def compatible (request : InstallRequest) (inputs : PlanningInputs) (artifact : IndexArtifact) :
    Result Unit :=
  match inputs.services.incompatibilities artifact request with
  | [] => .ok ()
  | reasons => error ⟨"artifact-incompatible"⟩ (String.intercalate "; " reasons)

def unblocked (operations : List InstallOperation) (current : InstallState) (request : InstallRequest)
    (coordinate : ArtifactCoordinate) : Result Unit :=
  match conflicts operations current request coordinate with
  | [] => .ok ()
  | blocked =>
      error installConflict ("install destinations contain unowned or drifted content; use force: " ++
        String.intercalate ", " blocked)

def checkedSource (services : PlanningServices) (source : SourceEvidence) : Result Unit :=
  match source.check services with
  | .ok _ => .ok ()
  | .error message => error installInvalid ("install evidence is invalid: " ++ message)

def requireSource (inputs : PlanningInputs) (item : MarketplaceItem) :
    Result (ConfiguredSource × SourceEvidence × Nat × ObjectDigest) :=
  match resolvedSource inputs item with
  | some found => .ok found
  | none => error installInvalid "resolved marketplace source is no longer configured/current"

def requireProvenance (services : PlanningServices) (artifact : IndexArtifact) :
    Result (Option InstallProvenance) :=
  match planProvenance services artifact with
  | some provenance => .ok provenance
  | none => error installInvalid "artifact provenance origin is not credential-free Git"

/-- The steps of the planner up to the construction of the plan. -/
def prepare (request : InstallRequest) (inputs : PlanningInputs) (ports : InstallReadPorts) :
    Result Preparation := do
  let item ← resolveArtifact inputs.catalog ⟨request.identity, request.source, request.version⟩
    request.offline
  let (configured, source, age, snapshotDigest) ← requireSource inputs item
  let _ ← mutableRootAllowed request configured
  let _ ← policyAllows request item.trust.kind inputs.effective
  let _ ← compatible request inputs item.artifact
  let stored ← loadObject request item inputs.services ports
  let operations ← plannedOperations inputs request stored configured ports
  let (current, statePrecondition) ←
    reviewedState ports (installStatePaths request.scope inputs.location).destinationPath
  let _ ← unblocked operations current request item.coordinate
  let _ ← checkedSource inputs.services source
  let replacement ← replacementState current request item.coordinate source
    (artifactEvidence item.artifact) operations
  let provenance ← requireProvenance inputs.services item.artifact
  return ⟨item, configured, source, age, snapshotDigest, stored, operations, current,
    statePrecondition, replacement, provenance⟩

def prepareInstall (request : InstallRequest) (inputs : PlanningInputs) (ports : InstallReadPorts) :
    Result InstallPlan := do
  let made ← prepare request inputs ports
  acceptPlan (made.data request inputs)

/-! ## What an accepted plan is made of -/

/-- The answers of the planner's steps behind a preparation. -/
structure Preparation.From (made : Preparation) (request : InstallRequest) (inputs : PlanningInputs)
    (ports : InstallReadPorts) : Prop where
  resolved : resolveArtifact inputs.catalog ⟨request.identity, request.source, request.version⟩
    request.offline = .ok made.item
  source : resolvedSource inputs made.item =
    some (made.configured, made.source, made.age, made.snapshotDigest)
  loaded : loadObject request made.item inputs.services ports = .ok made.stored
  operations : plannedOperations inputs request made.stored made.configured ports = .ok made.operations
  state : reviewedState ports (installStatePaths request.scope inputs.location).destinationPath =
    .ok (made.current, made.statePrecondition)
  unblocked : conflicts made.operations made.current request made.item.coordinate = []
  replacement : replacementState made.current request made.item.coordinate made.source
    (artifactEvidence made.item.artifact) made.operations = .ok made.replacement
  provenance : planProvenance inputs.services made.item.artifact = some made.provenance

variable {request : InstallRequest} {ports : InstallReadPorts}

theorem prepare_eq_ok {made : Preparation} (h : prepare request inputs ports = .ok made) :
    made.From request inputs ports := by
  unfold prepare at h
  obtain ⟨item, hitem, h⟩ := Result.of_bind_ok h
  obtain ⟨⟨configured, source, age, snapshotDigest⟩, hsource, h⟩ := Result.of_bind_ok h
  obtain ⟨_, _, h⟩ := Result.of_bind_ok h
  obtain ⟨_, _, h⟩ := Result.of_bind_ok h
  obtain ⟨_, _, h⟩ := Result.of_bind_ok h
  obtain ⟨stored, hstored, h⟩ := Result.of_bind_ok h
  obtain ⟨operations, hoperations, h⟩ := Result.of_bind_ok h
  obtain ⟨⟨current, statePrecondition⟩, hstate, h⟩ := Result.of_bind_ok h
  obtain ⟨_, hunblocked, h⟩ := Result.of_bind_ok h
  obtain ⟨_, _, h⟩ := Result.of_bind_ok h
  obtain ⟨replacement, hreplacement, h⟩ := Result.of_bind_ok h
  obtain ⟨provenance, hprovenance, h⟩ := Result.of_bind_ok h
  obtain rfl := (Except.ok.inj h).symm
  refine ⟨hitem, ?_, hstored, hoperations, hstate, ?_, hreplacement, ?_⟩
  · unfold requireSource at hsource
    split at hsource
    · rename_i found hfound
      rw [hfound, Except.ok.inj hsource]
    · exact absurd hsource (by simp [error])
  · unfold unblocked at hunblocked
    split at hunblocked
    · assumption
    · exact absurd hunblocked (by simp [error])
  · unfold requireProvenance at hprovenance
    split at hprovenance
    · rename_i found hfound
      rw [hfound, Except.ok.inj hprovenance]
    · exact absurd hprovenance (by simp [error])

theorem prepareInstall_eq_ok {plan : InstallPlan} (h : prepareInstall request inputs ports = .ok plan) :
    ∃ made : Preparation, made.From request inputs ports ∧
      plan.toInstallPlanData = made.data request inputs := by
  unfold prepareInstall at h
  obtain ⟨made, hmade, h⟩ := Result.of_bind_ok h
  refine ⟨made, prepare_eq_ok hmade, ?_⟩
  unfold acceptPlan at h
  split at h
  · rw [← Except.ok.inj h]
  · exact absurd h (by simp [error])

omit [StandardLibrary] in
/-- The manifest of a preparation is what its reviewed snapshot holds. -/
theorem reviewedState_eq_ok {path : String} {current : InstallState}
    {snapshot : Observed} (h : reviewedState ports path = .ok (current, snapshot)) :
    (snapshot = .absent ∧ current = emptyState) ∨
      ∃ content executable, snapshot = .file content executable ∧
        parseInstallState content = .ok current := by
  unfold reviewedState at h
  obtain ⟨read, _, h⟩ := Result.of_bind_ok h
  obtain ⟨observed, _, h⟩ := Result.of_bind_ok h
  split at h
  · obtain ⟨_, h⟩ := Result.of_check_ok h
    have hpair := Except.ok.inj h
    rw [Prod.mk.injEq] at hpair
    exact Or.inl ⟨hpair.2.symm, hpair.1.symm⟩
  · rename_i content executable _
    obtain ⟨parsed, hparsed, h⟩ := Result.of_bind_ok h
    split at h
    · have hpair := Except.ok.inj h
      rw [Prod.mk.injEq] at hpair
      exact Or.inr ⟨content, executable, hpair.2.symm, by rw [hparsed, hpair.1]⟩
    · exact absurd h (by simp [error])
  · exact absurd h (by simp [error])

omit [ManifestCodec] in
/-- The replacement holds the new record and the records with other keys. -/
theorem replacementState_eq_ok {current replacement : InstallState}
    {coordinate : ArtifactCoordinate} {source : SourceEvidence} {artifact : ArtifactEvidence}
    {operations : List InstallOperation}
    (h : replacementState current request coordinate source artifact operations = .ok replacement)
    (record : InstallationRecord) :
    record ∈ replacement.installations ↔
      record = replacementRecord current request coordinate source artifact operations ∨
        (record ∈ current.installations ∧
          record.key ≠ (replacementRecord current request coordinate source artifact operations).key) := by
  unfold replacementState at h
  simp only at h
  split at h
  · exact absurd h (by simp [raised, error])
  · split at h
    · rename_i state hbuilt
      obtain rfl : state = replacement := Except.ok.inj h
      have hmake : InstallState.make ((current.installations.filter fun item =>
          item.key ≠ (replacementRecord current request coordinate source artifact operations).key) ++
            [replacementRecord current request coordinate source artifact operations]) = .ok state := by
        cases hcheck : (replacementRecord current request coordinate source artifact operations).check with
        | error message => simp [hcheck, bind, Except.bind] at hbuilt
        | ok _ => simpa [hcheck, bind, Except.bind] using hbuilt
      rw [InstallState.mem_make hmake]
      simp only [List.mem_append, List.mem_filter, List.mem_singleton, ne_eq, decide_not,
        Bool.not_eq_eq_eq_not, Bool.not_true, decide_eq_false_iff_not]
      exact or_comm
    · exact absurd h (by simp [error])

/-! ## The ports of the local adapter -/

/-- Ports that read the world as it is. -/
def World.readPorts (world : World) : InstallReadPorts where
  readObject digest := .ok (world.objects digest)
  readState := world.readState
  inspectState := world.inspectState
  inspectPath := world.inspectPath
  inspectLinkTarget := world.inspectLinkTarget

/-- A plan is prepared when its data is. -/
theorem prepareInstall_of_data {plan : InstallPlan}
    (h : (prepare request inputs ports).map (·.data request inputs) = .ok plan.toInstallPlanData) :
    prepareInstall request inputs ports = .ok plan := by
  unfold prepareInstall
  cases hprepared : prepare request inputs ports with
  | error diagnostics =>
      rw [hprepared] at h
      exact absurd h (by simp [Except.map])
  | ok made =>
      rw [hprepared] at h
      have hdata : made.data request inputs = plan.toInstallPlanData := Except.ok.inj h
      show acceptPlan (made.data request inputs) = .ok plan
      unfold acceptPlan
      rw [hdata, dif_pos plan.accepted]

end Planning

/-! ## A small marketplace -/

def sampleDigest (digit : Char) : ObjectDigest := ⟨String.ofList (List.replicate 64 digit)⟩

def teamView : MarketplaceSourceView where
  sourceAlias := ⟨"team", Eq.refl true⟩
  kind := .sourceLocal
  sourceId := some ⟨"team", Eq.refl true⟩
  origin := "/srv/team"
  resolvedRevision := some "local"
  snapshotDigest := some (sampleDigest '5')
  health := .healthy
  ageSeconds := some 0

def claudeProfile : Profile where
  name := ⟨"claude", Eq.refl true⟩
  targets := { guidelines := some ⟨".claude/rules"⟩, memory := some ⟨.file, "CLAUDE.md"⟩ }

def indexedArtifact (identity : ArtifactIdentity) (version : String) (object : ObjectDigest) :
    IndexArtifact :=
  ⟨identity, version, sampleDigest '1', sampleDigest '2', object, none⟩

/-- One local source with one artifact, for a project and one data root. -/
def teamInputs (artifact : IndexArtifact) (projectRoot : String)
    (h : isAbsolutePath projectRoot = true) : PlanningInputs where
  catalog := ⟨[teamView],
    [{ artifact := artifact, source := teamView, trust := ⟨.localTrust, sampleDigest '4'⟩ }], by simp⟩
  effective := ⟨[⟨⟨"team", Eq.refl true⟩, .sourceLocal, "/srv/team", none, true⟩], {}⟩
  profile := claudeProfile
  location := ⟨projectRoot, "/home/dev", "/data", h, Eq.refl true, Eq.refl true⟩
  storePaths := ⟨"/data"⟩
  services :=
    { validateObjectEvidence := fun _ _ => .ok ()
      incompatibilities := fun _ _ => []
      gitLocationParts := fun _ => none
      policyDigest := fun _ => sampleDigest '3' }

/-- A stored package with one payload file. -/
def storedFile (object : ObjectDigest) (name : String) (content : Bytes) (executable : Bool) :
    StoredObject where
  candidate := ⟨object, [.directory ⟨["payload"]⟩, .file ⟨["payload", name]⟩ content executable]⟩
  root := ObjectStorePaths.objectRoot ⟨"/data"⟩ object

/-- A world in which nothing is installed and the given packages are stored. -/
def freshWorld (stored : List StoredObject) : World where
  files _ := .absent
  manifests _ := .absent
  references := emptyIndex
  objects digest := stored.find? fun object => object.candidate.digest == digest
  resolves _ _ := false
  direct _ _ := false

/-! ## A guideline in two versions -/

section Sample

attribute [local instance] plainLibrary

def styleIdentity : ArtifactIdentity := ⟨.guideline, ⟨"style", Eq.refl true⟩⟩

def styleRequest : InstallRequest := { identity := styleIdentity, profile := ⟨"claude", Eq.refl true⟩ }

def styleOperation (root : String) (content : Bytes) : InstallOperation where
  destination := ".claude/rules/style.md"
  absoluteDestination := root ++ "/.claude/rules/style.md"
  precondition := .absent
  overwrote := false
  action := .writeFile "payload/style.md" content false false none

def styleRecord (version : String) (object : ObjectDigest) (content : Bytes) : InstallationRecord where
  source := ⟨⟨"team", Eq.refl true⟩, ⟨"team", Eq.refl true⟩, .sourceLocal, "/srv/team", "local", none⟩
  artifact := ⟨styleIdentity, version, sampleDigest '1', sampleDigest '2', object⟩
  profile := ⟨"claude", Eq.refl true⟩
  profileVersion := 1
  scope := .project
  requestedMode := .copy
  effects := [proofOf (styleOperation "" content)]

def firstStyle : InstallState :=
  ⟨[styleRecord "1.0.0" (sampleDigest 'a') [35]], by decide, by decide⟩

def secondStyle : InstallState :=
  ⟨[styleRecord "2.0.0" (sampleDigest 'b') [36]], by decide, by decide⟩

/-- The manifests of the two versions. -/
@[reducible] def styleManifests : ManifestCodec := tableCodec [firstStyle, secondStyle]

attribute [local instance] styleManifests

def styleWorld : World :=
  freshWorld [storedFile (sampleDigest 'a') "style.md" [35] false,
    storedFile (sampleDigest 'b') "style.md" [36] false]

/-- The first version in one project. -/
def firstInputs : PlanningInputs :=
  teamInputs (indexedArtifact styleIdentity "1.0.0" (sampleDigest 'a')) "/one" (by decide)

/-- The second version in another one. -/
def secondInputs : PlanningInputs :=
  teamInputs (indexedArtifact styleIdentity "2.0.0" (sampleDigest 'b')) "/two" (by decide)

def stylePlanData (root version : String) (object : ObjectDigest) (content : Bytes)
    (replacement : InstallState) : InstallPlanData where
  request := styleRequest
  coordinate := ⟨⟨"team", Eq.refl true⟩, styleIdentity, some version⟩
  source := (styleRecord version object content).source
  sourceHealth := .healthy
  sourceAgeSeconds := 0
  sourceSnapshotDigest := sampleDigest '5'
  artifact := (styleRecord version object content).artifact
  trust := .localTrust
  trustEvidenceDigest := sampleDigest '4'
  policyDigest := sampleDigest '3'
  objectStorePaths := ⟨"/data"⟩
  objectCandidate := (storedFile object "style.md" content false).candidate
  objectRoot := (storedFile object "style.md" content false).root
  provenance := none
  operations := [styleOperation root content]
  statePath := root ++ "/.agent-artifacts/manifest.json"
  stateLockPath := root ++ "/.agent-artifacts/state.lock"
  statePrecondition := .absent
  replacementState := replacement
  referenceOwner := "project/team/guideline/style/claude"

def firstPlan : InstallPlan :=
  ⟨stylePlanData "/one" "1.0.0" (sampleDigest 'a') [35] firstStyle, by decide +kernel⟩

theorem firstPlan_prepared :
    prepareInstall styleRequest firstInputs styleWorld.readPorts = .ok firstPlan :=
  prepareInstall_of_data (by decide +kernel)

end Sample

end AgentArtifacts
