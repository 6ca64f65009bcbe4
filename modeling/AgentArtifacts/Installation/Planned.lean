import AgentArtifacts.Installation.Prepare

/-!
# What the operations of a plan are

Every operation of an accepted plan comes from one action of the artifact and
carries the state that was observed at its own destination. The bytes of a write
are those of its action, and the bytes of a merge are merged from the observed
document.
-/

namespace AgentArtifacts

variable [StandardLibrary]

/-! ## Operations and actions -/

/-- What an action becomes at a destination with the given state. -/
def ActionBecomes (request : InstallRequest) (path : String) (state : Observed) :
    NativeAction → OperationAction → Prop
  | .copy _, .copyTree _ _ => True
  | .copy _, .link _ _ _ _ => request.mode = .symlink
  | .write _ content restoresFrom, .writeFile _ written _ managedBlock source =>
      written = content ∧ managedBlock = isManagedBlock request ∧ source = restoresFrom
  | .write _ _ _, .link _ _ _ _ => request.mode = .symlink ∧ request.identity.kind = .guideline
  | .merge payload, .mergeJson jsonPath mergeMode identity evidence valueDigest merged =>
      jsonPath = payload.jsonPath ∧ mergeMode = payload.mode ∧
        identity = (if payload.identity = [] then [request.identity.name.value] else payload.identity) ∧
        mergeIdentityEvidence payload = .ok evidence ∧ valueDigest = jsonDigest payload.value.normalize ∧
        mergedContent payload ⟨path, state⟩ evidence request.force = .ok merged
  | _, _ => False

/-- An operation made from an action and what its destination was observed to hold. -/
structure Converted (request : InstallRequest) (location : InstallLocation) (ports : InstallReadPorts)
    (action : NativeAction) (operation : InstallOperation) : Prop where
  destination : destinationOf action.destination request.scope location =
    .ok ⟨operation.destination, operation.absoluteDestination⟩
  observed : ports.inspectPath operation.absoluteDestination = .ok operation.precondition
  notSpecial : ∀ digest, operation.precondition ≠ .special digest
  becomes : ActionBecomes request operation.absoluteDestination operation.precondition action
    operation.action
  valid : operation.valid = true

/-! ## Observation -/

variable {request : InstallRequest} {ports : InstallReadPorts} {snapshot : PathSnapshot}

theorem observeTarget_eq_ok {location : InstallLocation} {path found : String}
    (h : observeTarget request location ports path = .ok (found, snapshot)) :
    ∃ destination, found = path ∧ destinationOf path request.scope location = .ok destination ∧
      snapshot.path = destination.absolute ∧
      ports.inspectPath destination.absolute = .ok snapshot.state ∧
      ∀ digest, snapshot.state ≠ .special digest := by
  unfold observeTarget at h
  obtain ⟨destination, hdestination, h⟩ := Result.of_bind_ok h
  obtain ⟨observed, hobserved, h⟩ := Result.of_bind_ok h
  obtain ⟨hrefused, h⟩ := Result.of_check_ok h
  have hpair := Except.ok.inj h
  rw [Prod.mk.injEq] at hpair
  obtain ⟨hfound, hsnapshot⟩ := hpair
  subst hsnapshot
  refine ⟨destination, hfound.symm, hdestination, rfl, hobserved, ?_⟩
  intro digest hspecial
  simp only at hspecial
  rw [hspecial] at hrefused
  exact hrefused rfl

/-- A snapshot that was looked up is the one of its path. -/
theorem snapshotAt_observed {location : InstallLocation} {paths : List String} {snapshots : Snapshots}
    {path : String} (h : paths.mapM (observeTarget request location ports) = .ok snapshots)
    (hfound : snapshotAt snapshots path = .ok snapshot) :
    observeTarget request location ports path = .ok (path, snapshot) := by
  unfold snapshotAt at hfound
  split at hfound
  · rename_i found hlookup
    rw [Except.ok.inj hfound] at hlookup
    have hall := Result.forall₂_of_mapM_ok h
    clear h hfound
    induction hall with
    | nil => exact absurd hlookup (by simp)
    | cons hfirst _ ih =>
        rename_i first pair _ _ _
        obtain ⟨key, value⟩ := pair
        obtain ⟨_, rfl, _⟩ := observeTarget_eq_ok hfirst
        by_cases hkey : path = key
        · subst hkey
          simp only [List.lookup_cons, beq_self_eq_true, Option.some.injEq] at hlookup
          rw [hfirst, hlookup]
        · have hbeq : (path == key) = false := by simpa using hkey
          simp only [List.lookup_cons, hbeq] at hlookup
          exact ih hlookup
  · exact absurd hfound (by simp [raised, error])

/-! ## Conversion -/

variable {stored : StoredObject} {operation : InstallOperation}

theorem convertCopy_eq_ok {boundary : String} {payload : List TreeMember} {destination : Destination} {path : String}
    (h : convertCopy request stored ports boundary payload destination snapshot = .ok operation) :
    operation.destination = destination.logical ∧
      operation.absoluteDestination = destination.absolute ∧ operation.precondition = snapshot.state ∧
      ActionBecomes request destination.absolute snapshot.state (.copy path) operation.action := by
  unfold convertCopy at h
  simp only at h
  split at h
  · obtain ⟨tree, _, h⟩ := Result.of_bind_ok h
    obtain ⟨desired, _, h⟩ := Result.of_bind_ok h
    split at h
    · rename_i hmode
      obtain ⟨target, _, h⟩ := Result.of_bind_ok h
      split at h
      · rw [← Except.ok.inj h]
        exact ⟨rfl, rfl, rfl, hmode⟩
      · exact absurd h (by simp [error])
    · rw [← Except.ok.inj h]
      exact ⟨rfl, rfl, rfl, trivial⟩
  · obtain ⟨_, htree, _⟩ := Result.of_bind_ok h
    exact absurd htree (by simp [raised, error])

theorem convertWrite_eq_ok
    {boundary : String} {primary : Result PayloadFile} {content : Bytes} {restoresFrom : Option String}
    {destination : Destination} {path : String}
    (h : convertWrite request stored ports boundary primary content restoresFrom destination snapshot =
      .ok operation) :
    operation.destination = destination.logical ∧
      operation.absoluteDestination = destination.absolute ∧ operation.precondition = snapshot.state ∧
      ActionBecomes request destination.absolute snapshot.state (.write path content restoresFrom)
        operation.action := by
  unfold convertWrite at h
  simp only at h
  split at h
  · rename_i hlink
    obtain ⟨target, _, h⟩ := Result.of_bind_ok h
    split at h
    · rw [← Except.ok.inj h]
      exact ⟨rfl, rfl, rfl, hlink⟩
    · exact absurd h (by simp [error])
  · rw [← Except.ok.inj h]
    exact ⟨rfl, rfl, rfl, rfl, rfl, rfl⟩

theorem convertMerge_eq_ok {payload : MergePayload}
    {destination : Destination}
    (hpath : snapshot.path = destination.absolute)
    (h : convertMerge request payload destination snapshot = .ok operation) :
    operation.destination = destination.logical ∧
      operation.absoluteDestination = destination.absolute ∧ operation.precondition = snapshot.state ∧
      ActionBecomes request destination.absolute snapshot.state (.merge payload) operation.action := by
  unfold convertMerge at h
  obtain ⟨evidence, hevidence, h⟩ := Result.of_bind_ok h
  obtain ⟨merged, hmerged, h⟩ := Result.of_bind_ok h
  rw [← Except.ok.inj h]
  refine ⟨rfl, rfl, rfl, rfl, rfl, rfl, hevidence, rfl, ?_⟩
  rw [← hpath]
  exact hmerged

theorem checkedOperation_eq_ok {converted operation : InstallOperation}
    (h : (if converted.valid = true then (pure converted : Result InstallOperation)
      else raised "install operation is not exactly bound") = .ok operation) :
    operation.valid = true ∧ converted = operation := by
  split at h
  · rename_i hvalid
    obtain rfl := Except.ok.inj h
    exact ⟨hvalid, rfl⟩
  · exact absurd h (by simp [raised, error])

/-- The conversion binds an action to its destination and to what was observed there. -/
theorem convertAction_converted
    {location : InstallLocation} {paths : List String} {snapshots : Snapshots} {boundary : String}
    {payload : List TreeMember} {action : NativeAction}
    (hsnapshots : paths.mapM (observeTarget request location ports) = .ok snapshots)
    (h : convertAction request stored location snapshots ports boundary payload action = .ok operation) :
    Converted request location ports action operation := by
  unfold convertAction at h
  obtain ⟨destination, hdestination, h⟩ := Result.of_bind_ok h
  obtain ⟨snapshot, hsnapshot, h⟩ := Result.of_bind_ok h
  obtain ⟨_, _, hsame, hpath, hobserved, hspecial⟩ :=
    observeTarget_eq_ok (snapshotAt_observed hsnapshots hsnapshot)
  rw [hdestination] at hsame
  obtain rfl := Except.ok.inj hsame
  -- Whatever the action is, its operation is checked and returned as it was made.
  have hfields : operation.valid = true ∧ operation.destination = destination.logical ∧
      operation.absoluteDestination = destination.absolute ∧ operation.precondition = snapshot.state ∧
      ActionBecomes request destination.absolute snapshot.state action operation.action := by
    cases action with
    | copy path =>
        obtain ⟨converted, hconverted, h⟩ := Result.of_bind_ok h
        obtain ⟨hvalid, rfl⟩ := checkedOperation_eq_ok h
        exact ⟨hvalid, convertCopy_eq_ok hconverted⟩
    | write path content restoresFrom =>
        obtain ⟨converted, hconverted, h⟩ := Result.of_bind_ok h
        obtain ⟨hvalid, rfl⟩ := checkedOperation_eq_ok h
        exact ⟨hvalid, convertWrite_eq_ok hconverted⟩
    | merge merge =>
        obtain ⟨converted, hconverted, h⟩ := Result.of_bind_ok h
        obtain ⟨hvalid, rfl⟩ := checkedOperation_eq_ok h
        exact ⟨hvalid, convertMerge_eq_ok hpath hconverted⟩
  obtain ⟨hvalid, hlogical, habsolute, hprecondition, hbecomes⟩ := hfields
  refine ⟨?_, ?_, ?_, ?_, hvalid⟩
  · rw [hdestination, hlogical, habsolute]
  · rw [habsolute, hprecondition, hobserved]
  · rw [hprecondition]
    exact hspecial
  · rw [habsolute, hprecondition]
    exact hbecomes

/-- The operations of a plan are the artifact's actions, each bound to its destination. -/
theorem plannedOperations_converted {inputs : PlanningInputs} {configured : ConfiguredSource}
    {operations : List InstallOperation}
    (h : plannedOperations inputs request stored configured ports = .ok operations) :
    ∃ (paths : List String) (snapshots : Snapshots) (actions : List NativeAction),
      paths.mapM (observeTarget request inputs.location ports) = .ok snapshots ∧
      nativeActions request stored
        (profileForScope inputs.profile request.scope inputs.location.userHome) snapshots = .ok actions ∧
      List.Forall₂ (Converted request inputs.location ports) actions operations := by
  unfold plannedOperations at h
  obtain ⟨paths, _, h⟩ := Result.of_bind_ok h
  obtain ⟨snapshots, hsnapshots, h⟩ := Result.of_bind_ok h
  obtain ⟨actions, hactions, h⟩ := Result.of_bind_ok h
  simp only [convertActions] at h
  obtain ⟨payload, _, h⟩ := Result.of_bind_ok h
  exact ⟨paths, snapshots, actions, hsnapshots, hactions,
    (Result.forall₂_of_mapM_ok h).imp fun _ _ hconverted => convertAction_converted hsnapshots hconverted⟩

end AgentArtifacts
