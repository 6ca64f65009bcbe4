import AgentArtifacts.Installation.Ownership
import AgentArtifacts.Lifecycle.Retention

/-!
# Proofs of recorded effects across reinstallations

An installation replaces the record of its artifact, profile and scope. The
proof of a recorded effect survives when the new actions come to its place
again. An update refuses to drop one; a plain reinstallation does not look.
-/

namespace AgentArtifacts

section Coverage

variable [StandardLibrary] [ManifestCodec]

/-! ## Places -/

/-- The place of an action, as its effect will be recorded. -/
def actionLocator (request : InstallRequest) (location : InstallLocation) (action : NativeAction) :
    Option Locator :=
  match destinationOf action.destination request.scope location with
  | .error _ => none
  | .ok destination =>
      match action with
      | .merge payload =>
          match mergeIdentityEvidence payload with
          | .error _ => none
          | .ok evidence => some ⟨destination.logical, payload.jsonPath, (jsonDigest evidence).str⟩
      | _ => some ⟨destination.logical, "", ""⟩

/-- An action that replaces the whole of its destination. -/
def NativeAction.isWhole : NativeAction → Bool
  | .merge _ => false
  | _ => true

/-- The actions a request comes to under its profile, its package and what is observed. -/
def plannedActions (inputs : PlanningInputs) (request : InstallRequest) (stored : StoredObject)
    (ports : InstallReadPorts) : Result (List NativeAction) := do
  let targets := profileForScope inputs.profile request.scope inputs.location.userHome
  let paths ← targetPaths request.identity inputs.profile.name targets
  let snapshots ← paths.mapM (observeTarget request inputs.location ports)
  nativeActions request stored targets snapshots

/-- Some action comes to the place of the effect, or replaces all of its destination. -/
def ActionsCover (request : InstallRequest) (location : InstallLocation) (actions : List NativeAction)
    (effect : EffectProof) : Prop :=
  ∃ action ∈ actions, ∃ place, actionLocator request location action = some place ∧
    (place = effect.locator ∨ (action.isWhole = true ∧ place.destination = effect.destination))

omit [ManifestCodec] in
@[simp] theorem locator_proofOf_destination (operation : InstallOperation) :
    (proofOf operation).locator.destination = operation.destination := by
  simp [EffectProof.locator]

variable {request : InstallRequest} {ports : InstallReadPorts}

omit [ManifestCodec] in
/-- An operation is recorded at the place of its action. -/
theorem Converted.locator {location : InstallLocation} {action : NativeAction} {operation : InstallOperation}
    (h : Converted request location ports action operation) :
    actionLocator request location action = some (proofOf operation).locator ∧
      (action.isWhole = true ↔ operation.effectKind ≠ .mergeJson) := by
  have hbecomes := h.becomes
  unfold actionLocator
  rw [h.destination]
  cases haction : operation.action with
  | mergeJson jsonPath mergeMode identity evidence valueDigest content =>
      rw [haction] at hbecomes
      cases action with
      | copy path => exact hbecomes.elim
      | write path written restoresFrom => exact hbecomes.elim
      | merge payload =>
          obtain ⟨hpath, _, _, hevidence, _⟩ := hbecomes
          refine ⟨?_, ?_⟩
          · simp [hevidence, EffectProof.locator, proofOf, haction, hpath]
          · simp [NativeAction.isWhole, InstallOperation.effectKind, haction]
  | copyTree sourcePath tree =>
      rw [haction] at hbecomes
      cases action with
      | copy path =>
          refine ⟨?_, ?_⟩
          · simp [EffectProof.locator, proofOf, haction]
          · simp [NativeAction.isWhole, InstallOperation.effectKind, haction]
      | write path written restoresFrom => exact hbecomes.elim
      | merge payload => exact hbecomes.elim
  | writeFile sourcePath content executable managedBlock restoresFrom =>
      rw [haction] at hbecomes
      cases action with
      | copy path => exact hbecomes.elim
      | write path written source =>
          refine ⟨?_, ?_⟩
          · simp [EffectProof.locator, proofOf, haction]
          · cases managedBlock <;> simp [NativeAction.isWhole, InstallOperation.effectKind, haction]
      | merge payload => exact hbecomes.elim
  | link sourcePath target targetState semantics =>
      have hkind : operation.effectKind ≠ .mergeJson := by
        rcases operation.link_effectKind haction with hkind | hkind <;> simp [hkind]
      rw [haction] at hbecomes
      cases action with
      | copy path => exact ⟨by simp [EffectProof.locator, proofOf, haction], by simp [NativeAction.isWhole, hkind]⟩
      | write path written source =>
          exact ⟨by simp [EffectProof.locator, proofOf, haction], by simp [NativeAction.isWhole, hkind]⟩
      | merge payload => exact hbecomes.elim

omit [StandardLibrary] [ManifestCodec] in
@[simp] theorem inheritProof_locator (prior : Option InstallationRecord) (proof : EffectProof) :
    (inheritProof prior proof).locator = proof.locator := by
  unfold inheritProof
  split
  · rfl
  · split <;> rfl

/-! ## Orphans -/

/-- The key under which a plan replaces a record. -/
def InstallPlanData.key (plan : InstallPlanData) : RecordKey :=
  ⟨(ArtifactCoordinate.mk plan.source.sourceAlias plan.artifact.identity none).str,
    plan.request.profile.value, plan.request.scope.value⟩

/-- The plan replaces the whole destination. -/
def Overwrites (plan : InstallPlanData) (destination : String) : Prop :=
  ∃ operation ∈ plan.operations, operation.effectKind ≠ .mergeJson ∧ operation.destination = destination

/-- Every effect of the record has a proof in the replacement, or the plan does away with it. -/
def OrphansNothing (plan : InstallPlanData) (record : InstallationRecord) : Prop :=
  ∀ effect ∈ record.effects,
    (∃ replacement ∈ plan.replacementState.installations, replacement.key = record.key ∧
      effect.locator ∈ replacement.effects.map (·.locator)) ∨
    Overwrites plan effect.destination

/-! ## One plan -/

variable {inputs : PlanningInputs}

omit [ManifestCodec] in
theorem plannedOperations_actions {stored : StoredObject} {configured : ConfiguredSource}
    {operations : List InstallOperation}
    (h : plannedOperations inputs request stored configured ports = .ok operations) :
    ∃ actions, plannedActions inputs request stored ports = .ok actions ∧
      List.Forall₂ (Converted request inputs.location ports) actions operations := by
  unfold plannedOperations at h
  obtain ⟨paths, hpaths, h⟩ := Result.of_bind_ok h
  obtain ⟨snapshots, hsnapshots, h⟩ := Result.of_bind_ok h
  obtain ⟨actions, hactions, h⟩ := Result.of_bind_ok h
  simp only [convertActions] at h
  obtain ⟨payload, _, h⟩ := Result.of_bind_ok h
  refine ⟨actions, ?_, ?_⟩
  · simp only [plannedActions, hpaths, hsnapshots, bind, Except.bind]
    exact hactions
  · exact (Result.forall₂_of_mapM_ok h).imp fun _ _ hconverted =>
      convertAction_converted hsnapshots hconverted

variable {plan : InstallPlan}

/-- The record a prepared plan writes in place of the one with its key. -/
theorem prepareInstall_fresh (h : prepareInstall request inputs ports = .ok plan) :
    ∃ fresh, fresh.key = plan.key ∧
      fresh.effects.map (·.locator) = plan.operations.map (fun operation => (proofOf operation).locator) ∧
      ∀ record, record ∈ plan.replacementState.installations ↔
        record = fresh ∨ (record ∈ plan.reviewedManifest.installations ∧ record.key ≠ fresh.key) := by
  obtain ⟨made, hmade, hdata⟩ := prepareInstall_eq_ok h
  rw [hdata, reviewedManifest_eq hmade]
  refine ⟨replacementRecord made.current request made.item.coordinate made.source
    (artifactEvidence made.item.artifact) made.operations, ?_, ?_, replacementState_eq_ok hmade.replacement⟩
  · rfl
  · simp [replacementRecord, Preparation.data, Function.comp_def]

/-- A prepared plan orphans no effect of the record it replaces exactly when its
actions cover every recorded effect. -/
theorem orphansNothing_iff {record : InstallationRecord}
    (h : prepareInstall request inputs ports = .ok plan) (hkey : record.key = plan.key) :
    OrphansNothing plan.toInstallPlanData record ↔
      ∀ actions, plannedActions inputs request ⟨plan.objectCandidate, plan.objectRoot⟩ ports = .ok actions →
        ∀ effect ∈ record.effects, ActionsCover request inputs.location actions effect := by
  obtain ⟨fresh, hfresh, hlocators, hmembers⟩ := prepareInstall_fresh h
  obtain ⟨made, hmade, hdata⟩ := prepareInstall_eq_ok h
  obtain ⟨planned, hplanned, hall⟩ := plannedOperations_actions hmade.operations
  have hoperations : plan.operations = made.operations := by rw [hdata]; rfl
  have hstored : (⟨plan.objectCandidate, plan.objectRoot⟩ : StoredObject) = made.stored := by
    rw [hdata]
    rfl
  constructor
  · intro horphans actions hactions effect heffect
    rw [hstored, hplanned] at hactions
    obtain rfl := Except.ok.inj hactions
    rcases horphans effect heffect with ⟨replacement, hreplacement, hsame, hlocator⟩ | ⟨operation, hmem, hkind, hdestination⟩
    · have hfreshRecord : replacement = fresh := by
        rcases (hmembers replacement).mp hreplacement with heq | ⟨_, hne⟩
        · exact heq
        · exact absurd (hsame.trans (hkey.trans hfresh.symm)) hne
      rw [hfreshRecord, hlocators, hoperations] at hlocator
      obtain ⟨operation, hmem, hplace⟩ := List.mem_map.mp hlocator
      obtain ⟨action, haction, hconverted⟩ := exists_of_forall₂_mem hall hmem
      exact ⟨action, haction, _, hconverted.locator.1, Or.inl hplace⟩
    · rw [hoperations] at hmem
      obtain ⟨action, haction, hconverted⟩ := exists_of_forall₂_mem hall hmem
      refine ⟨action, haction, _, hconverted.locator.1, Or.inr ⟨hconverted.locator.2.mpr hkind, ?_⟩⟩
      rw [locator_proofOf_destination, hdestination]
  · intro hcover effect heffect
    obtain ⟨action, haction, place, hplace, hcovers⟩ :=
      hcover planned (by rw [hstored]; exact hplanned) effect heffect
    obtain ⟨operation, hmem, hconverted⟩ := exists_of_forall₂_mem hall.flip haction
    have hconverted' : Converted request inputs.location ports action operation := hconverted
    obtain ⟨hlocator, hwhole⟩ := hconverted'.locator
    obtain rfl : (proofOf operation).locator = place := Option.some.inj (hlocator.symm.trans hplace)
    rcases hcovers with heq | ⟨hisWhole, hdestination⟩
    · refine Or.inl ⟨fresh, (hmembers fresh).mpr (Or.inl rfl), hfresh.trans hkey.symm, ?_⟩
      rw [hlocators, hoperations, ← heq]
      exact List.mem_map_of_mem hmem
    · refine Or.inr ⟨operation, by rw [hoperations]; exact hmem, hwhole.mp hisWhole, ?_⟩
      rw [← hdestination, locator_proofOf_destination]

/-- An update of a record orphans none of its effects. -/
theorem prepareUpdate_orphansNothing {record : InstallationRecord}
    {ports : LifecycleReadPorts} {options : UpdateOptions} {updated : UpdatePlan}
    (h : prepareUpdate record inputs ports options = .ok updated)
    (hchoice : updated.choice = .install plan) : OrphansNothing plan.toInstallPlanData record := by
  have hretired := (prepareUpdate_install_spec h hchoice).2
  unfold retiredEffectUpdate at hretired
  split at hretired
  · exact absurd hretired (by simp)
  · rename_i replacement hfound
    split at hretired
    · rename_i hnone
      intro effect heffect
      refine Or.inl ⟨replacement, List.mem_of_find?_eq_some hfound, ?_, ?_⟩
      · simpa using List.find?_some hfound
      · have hsorted : ((record.effects.filter fun effect =>
            !(replacement.effects.map (·.locator)).contains effect.locator).map (·.destination)) = [] := by
          have hperm := List.perm_insertionSort (· ≤ ·) ((record.effects.filter fun effect =>
            !(replacement.effects.map (·.locator)).contains effect.locator).map (·.destination))
          unfold retiredDestinations at hnone
          rw [hnone] at hperm
          exact hperm.symm.eq_nil
        rw [List.map_eq_nil_iff, List.filter_eq_nil_iff] at hsorted
        simpa using hsorted effect heffect
    · exact absurd hretired (by simp)

/-! ## Runs -/

/-- A manifest of the world, as the store wrote it, proves an effect at the place. -/
def HasProof (world : World) (path : String) (place : Locator) : Prop :=
  ∃ executable state record effect, world.manifests path = .file (installStateBytes state) executable ∧
    record ∈ state.installations ∧ effect ∈ record.effects ∧ effect.locator = place

/-- The places that were written for a manifest and that no plan has done away with. -/
structure Ledger where
  world : World
  written : String → Locator → Prop

def writtenAfter (event : StoreEvent) (written : String → Locator → Prop) (path : String)
    (place : Locator) : Prop :=
  match event with
  | .install plan _ =>
      (path = plan.statePath ∧
        place ∈ plan.operations.map fun operation => (proofOf operation).locator) ∨
      (written path place ∧
        ¬ (path = plan.statePath ∧ Overwrites plan.toInstallPlanData place.destination))
  | .uninstall plan _ =>
      written path place ∧ ¬ (path = plan.statePath ∧ place ∈ plan.record.effects.map (·.locator))
  | _ => written path place

/-- The actions behind an installation cover the effects of the record it replaces. -/
def CoversRecorded : StoreEvent → Prop
  | .install plan _ => ∀ request inputs ports, prepareInstall request inputs ports = .ok plan →
      ∀ record ∈ plan.reviewedManifest.installations, record.key = plan.key →
        ∀ actions, plannedActions inputs request ⟨plan.objectCandidate, plan.objectRoot⟩ ports = .ok actions →
          ∀ effect ∈ record.effects, ActionsCover request inputs.location actions effect
  | _ => True

def CoveredStep (dataRoot : String) (before after : Ledger) : Prop :=
  ∃ event, PlannedFor dataRoot event ∧ Performed before.world event after.world ∧ CoversRecorded event ∧
    after.written = writtenAfter event before.written

/-- Every place that was written and not done away with has its proof. -/
def OwnsWritten (ledger : Ledger) : Prop :=
  ∀ path place, ledger.written path place → HasProof ledger.world path place

/-- The manifest that a prepared plan found is the one the store wrote. -/
theorem reviewedManifest_of_written {world : World} {executable : Bool}
    {state : InstallState} (hprepared : prepareInstall request inputs ports = .ok plan)
    (hcurrent : preconditionsCurrent world plan = true)
    (hmanifest : world.manifests plan.statePath = .file (installStateBytes state) executable) :
    plan.reviewedManifest = state := by
  obtain ⟨_, current, hreviewed, _⟩ := prepareInstall_replacement hprepared
  have hobserved := (inspectNode_eq_ok (preconditionsCurrent_state hcurrent)).2
  rw [hmanifest] at hobserved
  have hsnapshot : plan.statePrecondition = .file (installStateBytes state) executable :=
    (Except.ok.inj hobserved).symm
  rcases hreviewed with ⟨habsent, _⟩ | ⟨content, bit, hfile, hparsed⟩
  · rw [hsnapshot] at habsent
    exact absurd habsent (by simp)
  · rw [hsnapshot, Observed.file.injEq] at hfile
    rw [← hfile.1] at hparsed
    have hsame := ManifestCodec.parse_bytes hparsed
    simp only [InstallPlanData.reviewedManifest, hsnapshot, hparsed, hsame]

theorem ownsWritten_install {dataRoot : String} {faults : InstallFaults}
    {world after : World} {written : String → Locator → Prop}
    (hplanned : PlannedFor dataRoot (.install plan faults)) (hinstalled : Installed world plan after)
    (hcovers : CoversRecorded (.install plan faults)) (howns : OwnsWritten ⟨world, written⟩) :
    OwnsWritten ⟨after, writtenAfter (.install plan faults) written⟩ := by
  obtain ⟨request, inputs, ports, hprepared⟩ := plannedFor_install hplanned
  obtain ⟨fresh, hfresh, hlocators, hmembers⟩ := prepareInstall_fresh hprepared
  obtain ⟨executable, hmanifests⟩ := hinstalled.manifests
  have hwritten : after.manifests plan.statePath =
      .file (installStateBytes plan.replacementState) executable := by
    rw [hmanifests, Function.update_self]
  have hfreshProof {place : Locator} (hplace : place ∈ fresh.effects.map (·.locator)) :
      HasProof after plan.statePath place := by
    obtain ⟨effect, heffect, rfl⟩ := List.mem_map.mp hplace
    exact ⟨executable, _, fresh, effect, hwritten, (hmembers fresh).mpr (Or.inl rfl), heffect, rfl⟩
  intro path place hplace
  rcases hplace with ⟨rfl, hnew⟩ | ⟨hbefore, hkept⟩
  · exact hfreshProof (by rw [hlocators]; exact hnew)
  · obtain ⟨bit, state, record, effect, hmanifest, hrecord, heffect, rfl⟩ := howns path place hbefore
    by_cases hpath : path = plan.statePath
    · subst hpath
      have hstate := reviewedManifest_of_written hprepared hinstalled.current hmanifest
      by_cases hkey : record.key = plan.key
      · -- The record is replaced, and its effects are covered or done away with.
        have horphans := (orphansNothing_iff hprepared hkey).mpr
          (hcovers request inputs ports hprepared record (by rw [hstate]; exact hrecord) hkey)
        rcases horphans effect heffect with ⟨replacement, hreplacement, hsame, hlocator⟩ | hover
        · obtain ⟨other, hother, heq⟩ := List.mem_map.mp hlocator
          exact ⟨executable, _, replacement, other, hwritten, hreplacement, hother, heq⟩
        · exact absurd ⟨rfl, hover⟩ hkept
      · refine ⟨executable, _, record, effect, hwritten, (hmembers record).mpr (Or.inr ⟨?_, ?_⟩), heffect,
          rfl⟩
        · rw [hstate]
          exact hrecord
        · rw [hfresh]
          exact hkey
    · exact ⟨bit, state, record, effect, by rw [hmanifests, Function.update_of_ne hpath, hmanifest], hrecord,
        heffect, rfl⟩

theorem ownsWritten_uninstall {plan : UninstallPlan} {faults : UninstallFaults} {world after : World}
    {written : String → Locator → Prop} (hremoved : Removed world plan after)
    (howns : OwnsWritten ⟨world, written⟩) :
    OwnsWritten ⟨after, writtenAfter (.uninstall plan faults) written⟩ := by
  rintro path place ⟨hbefore, hkept⟩
  obtain ⟨bit, state, record, effect, hmanifest, hrecord, heffect, rfl⟩ := howns path place hbefore
  by_cases hpath : path = plan.statePath
  · subst hpath
    obtain ⟨content, executable, current, hsnapshot, hparsed, hmem, hmembers⟩ := plan.replacementState_spec
    have hobserved := (inspectNode_eq_ok hremoved.reviewed.state).2
    rw [hmanifest, hsnapshot] at hobserved
    have hsame := Except.ok.inj hobserved
    rw [Observed.file.injEq] at hsame
    rw [← hsame.1] at hparsed
    obtain rfl : current = state := ManifestCodec.parse_bytes hparsed
    have hkey : record.key ≠ plan.record.key := by
      intro heq
      obtain rfl := current.eq_of_key_eq hrecord hmem heq
      exact hkept ⟨rfl, List.mem_map_of_mem heffect⟩
    have hreplacement : record ∈ plan.replacementState.installations := (hmembers record).mpr ⟨hrecord, hkey⟩
    rcases hremoved.manifests with hwritten | ⟨hempty, _⟩
    · exact ⟨false, _, record, effect, by rw [hwritten, Function.update_self], hreplacement, heffect, rfl⟩
    · rw [hempty] at hreplacement
      exact absurd hreplacement (by simp)
  · have hsame : after.manifests path = world.manifests path := by
      rcases hremoved.manifests with hwritten | ⟨_, hreclaimed⟩
      · rw [hwritten, Function.update_of_ne hpath]
      · rw [hreclaimed, Function.update_of_ne hpath]
    exact ⟨bit, state, record, effect, hsame.trans hmanifest, hrecord, heffect, rfl⟩

theorem ownsWritten_step {dataRoot : String} {before after : Ledger}
    (h : CoveredStep dataRoot before after) (howns : OwnsWritten before) : OwnsWritten after := by
  obtain ⟨event, hplanned, hperformed, hcovers, hwritten⟩ := h
  obtain ⟨world, written⟩ := before
  obtain ⟨reached, places⟩ := after
  simp only at hperformed hwritten
  subst hwritten
  cases hperformed with
  | install reported succeeded =>
      exact ownsWritten_install hplanned (applyPlan_installed reported succeeded) hcovers howns
  | uninstall _ reported removed =>
      exact ownsWritten_uninstall (applyUninstallPlan_removed reported removed) howns
  | collect execute deletionFails inventory => exact howns
  | publish object missing => exact howns

theorem ownsWritten_run {dataRoot : String} {start ledger : Ledger} (hstart : OwnsWritten start)
    (hrun : Relation.ReflTransGen (CoveredStep dataRoot) start ledger) : OwnsWritten ledger := by
  induction hrun with
  | refl => exact hstart
  | tail _ hstep ih => exact ownsWritten_step hstep ih

end Coverage

/-! ## A guideline that moves -/

section Sample

attribute [local instance] plainLibrary styleManifests

/-- The profile with its guidelines in another directory. -/
def movedInputs : PlanningInputs :=
  { firstInputs with
    profile := { claudeProfile with targets := { guidelines := some ⟨".claude/guides"⟩ } } }

theorem movedPlan_prepared :
    ((prepareInstall styleRequest movedInputs firstWorld.readPorts).map fun plan =>
      (plan.statePrecondition, plan.key, plan.operations.map (·.destination),
        plan.replacementState.installations.map fun record => record.effects.map (·.locator))) =
      .ok (.file (installStateBytes firstStyle) false,
        (styleRecord "1.0.0" (sampleDigest 'a') [35]).key, [".claude/guides/style.md"],
        [[⟨".claude/guides/style.md", "", ""⟩]]) := by
  decide +kernel

end Sample

end AgentArtifacts
