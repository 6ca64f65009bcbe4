import AgentArtifacts.Installation.Apply

/-!
# What a failed installation leaves behind

The forward phase touches the destinations it attempted, the manifest once it
was attempted, and the reference index. The rollback puts destinations and
manifest back, so a failed call differs from the world before it in the
reference index alone. The index is compensated for the transaction reference
only: an update of the installed reference that reports its failure after
writing stays.
-/

namespace AgentArtifacts

open Compensation

section Transaction

variable [StandardLibrary]

/-! ## Operations -/

theorem applyOperation_world (faults : InstallFaults) (plan : InstallPlan)
    (operation : InstallOperation) (world : World) :
    ∃ node, (applyOperation faults plan operation world).1 =
      world.setFile operation.absoluteDestination node := by
  unfold applyOperation
  simp only
  split
  · exact ⟨_, rfl⟩
  · split
    · exact ⟨_, rfl⟩
    · exact ⟨_, rfl⟩

/-- The loop attempts some of its operations and touches nothing but their destinations. -/
theorem applyOperations_frame (faults : InstallFaults) (plan : InstallPlan)
    (operations : List InstallOperation) (start : Progress) :
    ∃ tried, (applyOperations faults plan operations start).attempted = start.attempted ++ tried ∧
      tried ⊆ operations ∧
      AgreeOutside (tried.map (·.absoluteDestination))
        (applyOperations faults plan operations start).world.files start.world.files ∧
      (applyOperations faults plan operations start).world =
        { start.world with files := (applyOperations faults plan operations start).world.files } := by
  induction operations generalizing start with
  | nil => exact ⟨[], by simp [applyOperations, AgreeOutside]⟩
  | cons operation rest ih =>
      by_cases hcurrent : operationIsCurrent operation = true
      · obtain ⟨tried, hattempted, hsub, hagree, hworld⟩ := ih start
        have heq : applyOperations faults plan (operation :: rest) start =
            applyOperations faults plan rest start := by
          simp [applyOperations, hcurrent]
        rw [heq]
        exact ⟨tried, hattempted, fun op hop => List.mem_cons_of_mem _ (hsub hop), hagree, hworld⟩
      · obtain ⟨node, hnode⟩ := applyOperation_world faults plan operation start.world
        cases hfailure : (applyOperation faults plan operation start.world).2 with
        | some message =>
            have heq : applyOperations faults plan (operation :: rest) start =
                { start with
                  world := (applyOperation faults plan operation start.world).1
                  attempted := start.attempted ++ [operation]
                  failed := some (operation, message) } := by
              simp [applyOperations, hcurrent, hfailure]
            rw [heq, hnode]
            refine ⟨[operation], rfl, by simp, ?_, rfl⟩
            intro path hpath
            have hne : path ≠ operation.absoluteDestination := by simpa using hpath
            simp [Function.update_of_ne hne]
        | none =>
            let next : Progress :=
              { start with
                world := (applyOperation faults plan operation start.world).1
                attempted := start.attempted ++ [operation]
                applied := start.applied ++ [operation] }
            have heq : applyOperations faults plan (operation :: rest) start =
                applyOperations faults plan rest next := by
              simp [applyOperations, hcurrent, hfailure, next]
            obtain ⟨tried, hattempted, hsub, hagree, hworld⟩ := ih next
            rw [heq]
            have hnext : next.world = start.world.setFile operation.absoluteDestination node := hnode
            refine ⟨operation :: tried, ?_, ?_, ?_, ?_⟩
            · rw [hattempted]
              simp [next]
            · intro op hop
              rcases List.mem_cons.mp hop with rfl | hop
              · exact List.mem_cons_self
              · exact List.mem_cons_of_mem _ (hsub hop)
            · refine (hagree.mono (by simp)).trans ?_
              rw [hnext, World.setFile_files]
              exact (AgreeOutside.refl _ _).update (by simp) node
            · rw [hworld, hnext]
              rfl

theorem applyOperations_references (faults : InstallFaults) (plan : InstallPlan)
    (operations : List InstallOperation) (start : Progress) :
    (applyOperations faults plan operations start).world.references = start.world.references := by
  obtain ⟨_, _, _, _, hworld⟩ := applyOperations_frame faults plan operations start
  rw [hworld]

/-! ## Preconditions -/

variable {plan : InstallPlan} {world : World} {operation : InstallOperation}

theorem preconditionsCurrent_operation (h : preconditionsCurrent world plan = true)
    (hmem : operation ∈ plan.operations) :
    world.inspectPath operation.absoluteDestination = .ok operation.precondition := by
  simp only [preconditionsCurrent, Bool.and_eq_true, List.all_eq_true] at h
  have hoperation := h.1.2 operation hmem
  simp only [operationPreconditionCurrent, Bool.and_eq_true, beq_iff_eq] at hoperation
  exact hoperation.2

theorem preconditionsCurrent_state (h : preconditionsCurrent world plan = true) :
    world.inspectState plan.statePath = .ok plan.statePrecondition := by
  simp only [preconditionsCurrent, Bool.and_eq_true, beq_iff_eq] at h
  exact h.2

/-! ## The rollback -/

def installedDigests (world : World) (plan : InstallPlan) : List ObjectDigest :=
  world.references.ownerDigests .installed plan.referenceOwner

/-- The keys of the manifest table that a phase may have touched. -/
def touchedManifests (plan : InstallPlan) (attempted : Bool) : List String :=
  if attempted then [plan.statePath] else []

/-- What the forward phase touched is among what it attempted. -/
structure Touched (plan : InstallPlan) (world : World) (stopped : Forward) : Prop where
  attempted : stopped.attempted ⊆ plan.operations
  files : AgreeOutside (stopped.attempted.map (·.absoluteDestination)) stopped.world.files world.files
  manifests : AgreeOutside (touchedManifests plan stopped.stateAttempted) stopped.world.manifests
    world.manifests
  resolves : stopped.world.resolves = world.resolves

variable {faults : InstallFaults}

/-- A rollback without errors brings destinations and manifests back. -/
theorem restoreWorld_eq {stopped : Forward} (htouched : Touched plan world stopped)
    (hpre : preconditionsCurrent world plan = true)
    (herrors : (restoreWorld faults plan stopped).2 = []) :
    (restoreWorld faults plan stopped).1 =
      { stopped.world with files := world.files, manifests := world.manifests } := by
  have hmanifest : rollbackManifest faults plan stopped =
      ({ stopped.world with manifests := world.manifests }, []) := by
    have hnone : (rollbackManifest faults plan stopped).2 = [] := by
      simp only [restoreWorld, List.append_eq_nil_iff] at herrors
      exact herrors.1
    unfold rollbackManifest at hnone ⊢
    by_cases hstate : stopped.stateAttempted = true
    · simp only [hstate, if_true] at hnone ⊢
      have hrestored := restoreFiles_eq world.manifests stopped.world.manifests
        (fun item hitem => by
          simp only [List.mem_singleton] at hitem
          subst hitem
          exact ⟨_, (inspectNode_eq_ok (preconditionsCurrent_state hpre)).2⟩) hnone
      have hagree := htouched.manifests
      simp only [touchedManifests, hstate, if_true] at hagree
      rw [hrestored, List.map_singleton, restoreAll_eq hagree, hnone]
    · have hagree := htouched.manifests
      simp only [touchedManifests, hstate] at hagree
      have heq : stopped.world.manifests = world.manifests := by
        funext path
        exact hagree path (by simp)
      simp [hstate, ← heq]
  unfold restoreWorld at herrors ⊢
  rw [hmanifest] at herrors ⊢
  simp only [List.nil_append] at herrors ⊢
  have hobserved : ∀ item ∈ stopped.attempted.reverse.map InstallOperation.restoration,
      ∃ resolves, observe resolves (world.files item.path) = .ok item.snapshot := by
    intro item hitem
    obtain ⟨operation, hoperation, rfl⟩ := List.mem_map.mp hitem
    have hmem := htouched.attempted (List.mem_reverse.mp hoperation)
    exact ⟨_, (inspectNode_eq_ok (preconditionsCurrent_operation hpre hmem)).2⟩
  rw [restoreFiles_eq world.files stopped.world.files hobserved herrors]
  have hkeys : AgreeOutside ((stopped.attempted.reverse.map InstallOperation.restoration).map (·.path))
      stopped.world.files world.files := by
    refine htouched.files.mono ?_
    intro path hpath
    simpa [InstallOperation.restoration] using hpath
  rw [restoreAll_eq hkeys]

theorem failureEffect_detail {stopped : Forward} (h : stopped.failedAt = none) (message : String)
    (rollbackErrors : List String) (operation : InstallOperation) :
    (failureEffect stopped message rollbackErrors operation).detail = some ⟨message, []⟩ := by
  unfold failureEffect
  simp only [h]
  rw [if_neg (by simp)]
  split
  · rfl
  · split <;> rfl

theorem failWith_world (faults : InstallFaults) (plan : InstallPlan) (stopped : Forward)
    (message : String) :
    (failWith faults plan stopped message).world =
      (releaseTransaction faults.cleanup plan stopped.transactionRetained
        (restoreWorld faults plan stopped).1).1 ∧
      (failWith faults plan stopped message).restoreErrors = (restoreWorld faults plan stopped).2 := by
  unfold failWith
  simp only
  split <;> exact ⟨rfl, rfl⟩

theorem releaseTransaction_world (fault : ReferenceFault) (plan : InstallPlan) (retained : Bool)
    (world : World) :
    ∃ index, (releaseTransaction fault plan retained world).1 = world.setReferences index ∧
      index.ownerDigests .installed plan.referenceOwner = installedDigests world plan := by
  unfold releaseTransaction
  cases retained with
  | false => exact ⟨world.references, rfl, rfl⟩
  | true =>
      obtain ⟨index, hworld⟩ := updateReferences_world fault world .transaction
        (transactionOwner plan) "" []
      refine ⟨index, by simpa using hworld, ?_⟩
      have hkept := @updateReferences_ownerDigests fault world [] .installed .transaction
        plan.referenceOwner (transactionOwner plan) "" (by decide)
      rw [hworld] at hkept
      exact hkept

/-- A rollback after the last write reports nothing it could not undo. -/
theorem failWith_outcome {stopped : Forward}
    {message : String} (hfailedAt : stopped.failedAt = none)
    (hsize : (restoreWorld faults plan stopped).1.references.references.length ≤ maxReferences) :
    ∃ outcome, (failWith faults plan stopped message).outcome = some outcome ∧
      outcome.status = .failed ∧ outcome.rollbackComplete = true := by
  have hcomplete (errors : List String) :
      InstallOutcome.rollbackComplete
        ⟨.failed, plan.operations.map (failureEffect stopped message errors), false⟩ = true := by
    simp only [InstallOutcome.rollbackComplete, List.all_map, List.all_eq_true, Function.comp]
    intro operation _
    rw [failureEffect_detail hfailedAt]
    rfl
  have hcaught : (releaseTransaction faults.cleanup plan stopped.transactionRetained
      (restoreWorld faults plan stopped).1).2 ≠ some .escaped := by
    unfold releaseTransaction
    split
    · exact updateReferences_not_escaped (ReferenceIndex.replace_nil hsize _ _)
    · simp
  unfold failWith
  simp only
  split
  · exact ⟨_, rfl, rfl, hcomplete _⟩
  · exact ⟨_, rfl, rfl, hcomplete _⟩
  · rename_i hescaped
    exact absurd hescaped hcaught

/-! ## When every write of a plan succeeds -/

/-- A link of the plan does not replace its own target, and resolves. -/
def leadsToTarget (world : World) (operation : InstallOperation) : Bool :=
  match operation.action with
  | .link _ target _ _ =>
      target != operation.absoluteDestination && world.resolves operation.absoluteDestination target
  | _ => true

def writesSucceed (faults : InstallFaults) (world : World) (plan : InstallPlan) : Bool :=
  plan.operations.all fun operation =>
    operationIsCurrent operation ||
      ((faults.write operation.absoluteDestination).isNone && leadsToTarget world operation)

theorem applyOperation_succeeds_iff (faults : InstallFaults) (plan : InstallPlan)
    (operation : InstallOperation) (world : World) :
    (applyOperation faults plan operation world).2 = none ↔
      faults.write operation.absoluteDestination = none ∧
        linkPostcondition (world.setFile operation.absoluteDestination (intendedNode operation)) plan
          operation = true := by
  cases hfault : faults.write operation.absoluteDestination with
  | some fault => simp [applyOperation, settle, hfault]
  | none =>
      simp only [applyOperation, settle, hfault, true_and]
      split <;> simp_all

theorem InstallPlan.operation_valid (plan : InstallPlan)
    (hmem : operation ∈ plan.operations) : operation.valid = true := by
  have h := plan.accepted
  simp only [InstallPlanData.valid, Bool.and_eq_true, List.all_eq_true] at h
  exact h.1.1.1.1.1.1.1.1.2 operation hmem

/-- Only the first operation of a plan can be a link. -/
theorem InstallPlan.tail_not_link (plan : InstallPlan) :
    ∃ head tail, plan.operations = head :: tail ∧ ∀ operation ∈ tail, operation.isLink = false := by
  have hshape : plan.operationsMatchArtifact = true := by
    have h := plan.accepted
    simp only [InstallPlanData.valid, Bool.and_eq_true] at h
    exact h.1.1.1.1.1.1.2
  have hnotLink (operation : InstallOperation)
      (h : operation.effectKind ≠ .symlinkTree ∧ operation.effectKind ≠ .symlinkFile) :
      operation.isLink = false := by
    unfold InstallOperation.isLink
    unfold InstallOperation.effectKind at h
    split
    · rename_i haction
      simp only [haction] at h
      split at h <;> simp_all
    · rfl
  unfold InstallPlanData.operationsMatchArtifact at hshape
  simp only at hshape
  split at hshape
  · rename_i head _ hops
    exact ⟨head, [], hops, by simp⟩
  · rename_i head _ hops
    exact ⟨head, [], hops, by simp⟩
  · rename_i head _ hops
    exact ⟨head, [], hops, by simp⟩
  · rename_i scripts settings _ hops
    refine ⟨scripts, [settings], hops, ?_⟩
    simp only [Bool.and_eq_true, beq_iff_eq] at hshape
    simp only [List.mem_singleton, forall_eq]
    exact hnotLink settings (by simp [hshape.2])
  · rename_i sidecar target _ hops
    refine ⟨sidecar, [target], hops, ?_⟩
    simp only [Bool.and_eq_true, Bool.or_eq_true, beq_iff_eq] at hshape
    simp only [List.mem_singleton, forall_eq]
    refine hnotLink target ?_
    rcases hshape.1.1.2 with hkind | hkind <;> simp [hkind]
  · rename_i head _ hops
    exact ⟨head, [], hops, by simp⟩
  · exact absurd hshape (by simp)

theorem linkPostcondition_of_not_link (h : operation.isLink = false) :
    linkPostcondition world plan operation = true := by
  unfold linkPostcondition
  cases haction : operation.action with
  | link sourcePath target targetState semantics =>
      exact absurd h (by simp [InstallOperation.isLink, haction])
  | copyTree sourcePath tree => rfl
  | writeFile sourcePath content executable managedBlock restoresFrom => rfl
  | mergeJson jsonPath mergeMode identity evidence digest content => rfl

/-- For a reviewed link the check after the write says that it leads to its target. -/
theorem linkPostcondition_iff (hvalid : operation.valid = true)
    (hpre : operationPreconditionCurrent world plan operation = true) :
    linkPostcondition (world.setFile operation.absoluteDestination (intendedNode operation)) plan
      operation = leadsToTarget world operation := by
  unfold linkPostcondition leadsToTarget
  cases haction : operation.action with
  | copyTree sourcePath tree => rfl
  | writeFile sourcePath content executable managedBlock restoresFrom => rfl
  | mergeJson jsonPath mergeMode identity evidence digest content => rfl
  | link sourcePath target targetState semantics =>
      simp only [operationPreconditionCurrent, haction, Bool.and_eq_true, beq_iff_eq] at hpre
      simp only [InstallOperation.valid, haction, Bool.and_eq_true] at hvalid
      simp only [intendedNode, haction]
      have hinstalled : ((world.setFile operation.absoluteDestination (.symlink target)).inspectPath
          operation.absoluteDestination == .ok (.symlink target true)) =
            world.resolves operation.absoluteDestination target := by
        simp only [World.inspectPath, inspectNode, hvalid.1, if_true, World.setFile_files,
          Function.update_self, World.setFile_resolves, observe]
        cases world.resolves operation.absoluteDestination target <;> simp
      rw [hinstalled]
      by_cases htarget : target = operation.absoluteDestination
      · -- The link has replaced its own target, which is then no file or tree any more.
        have hlost : ((world.setFile operation.absoluteDestination (.symlink target)).inspectLinkTarget
            target (linkBoundary plan semantics) == .ok targetState) = false := by
          rw [beq_eq_false_iff_ne]
          intro hfound
          unfold World.inspectLinkTarget at hfound
          split at hfound
          · exact absurd hfound (by simp [error])
          · split at hfound
            · exact absurd hfound (by simp [error])
            · split at hfound
              · exact absurd hfound (by simp [error])
              · have hobserved := (inspectNode_eq_ok hfound).2
                rw [htarget] at hobserved
                simp only [World.setFile_files, Function.update_self, observe] at hobserved
                rw [← Except.ok.inj hobserved] at hvalid
                exact absurd hvalid.2.2 (by simp)
        rw [hlost]
        simp [htarget]
      · have hkept : (world.setFile operation.absoluteDestination (.symlink target)).inspectLinkTarget
            target (linkBoundary plan semantics) = .ok targetState := by
          rw [← hpre.1]
          simp [World.inspectLinkTarget, World.inspectPath, World.setFile,
            Function.update_of_ne htarget]
        simp [hkept, htarget]

theorem applyOperations_succeeds_of_no_link (faults : InstallFaults) (plan : InstallPlan)
    {operations : List InstallOperation} (hlinks : ∀ operation ∈ operations, operation.isLink = false)
    (start : Progress) (hstart : start.failed = none) :
    (applyOperations faults plan operations start).failed = none ↔
      ∀ operation ∈ operations, operationIsCurrent operation = true ∨
        faults.write operation.absoluteDestination = none := by
  induction operations generalizing start with
  | nil => simp [applyOperations, hstart]
  | cons operation rest ih =>
      have hrest : ∀ other ∈ rest, other.isLink = false := fun other hother =>
        hlinks other (List.mem_cons_of_mem _ hother)
      by_cases hcurrent : operationIsCurrent operation = true
      · simp [applyOperations, hcurrent, ih hrest start hstart]
      · have hstep := applyOperation_succeeds_iff faults plan operation start.world
        rw [linkPostcondition_of_not_link (hlinks operation List.mem_cons_self)] at hstep
        simp only [and_true] at hstep
        cases hfailure : (applyOperation faults plan operation start.world).2 with
        | some message =>
            have hfault : faults.write operation.absoluteDestination ≠ none := by
              intro hnone
              rw [hstep.mpr hnone] at hfailure
              exact absurd hfailure (by simp)
            simp [applyOperations, hcurrent, hfailure, hfault]
        | none =>
            simp [applyOperations, hcurrent, hfailure, hstep.mp hfailure, ih hrest, hstart]

/-- All operations of a reviewed plan succeed exactly when no needed write fails
and its link leads to the reviewed target. -/
theorem applyOperations_succeeds_iff
    (hpre : ∀ operation ∈ plan.operations, operationPreconditionCurrent world plan operation = true) :
    (applyOperations faults plan plan.operations { world := world }).failed = none ↔
      writesSucceed faults world plan = true := by
  obtain ⟨head, tail, hops, htail⟩ := plan.tail_not_link
  have hlead : ∀ operation ∈ tail, leadsToTarget world operation = true := by
    intro operation hmem
    have hlink := htail operation hmem
    unfold leadsToTarget
    split
    · rename_i haction
      exact absurd hlink (by simp [InstallOperation.isLink, haction])
    · rfl
  have hall : writesSucceed faults world plan = true ↔
      (operationIsCurrent head = true ∨ (faults.write head.absoluteDestination = none ∧
        leadsToTarget world head = true)) ∧
      ∀ operation ∈ tail, operationIsCurrent operation = true ∨
        faults.write operation.absoluteDestination = none := by
    unfold writesSucceed
    rw [hops]
    simp only [List.all_cons, Bool.and_eq_true, Bool.or_eq_true, Option.isNone_iff_eq_none,
      List.all_eq_true]
    refine and_congr_right fun _ => forall_congr' fun operation => ?_
    refine imp_congr_right fun hmem => ?_
    simp [hlead operation hmem]
  rw [hall, hops]
  have hmem : head ∈ plan.operations := by simp [hops]
  by_cases hcurrent : operationIsCurrent head = true
  · have htailIff := applyOperations_succeeds_of_no_link faults plan htail { world := world } rfl
    simp [applyOperations, hcurrent, htailIff]
  · have hstep := applyOperation_succeeds_iff faults plan head world
    rw [linkPostcondition_iff (plan.operation_valid hmem) (hpre head hmem)] at hstep
    cases hfailure : (applyOperation faults plan head world).2 with
    | some message =>
        have hfault : ¬ (faults.write head.absoluteDestination = none ∧
            leadsToTarget world head = true) := by
          intro hboth
          rw [hstep.mpr hboth] at hfailure
          exact absurd hfailure (by simp)
        simp [applyOperations, hcurrent, hfailure, hfault]
    | none =>
        have htailIff := applyOperations_succeeds_of_no_link faults plan htail
          ⟨(applyOperation faults plan head world).1, [head], [head], none⟩ rfl
        simp [applyOperations, hcurrent, hfailure, hstep.mp hfailure, htailIff]

variable [ManifestCodec]

/-! ## The forward phase -/

theorem writeState_frame (faults : InstallFaults) (plan : InstallPlan) (world : World) :
    ∃ manifests, (writeState faults plan world).1 = { world with manifests := manifests } ∧
      AgreeOutside (touchedManifests plan (!stateIsCurrent plan)) manifests world.manifests := by
  unfold writeState
  by_cases hcurrent : stateIsCurrent plan = true
  · exact ⟨world.manifests, by simp [hcurrent], AgreeOutside.refl _ _⟩
  · refine ⟨Function.update world.manifests plan.statePath (settle faults.state
      (world.manifests plan.statePath) (atomicWrite (installStateBytes plan.replacementState)
        (world.manifests plan.statePath))).1, by simp [hcurrent, World.setManifest], ?_⟩
    exact (AgreeOutside.refl _ _).update (by simp [touchedManifests, hcurrent]) _

theorem forward_touched (faults : InstallFaults) (plan : InstallPlan) (world : World) :
    Touched plan world (forward faults plan world) := by
  unfold forward
  simp only
  obtain ⟨index, hretained⟩ := updateReferences_world faults.retain world .transaction
    (transactionOwner plan) "cannot retain transaction object reference" [plan.objectDigest]
  rw [hretained]
  split
  · exact ⟨by simp, AgreeOutside.refl _ _, AgreeOutside.refl _ _, rfl⟩
  · obtain ⟨tried, hattempted, hsub, hagree, hworld⟩ := applyOperations_frame faults plan
      plan.operations { world := world.setReferences index }
    simp only [List.nil_append] at hattempted
    have hfiles : AgreeOutside (tried.map (·.absoluteDestination))
        (applyOperations faults plan plan.operations { world := world.setReferences index }).world.files
        world.files := hagree
    split
    · refine ⟨by rw [hattempted]; exact hsub, by rw [hattempted]; exact hfiles, ?_, ?_⟩
      · rw [hworld]
        exact AgreeOutside.refl _ _
      · rw [hworld]
        rfl
    · obtain ⟨manifests, hwritten, hmanifests⟩ := writeState_frame faults plan
        (applyOperations faults plan plan.operations { world := world.setReferences index }).world
      have hbase : (applyOperations faults plan plan.operations
          { world := world.setReferences index }).world.manifests = world.manifests := by
        rw [hworld]
        rfl
      have hresolves : (applyOperations faults plan plan.operations
          { world := world.setReferences index }).world.resolves = world.resolves := by
        rw [hworld]
        rfl
      rw [hbase] at hmanifests
      split
      · refine ⟨by rw [hattempted]; exact hsub, ?_, ?_, ?_⟩
        · rw [hattempted, hwritten]
          exact hfiles
        · rw [hwritten]
          exact hmanifests
        · rw [hwritten]
          exact hresolves
      · obtain ⟨final, hfinal⟩ := updateReferences_world faults.installed
          (writeState faults plan (applyOperations faults plan plan.operations
            { world := world.setReferences index }).world).1 .installed plan.referenceOwner
          "cannot retain installed object reference" [plan.objectDigest]
        refine ⟨by rw [hattempted]; exact hsub, ?_, ?_, ?_⟩
        · rw [hattempted, hfinal, hwritten]
          exact hfiles
        · rw [hfinal, hwritten]
          exact hmanifests
        · rw [hfinal, hwritten]
          exact hresolves

/-- The manifest is current, or its replacement neither fails nor meets a directory. -/
def stateWriteSucceeds (faults : InstallFaults) (plan : InstallPlan) : Bool :=
  stateIsCurrent plan ||
    (faults.state.isNone && match plan.statePrecondition with
      | .tree _ => false
      | _ => true)

theorem writeState_succeeds_iff (hpre : world.inspectState plan.statePath = .ok plan.statePrecondition) :
    (writeState faults plan world).2 = none ↔ stateWriteSucceeds faults plan = true := by
  unfold writeState stateWriteSucceeds
  by_cases hcurrent : stateIsCurrent plan = true
  · simp [hcurrent]
  · have hobserved := (inspectNode_eq_ok hpre).2
    cases hfault : faults.state with
    | some fault => simp [hcurrent, settle]
    | none =>
        simp only [hcurrent, settle, Bool.false_or, Option.isNone_none, Bool.true_and]
        cases hnode : world.manifests plan.statePath with
        | absent => rw [hnode] at hobserved; simp [atomicWrite, ← Except.ok.inj hobserved]
        | file content executable =>
            rw [hnode] at hobserved
            simp [atomicWrite, ← Except.ok.inj hobserved]
        | symlink target => rw [hnode] at hobserved; simp [atomicWrite, ← Except.ok.inj hobserved]
        | special digest => rw [hnode] at hobserved; simp [atomicWrite, ← Except.ok.inj hobserved]
        | unreadable reason => rw [hnode] at hobserved; exact absurd hobserved (by simp [observe])
        | directory tree =>
            rw [hnode] at hobserved
            simp only [observe] at hobserved
            split at hobserved
            · simp [atomicWrite, ← Except.ok.inj hobserved]
            · exact absurd hobserved (by simp)

/-! ## The installed reference -/

/-- The world in which the installed reference is updated. -/
def beforeReference (faults : InstallFaults) (plan : InstallPlan) (world : World) : World :=
  (writeState faults plan (applyOperations faults plan plan.operations
    { world := (updateReferences faults.retain world .transaction (transactionOwner plan)
      [plan.objectDigest] "cannot retain transaction object reference").1 }).world).1

/-- Every step before the update of the installed reference succeeds. -/
def reachesReference (faults : InstallFaults) (world : World) (plan : InstallPlan) : Prop :=
  (updateReferences faults.retain world .transaction (transactionOwner plan) [plan.objectDigest]
      "cannot retain transaction object reference").2 = none ∧
    writesSucceed faults world plan = true ∧ stateWriteSucceeds faults plan = true

theorem writeState_references (faults : InstallFaults) (plan : InstallPlan) (world : World) :
    (writeState faults plan world).1.references = world.references := by
  obtain ⟨_, hworld, _⟩ := writeState_frame faults plan world
  rw [hworld]

theorem beforeReference_installedDigests (faults : InstallFaults) (plan : InstallPlan)
    (world : World) :
    installedDigests (beforeReference faults plan world) plan = installedDigests world plan := by
  unfold installedDigests beforeReference
  rw [writeState_references, applyOperations_references]
  exact updateReferences_ownerDigests (by decide)

/-- Where the forward phase stops, by the first step that fails. -/
theorem forward_cases (hpre : preconditionsCurrent world plan = true) :
    (¬ reachesReference faults world plan ∧ (forward faults plan world).error ≠ none ∧
        installedDigests (forward faults plan world).world plan = installedDigests world plan) ∨
      (reachesReference faults world plan ∧
        (forward faults plan world).failedAt = none ∧
        (forward faults plan world).transactionRetained = true ∧
        ((forward faults plan world).world, (forward faults plan world).error) =
          updateReferences faults.installed (beforeReference faults plan world) .installed
            plan.referenceOwner [plan.objectDigest] "cannot retain installed object reference") := by
  have hoperations : ∀ operation ∈ plan.operations,
      operationPreconditionCurrent world plan operation = true := by
    simp only [preconditionsCurrent, Bool.and_eq_true, List.all_eq_true] at hpre
    exact hpre.1.2
  obtain ⟨index, hretained⟩ := updateReferences_world faults.retain world .transaction
    (transactionOwner plan) "cannot retain transaction object reference" [plan.objectDigest]
  have hkept : installedDigests (world.setReferences index) plan = installedDigests world plan := by
    rw [← hretained]
    exact updateReferences_ownerDigests (by decide)
  have hwrites := @applyOperations_succeeds_iff _ plan (world.setReferences index) faults hoperations
  unfold forward reachesReference beforeReference
  simp only
  cases hretain : (updateReferences faults.retain world .transaction (transactionOwner plan)
      [plan.objectDigest] "cannot retain transaction object reference").2 with
  | some raised =>
      refine Or.inl ⟨by simp, by simp, ?_⟩
      simp only [hretained]
      exact hkept
  | none =>
      simp only [hretained, true_and]
      cases hfailed : (applyOperations faults plan plan.operations
          { world := world.setReferences index }).failed with
      | some failure =>
          obtain ⟨operation, message⟩ := failure
          have hnot : ¬ writesSucceed faults world plan = true := by
            intro hall
            rw [hwrites.mpr hall] at hfailed
            exact absurd hfailed (by simp)
          refine Or.inl ⟨fun h => hnot h.1, by simp, ?_⟩
          unfold installedDigests
          rw [applyOperations_references]
          exact hkept
      | none =>
          have hall : writesSucceed faults world plan = true := hwrites.mp hfailed
          have hstate := preconditionsCurrent_state hpre
          have hreached : (applyOperations faults plan plan.operations
              { world := world.setReferences index }).world.inspectState plan.statePath =
                .ok plan.statePrecondition := by
            obtain ⟨_, _, _, _, hworld⟩ := applyOperations_frame faults plan plan.operations
              { world := world.setReferences index }
            rw [hworld]
            exact hstate
          have hwritten := @writeState_succeeds_iff _ plan _ faults _ hreached
          cases hmessage : (writeState faults plan (applyOperations faults plan plan.operations
              { world := world.setReferences index }).world).2 with
          | some message =>
              have hnot : ¬ stateWriteSucceeds faults plan = true := by
                intro hok
                rw [hwritten.mpr hok] at hmessage
                exact absurd hmessage (by simp)
              refine Or.inl ⟨fun h => hnot h.2, by simp, ?_⟩
              unfold installedDigests
              simp only [writeState_references, applyOperations_references]
              exact hkept
          | none =>
              exact Or.inr ⟨⟨hall, hwritten.mp hmessage⟩, rfl, rfl, rfl⟩

/-! ## All or nothing -/

/-- A failed call whose restores succeeded differs from the world before it in
the reference index alone, where the installed digests are those the forward
phase left. -/
theorem failWith_restored {message : String} (hpre : preconditionsCurrent world plan = true)
    (herrors : (failWith faults plan (forward faults plan world) message).restoreErrors = []) :
    ∃ index, (failWith faults plan (forward faults plan world) message).world =
        { (forward faults plan world).world with
          files := world.files, manifests := world.manifests, references := index } ∧
      index.ownerDigests .installed plan.referenceOwner =
        installedDigests (forward faults plan world).world plan := by
  obtain ⟨hworld, hrestore⟩ := failWith_world faults plan (forward faults plan world) message
  rw [hrestore] at herrors
  have hrestored := restoreWorld_eq (forward_touched faults plan world) hpre herrors
  obtain ⟨index, hreleased, hdigests⟩ := releaseTransaction_world faults.cleanup plan
    (forward faults plan world).transactionRetained (restoreWorld faults plan (forward faults plan world)).1
  refine ⟨index, ?_, ?_⟩
  · rw [hworld, hreleased, hrestored]
    rfl
  · rw [hdigests, hrestored]
    rfl

/-- After a failed call without an incomplete rollback the destinations and the
manifest hold their reviewed preconditions, and the owner has the installed
references it had before the call. -/
def InstallAllOrNothing (faults : InstallFaults) (world : World) (plan : InstallPlan) : Prop :=
  ∀ outcome, (applyPlan faults world plan).outcome = some outcome → outcome.status = .failed →
    outcome.rollbackComplete = true →
    (∀ operation ∈ plan.operations,
      (applyPlan faults world plan).world.inspectPath operation.absoluteDestination =
        .ok operation.precondition) ∧
    (applyPlan faults world plan).world.inspectState plan.statePath = .ok plan.statePrecondition ∧
    (applyPlan faults world plan).world.references.ownerDigests .installed plan.referenceOwner =
      world.references.ownerDigests .installed plan.referenceOwner

/-- The update of the installed reference is reached, replaces other digests of
the owner, and reports its failure only after its write. -/
structure InstalledReferenceStranded (faults : InstallFaults) (world : World) (plan : InstallPlan) :
    Prop where
  current : preconditionsCurrent world plan = true
  retained : faults.retain = .none
  writes : writesSucceed faults world plan = true
  state : stateWriteSucceeds faults plan = true
  reported : ∃ diagnostics, faults.installed = .after diagnostics
  room : ∃ held updated,
    world.references.replace .transaction (transactionOwner plan) [plan.objectDigest] = some held ∧
      held.replace .installed plan.referenceOwner [plan.objectDigest] = some updated
  replaced : world.references.ownerDigests .installed plan.referenceOwner ≠ [plan.objectDigest]

theorem beforeReference_references {held : ReferenceIndex} (hfault : faults.retain = .none)
    (hheld : world.references.replace .transaction (transactionOwner plan) [plan.objectDigest] =
      some held) :
    (beforeReference faults plan world).references = held := by
  unfold beforeReference
  rw [writeState_references, applyOperations_references]
  simp [updateReferences, replaceReferences, hfault, hheld]

/-- Unless the installed reference is stranded, a failed call leaves the
installed digests of the owner as they were. -/
theorem forward_installedDigests (hpre : preconditionsCurrent world plan = true)
    (hraised : (forward faults plan world).error ≠ none)
    (hsafe : ¬ InstalledReferenceStranded faults world plan) :
    installedDigests (forward faults plan world).world plan = installedDigests world plan := by
  rcases forward_cases hpre with ⟨_, _, hkept⟩ | ⟨hreaches, _, _, hforward⟩
  · exact hkept
  · have hworld := congrArg Prod.fst hforward
    have herror := congrArg Prod.snd hforward
    simp only at hworld herror
    rw [herror] at hraised
    have hbefore := beforeReference_installedDigests faults plan world
    rw [hworld]
    unfold installedDigests at hbefore ⊢
    obtain ⟨hretained, hwrites, hstate⟩ := hreaches
    obtain ⟨hnone, held, hheld⟩ := updateReferences_succeeds_iff.mp hretained
    rcases updateReferences_index with hsame | hreplaced
    · rw [hsame]
      exact hbefore
    · -- The write took effect, so the failure was reported after it.
      rw [ReferenceIndex.ownerDigests_replace_single hreplaced]
      by_contra hne
      have hroom := hreplaced
      rw [beforeReference_references hnone hheld] at hroom
      refine hsafe ⟨hpre, hnone, hwrites, hstate, ?_, ⟨held, _, hheld, hroom⟩, fun h => hne h.symm⟩
      · cases hfault : faults.installed with
        | after diagnostics => exact ⟨diagnostics, rfl⟩
        | none =>
            refine absurd ?_ hraised
            exact updateReferences_succeeds_iff.mpr ⟨hfault, _, hreplaced⟩
        | before diagnostics =>
            rw [hfault] at hreplaced
            have hsame : (updateReferences (.before diagnostics) (beforeReference faults plan world)
                .installed plan.referenceOwner [plan.objectDigest]
                "cannot retain installed object reference").1.references =
                  (beforeReference faults plan world).references := rfl
            rw [hsame] at hreplaced
            have hdigests := ReferenceIndex.ownerDigests_replace_single hreplaced
            exact absurd (hdigests.symm.trans hbefore) hne

/-- A call in which the installed reference is stranded fails without reporting
an incomplete rollback, and the owner keeps the new digest. -/
theorem applyPlan_of_stranded (hlock : faults.lock = none) (h : InstalledReferenceStranded faults world plan)
    (hrestore : (applyPlan faults world plan).restoreErrors = []) :
    ∃ outcome, (applyPlan faults world plan).outcome = some outcome ∧ outcome.status = .failed ∧
      outcome.rollbackComplete = true ∧
      (applyPlan faults world plan).world.references.ownerDigests .installed plan.referenceOwner =
        [plan.objectDigest] := by
  obtain ⟨held, updated, hheld, hupdated⟩ := h.room
  obtain ⟨diagnostics, hafter⟩ := h.reported
  have hreaches : reachesReference faults world plan :=
    ⟨updateReferences_succeeds_iff.mpr ⟨h.retained, held, hheld⟩, h.writes, h.state⟩
  rcases forward_cases h.current with ⟨hnot, _⟩ | ⟨_, hfailedAt, hretained, hforward⟩
  · exact absurd hreaches hnot
  · have hreferences := @beforeReference_references _ plan world faults _ held h.retained hheld
    have hstep : updateReferences faults.installed (beforeReference faults plan world) .installed
        plan.referenceOwner [plan.objectDigest] "cannot retain installed object reference" =
          ((beforeReference faults plan world).setReferences updated,
            some (.caught ("cannot retain installed object reference" ++ ": " ++
              messages diagnostics))) := by
      simp [updateReferences, replaceReferences, hafter, hreferences, hupdated]
    rw [hstep] at hforward
    have hworld := congrArg Prod.fst hforward
    have herror := congrArg Prod.snd hforward
    simp only at hworld herror
    have hreport : applyPlan faults world plan = failWith faults plan (forward faults plan world)
        ("cannot retain installed object reference" ++ ": " ++ messages diagnostics) := by
      simp [applyPlan, hlock, h.current, herror]
    rw [hreport] at hrestore ⊢
    obtain ⟨index, hfinal, hdigests⟩ := failWith_restored h.current hrestore
    have howned : installedDigests (forward faults plan world).world plan = [plan.objectDigest] := by
      rw [hworld]
      exact ReferenceIndex.ownerDigests_replace_single hupdated
    have hsize : (restoreWorld faults plan (forward faults plan world)).1.references.references.length ≤
        maxReferences := by
      have herrors := (failWith_world faults plan (forward faults plan world) _).2 ▸ hrestore
      rw [restoreWorld_eq (forward_touched faults plan world) h.current herrors, hworld]
      exact ReferenceIndex.length_make hupdated
    obtain ⟨outcome, houtcome, hstatus, hcomplete⟩ := failWith_outcome hfailedAt hsize
    refine ⟨outcome, houtcome, hstatus, hcomplete, ?_⟩
    rw [hfinal]
    exact hdigests.trans howned

/-- When the lock is held and every restore succeeds, a failed installation is
all or nothing exactly unless it strands the installed reference. -/
theorem applyPlan_allOrNothing_iff (faults : InstallFaults) (world : World) (plan : InstallPlan)
    (hlock : faults.lock = none) (hrestore : (applyPlan faults world plan).restoreErrors = []) :
    InstallAllOrNothing faults world plan ↔ ¬ InstalledReferenceStranded faults world plan := by
  constructor
  · intro hall hstranded
    obtain ⟨outcome, houtcome, hstatus, hcomplete, hdigests⟩ :=
      applyPlan_of_stranded hlock hstranded hrestore
    have hkept := (hall outcome houtcome hstatus hcomplete).2.2
    exact hstranded.replaced (hkept.symm.trans hdigests)
  · intro hsafe outcome houtcome hstatus _
    have hpre : preconditionsCurrent world plan = true := by
      by_contra hnot
      simp only [applyPlan, hlock, hnot] at houtcome
      rw [← Option.some.inj houtcome] at hstatus
      exact absurd hstatus (by simp)
    cases herror : (forward faults plan world).error with
    | none =>
        simp only [applyPlan, hlock, hpre, herror, if_true] at houtcome
        split at houtcome
        · exact absurd houtcome (by simp)
        · rw [← Option.some.inj houtcome] at hstatus
          simp only at hstatus
          split at hstatus <;> exact absurd hstatus (by simp)
    | some raised =>
        cases raised with
        | escaped =>
            simp [applyPlan, hlock, hpre, herror] at houtcome
        | caught message =>
            have hreport : applyPlan faults world plan =
                failWith faults plan (forward faults plan world) message := by
              simp [applyPlan, hlock, hpre, herror]
            rw [hreport] at hrestore ⊢
            obtain ⟨index, hfinal, hdigests⟩ := failWith_restored hpre hrestore
            have hresolves := (forward_touched faults plan world).resolves
            rw [hfinal]
            refine ⟨?_, ?_, ?_⟩
            · intro operation hmem
              rw [← preconditionsCurrent_operation hpre hmem]
              simp [World.inspectPath, hresolves]
            · rw [← preconditionsCurrent_state hpre]
              simp [World.inspectState, hresolves]
            · exact hdigests.trans (forward_installedDigests hpre (by simp [herror]) hsafe)

end Transaction

/-! ## A stranded reference -/

section Sample

local instance : StandardLibrary := plainLibrary

def sampleSource : SourceEvidence where
  sourceAlias := ⟨"team", Eq.refl true⟩
  declaredId := ⟨"team", Eq.refl true⟩
  kind := .sourceLocal
  origin := "/srv/team"
  resolvedCommit := "working-tree"

def sampleArtifact : ArtifactEvidence where
  identity := ⟨.guideline, ⟨"style", Eq.refl true⟩⟩
  version := "1.0.0"
  manifestDigest := ⟨"a1"⟩
  payloadDigest := ⟨"b2"⟩
  objectDigest := ⟨"c0ffee"⟩

def sampleProfile : Slug := ⟨"claude", by decide⟩

/-- A guideline written to a place where nothing was. -/
def sampleOperation : InstallOperation where
  destination := ".claude/style.md"
  absoluteDestination := "/work/.claude/style.md"
  precondition := .absent
  overwrote := false
  action := .writeFile "payload/style.md" [35] false false none

def sampleRecord : InstallationRecord where
  source := sampleSource
  artifact := sampleArtifact
  profile := sampleProfile
  profileVersion := 1
  scope := .project
  requestedMode := .copy
  effects := [proofOf sampleOperation]

def sampleState : InstallState := ⟨[sampleRecord], by decide, by decide⟩

def sampleObject : ObjectCandidate := ⟨⟨"c0ffee"⟩, []⟩

def samplePlanData : InstallPlanData where
  request := { identity := sampleArtifact.identity, profile := sampleProfile }
  coordinate := ⟨sampleSource.sourceAlias, sampleArtifact.identity, some "1.0.0"⟩
  source := sampleSource
  sourceHealth := .healthy
  sourceAgeSeconds := 0
  sourceSnapshotDigest := ⟨"d3"⟩
  artifact := sampleArtifact
  trust := .localTrust
  trustEvidenceDigest := ⟨"e4"⟩
  policyDigest := ⟨"f5"⟩
  objectStorePaths := ⟨"/data"⟩
  objectCandidate := sampleObject
  objectRoot := "/data/objects/sha256/c0/ffee"
  provenance := none
  operations := [sampleOperation]
  statePath := "/work/.agent-artifacts/manifest.json"
  stateLockPath := "/work/.agent-artifacts/state.lock"
  statePrecondition := .absent
  replacementState := sampleState
  referenceOwner := "project/team/guideline/style/claude"

def samplePlan : InstallPlan := ⟨samplePlanData, by decide⟩

/-- The object is stored; nothing is installed and nothing is referenced. -/
def sampleWorld : World where
  files _ := .absent
  manifests _ := .absent
  references := emptyIndex
  objects digest := if digest = ⟨"c0ffee"⟩ then some ⟨sampleObject, "/data/objects/sha256/c0/ffee"⟩ else none
  resolves _ _ := false
  direct _ _ := false

local instance : ManifestCodec := tableCodec [sampleState]

/-- The installed reference is written, then releasing the store lease fails. -/
theorem applyPlan_strands_installed_reference :
    (applyPlan { installed := .after [⟨⟨"store-lock-release"⟩, "lease was lost"⟩] } sampleWorld
        samplePlan).restoreErrors = [] ∧
      ¬ InstallAllOrNothing { installed := .after [⟨⟨"store-lock-release"⟩, "lease was lost"⟩] }
        sampleWorld samplePlan := by
  refine ⟨by decide, ?_⟩
  intro hall
  have hfailed : ∃ outcome, (applyPlan
      { installed := .after [⟨⟨"store-lock-release"⟩, "lease was lost"⟩] } sampleWorld
        samplePlan).outcome = some outcome ∧ outcome.status = .failed ∧
          outcome.rollbackComplete = true := ⟨_, rfl, rfl, by decide⟩
  obtain ⟨outcome, houtcome, hstatus, hcomplete⟩ := hfailed
  have hreferences := (hall outcome houtcome hstatus hcomplete).2.2
  exact absurd hreferences (by decide)

/-- A destination that cannot be written fails the call and leaves everything as it was. -/
theorem applyPlan_allOrNothing_failed_write :
    InstallAllOrNothing { write := fun _ => some ⟨.unreadable "torn", "disk full"⟩ } sampleWorld
      samplePlan :=
  (applyPlan_allOrNothing_iff _ sampleWorld samplePlan rfl (by decide)).mpr fun hstranded =>
    absurd hstranded.writes (by decide)

end Sample

end AgentArtifacts
