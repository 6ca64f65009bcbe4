import AgentArtifacts.Installation.Atomicity

/-!
# What a successful installation leaves behind

A call that reports `applied` or `current` wrote every destination that was not
current, left a manifest with the bytes of the replacement, and the installed
references of the owner are the installed object alone; the references of every
other owner are as before.
-/

namespace AgentArtifacts

variable [StandardLibrary]

/-! ## Destinations -/

/-- One operation carried out, or nothing when it was current already. -/
def installFile (files : String → Node) (operation : InstallOperation) : String → Node :=
  if operationIsCurrent operation then files
  else Function.update files operation.absoluteDestination (intendedNode operation)

/-- The files after all operations. -/
def installFiles (operations : List InstallOperation) (files : String → Node) : String → Node :=
  operations.foldl installFile files

variable {faults : InstallFaults} {plan : InstallPlan} {world : World}

theorem applyOperation_files {operation : InstallOperation}
    (h : (applyOperation faults plan operation world).2 = none) :
    (applyOperation faults plan operation world).1 =
      world.setFile operation.absoluteDestination (intendedNode operation) := by
  have hfault := (applyOperation_succeeds_iff faults plan operation world).mp h
  simp only [applyOperation, settle, hfault.1, hfault.2, if_true]

theorem applyOperations_files {operations : List InstallOperation} {start : Progress} (hstart : start.failed = none)
    (h : (applyOperations faults plan operations start).failed = none) :
    (applyOperations faults plan operations start).world.files =
      installFiles operations start.world.files := by
  induction operations generalizing start with
  | nil => rfl
  | cons operation rest ih =>
      simp only [applyOperations, installFiles, List.foldl_cons, installFile] at h ⊢
      by_cases hcurrent : operationIsCurrent operation = true
      · simp only [hcurrent, if_true] at h ⊢
        exact ih hstart h
      · simp only [hcurrent, Bool.false_eq_true, if_false] at h ⊢
        cases hfailure : (applyOperation faults plan operation start.world).2 with
        | some message => exact absurd h (by simp [hfailure])
        | none =>
            simp only [hfailure] at h ⊢
            rw [applyOperation_files hfailure] at h ⊢
            refine ih ?_ h
            exact hstart

variable [ManifestCodec]

/-! ## The manifest -/

theorem writeState_manifests (hpre : world.inspectState plan.statePath = .ok plan.statePrecondition)
    (h : (writeState faults plan world).2 = none) :
    ∃ executable, (writeState faults plan world).1.manifests = Function.update world.manifests
      plan.statePath (.file (installStateBytes plan.replacementState) executable) := by
  unfold writeState at h ⊢
  by_cases hcurrent : stateIsCurrent plan = true
  · -- The manifest already holds these bytes.
    unfold stateIsCurrent at hcurrent
    split at hcurrent
    · rename_i content executable hfile
      refine ⟨executable, ?_⟩
      have hobserved := (inspectNode_eq_ok hpre).2
      rw [hfile] at hobserved
      have hnode : world.manifests plan.statePath =
          .file (installStateBytes plan.replacementState) executable := by
        rw [← beq_iff_eq.mp hcurrent]
        exact node_of_observe_file hobserved
      have hbytes : stateIsCurrent plan = true := by
        simp [stateIsCurrent, hfile, hcurrent]
      simp [hbytes, ← hnode]
    · exact absurd hcurrent (by simp)
  · refine ⟨false, ?_⟩
    simp only [hcurrent, Bool.false_eq_true, if_false] at h ⊢
    cases hstep : settle faults.state (world.manifests plan.statePath)
        (atomicWrite (installStateBytes plan.replacementState) (world.manifests plan.statePath)) with
    | mk node failure =>
        rw [hstep] at h
        obtain rfl : failure = none := h
        unfold settle at hstep
        cases hfault : faults.state with
        | some fault => exact absurd hstep (by simp [hfault])
        | none =>
            simp only [hfault] at hstep
            cases hwrite : atomicWrite (installStateBytes plan.replacementState)
                (world.manifests plan.statePath) with
            | error message => exact absurd hstep (by simp [hwrite])
            | ok written =>
                simp only [hwrite, Prod.mk.injEq, and_true] at hstep
                rw [← hstep, atomicWrite_eq_ok hwrite]
                rfl

/-! ## The call -/

/-- Installed references after an installation: the owner holds the object alone. -/
def InstalledReferences (before after : ReferenceIndex) (owner : String) (digest : ObjectDigest) : Prop :=
  ∀ other found, (⟨.installed, other, found⟩ ∈ after.references ↔
    if other = owner then found = digest else ⟨.installed, other, found⟩ ∈ before.references)

/-- A successful call, by what it leaves. -/
structure Installed (world : World) (plan : InstallPlan) (after : World) : Prop where
  current : preconditionsCurrent world plan = true
  files : after.files = installFiles plan.operations world.files
  manifests : ∃ executable, after.manifests = Function.update world.manifests plan.statePath
    (.file (installStateBytes plan.replacementState) executable)
  references : InstalledReferences world.references after.references plan.referenceOwner plan.objectDigest
  objects : after.objects = world.objects
  resolves : after.resolves = world.resolves
  direct : after.direct = world.direct

def InstallOutcome.succeeded (outcome : InstallOutcome) : Bool :=
  outcome.status == .applied || outcome.status == .current

omit [ManifestCodec] in
theorem failWith_status {stopped : Forward}
    {message : String} {outcome : InstallOutcome}
    (h : (failWith faults plan stopped message).outcome = some outcome) : outcome.status = .failed := by
  unfold failWith at h
  simp only at h
  split at h
  · rw [← Option.some.inj h]
  · rw [← Option.some.inj h]
  · exact absurd h (by simp)

/-- Files and manifest are in place when the installed reference is updated. -/
theorem beforeReference_spec
    (hpre : preconditionsCurrent world plan = true) (h : reachesReference faults world plan) :
    ∃ executable index, beforeReference faults plan world =
        { world with
          files := installFiles plan.operations world.files
          manifests := Function.update world.manifests plan.statePath
            (.file (installStateBytes plan.replacementState) executable)
          references := index } ∧
      ∀ owner digest, ⟨.installed, owner, digest⟩ ∈ index.references ↔
        ⟨.installed, owner, digest⟩ ∈ world.references.references := by
  obtain ⟨hretained, hwrites, hstate⟩ := h
  obtain ⟨index, hindex⟩ := updateReferences_world faults.retain world .transaction
    (transactionOwner plan) "cannot retain transaction object reference" [plan.objectDigest]
  have hoperations : ∀ operation ∈ plan.operations,
      operationPreconditionCurrent world plan operation = true := by
    simp only [preconditionsCurrent, Bool.and_eq_true, List.all_eq_true] at hpre
    exact hpre.1.2
  have hfailed : (applyOperations faults plan plan.operations
      { world := world.setReferences index }).failed = none :=
    (@applyOperations_succeeds_iff _ plan (world.setReferences index) faults hoperations).mpr hwrites
  have hfiles := applyOperations_files rfl hfailed
  obtain ⟨_, _, _, _, hworld⟩ := applyOperations_frame faults plan plan.operations
    { world := world.setReferences index }
  rw [hfiles] at hworld
  have hpreState : (applyOperations faults plan plan.operations
      { world := world.setReferences index }).world.inspectState plan.statePath =
        .ok plan.statePrecondition := by
    have hstate' := preconditionsCurrent_state hpre
    rw [hworld]
    exact hstate'
  have hwritten := (writeState_succeeds_iff hpreState).mpr hstate
  obtain ⟨executable, hmanifests⟩ := writeState_manifests hpreState hwritten
  obtain ⟨manifests, hframe, _⟩ := writeState_frame faults plan (applyOperations faults plan
    plan.operations { world := world.setReferences index }).world
  refine ⟨executable, index, ?_, ?_⟩
  · unfold beforeReference
    rw [hindex, hframe]
    rw [hframe] at hmanifests
    simp only at hmanifests
    rw [hmanifests, hworld]
    rfl
  · intro owner digest
    have hkept := @updateReferences_mem_of_ne faults.retain world [plan.objectDigest] .installed .transaction owner
      (transactionOwner plan) "cannot retain transaction object reference" (by decide) digest
    rw [hindex] at hkept
    exact hkept

/-- Every call that reports success leaves the installation in place. -/
theorem applyPlan_installed {outcome : InstallOutcome} (h : (applyPlan faults world plan).outcome = some outcome)
    (hsucceeded : outcome.succeeded = true) :
    Installed world plan (applyPlan faults world plan).world := by
  have hnotFailed : outcome.status ≠ .failed := by
    intro hfailed
    simp [InstallOutcome.succeeded, hfailed] at hsucceeded
  unfold applyPlan at h ⊢
  cases hlock : faults.lock with
  | some message =>
      rw [hlock] at h
      exact absurd (failWith_status h) hnotFailed
  | none =>
      simp only [hlock] at h ⊢
      by_cases hpre : preconditionsCurrent world plan = true
      · simp only [hpre, if_true] at h ⊢
        cases herror : (forward faults plan world).error with
        | some raised =>
            cases raised with
            | escaped => simp [herror] at h
            | caught message =>
                simp only [herror] at h
                exact absurd (failWith_status h) hnotFailed
        | none =>
            simp only [herror] at h ⊢
            rcases @forward_cases _ plan world faults _ hpre with ⟨_, hraised, _⟩ | ⟨hreaches, _, _, hforward⟩
            · exact absurd herror hraised
            · obtain ⟨executable, index, hbefore, hkept⟩ := beforeReference_spec hpre hreaches
              have hworld := congrArg Prod.fst hforward
              have hresult := congrArg Prod.snd hforward
              simp only at hworld hresult
              rw [herror] at hresult
              obtain ⟨hnone, updated, hupdated⟩ := updateReferences_succeeds_iff.mp hresult.symm
              have hreached : (forward faults plan world).world =
                  (beforeReference faults plan world).setReferences updated := by
                rw [hworld]
                simp [updateReferences, replaceReferences, hnone, hupdated]
              obtain ⟨last, hlast⟩ := updateReferences_world faults.release
                (forward faults plan world).world .transaction (transactionOwner plan) "" []
              have hreferences : InstalledReferences world.references last plan.referenceOwner
                  plan.objectDigest := by
                intro owner digest
                have hreleased := @updateReferences_mem_of_ne faults.release
                  (forward faults plan world).world [] .installed .transaction owner
                  (transactionOwner plan) "" (by decide) digest
                rw [hlast, hreached] at hreleased
                rw [World.setReferences_references, World.setReferences_references] at hreleased
                rw [hreleased, ReferenceIndex.mem_replace hupdated, hbefore]
                by_cases howner : owner = plan.referenceOwner
                · simp [ObjectReference.ownedBy, howner]
                · simp [ObjectReference.ownedBy, howner, hkept owner digest]
              have hfinal : Installed world plan ((forward faults plan world).world.setReferences last) := by
                rw [hreached, hbefore]
                exact ⟨hpre, rfl, ⟨executable, rfl⟩, hreferences, rfl, rfl, rfl⟩
              rw [hlast] at h ⊢
              split
              · exact hfinal
              · exact hfinal
      · simp only [hpre] at h
        rw [← Option.some.inj h] at hsucceeded
        exact absurd hsucceeded (by simp [InstallOutcome.succeeded])

end AgentArtifacts
