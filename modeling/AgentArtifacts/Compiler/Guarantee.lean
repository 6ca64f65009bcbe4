import AgentArtifacts.Compiler.Runs

/-!
# Every run of the compiler is sound

Each phase is entered with reports of phases that succeeded and a record that justifies the
calls in it; it ends the run or leaves both so for the phase behind it.
-/

namespace AgentArtifacts.Compiler

open CallLedger

section Guarantee

variable [StandardLibrary] {ω P H R N V α : Type}

/-! ## Phases -/

omit [StandardLibrary] in
theorem acceptedOutput_cases (result : Outcome (PhaseOutput α)) :
    (∃ diagnostics, acceptedOutput result = .error diagnostics) ∨
      ∃ output, result = .ok output ∧ output.Accepted ∧ acceptedOutput result = .ok output := by
  unfold acceptedOutput
  cases result with
  | error failure => exact Or.inl ⟨failure.diagnostics, rfl⟩
  | ok output =>
      dsimp only
      split
      · exact Or.inl ⟨output.diagnostics, rfl⟩
      · rename_i hnone
        refine Or.inr ⟨output, rfl, fun diagnostic hdiagnostic herror => hnone ?_, rfl⟩
        exact List.any_eq_true.mpr ⟨diagnostic, hdiagnostic, beq_iff_eq.mpr herror⟩

/-- Where a phase is entered with its input. -/
structure Entering (request : CompilerRequest) (phase : CompilerPhase) (inputDigest : ObjectDigest)
    (reports : List PhaseReport) (calls : List (Call P H R N V)) : Prop where
  progress : Progress phase reports
  last : ∀ report ∈ reports.getLast?, report.outputDigest = some inputDigest
  justified : Justified (justifies request) calls
  earlier : ∀ call ∈ calls, call.phase.position < phase.position
  frozen : FrozenSources request

variable {request : CompilerRequest} {reports : List PhaseReport} {calls : List (Call P H R N V)}

theorem Entering.not_mem {phase : CompilerPhase} {inputDigest : ObjectDigest}
    (h : Entering request phase inputDigest reports calls)
    {made : Call P H R N V} (hlate : phase.position ≤ made.phase.position) : made ∉ calls :=
  fun hmem => absurd (h.earlier made hmem) (not_lt_of_ge hlate)

/-- A phase in the middle ends the run, or goes on with an output that it accepted. -/
theorem runPhase_finishes {phase : CompilerPhase} (after : CompilerPhase)
    (hphase : phase ∈ CompilerPhase.steps) (hafter : after.position = phase.position + 1) {inputDigest : ObjectDigest}
    (h : Entering request phase inputDigest reports calls)
    {effect : StateM ω (Outcome (PhaseOutput α))} {event : Outcome (PhaseOutput α) → Call P H R N V}
    (hevent : ∀ answer, (event answer).phase = phase ∧ justifies request calls (event answer))
    {check : PhaseOutput α → List Diagnostic}
    {next : List PhaseReport → PhaseOutput α → Compilation ω P H R N V (Raising CompilerRun)}
    (hnext : ∀ output reports', output.Accepted → check output = [] →
      Entering request after output.digest reports' (calls ++ [event (.ok output)]) →
      Ensures (next reports' output) (calls ++ [event (.ok output)]) (Finished request)) :
    Ensures (runPhase phase inputDigest (call effect event) check reports next) calls (Finished request) := by
  have hstep : phase.position ≤ CompilerPhase.index.position := by
    revert hphase
    cases phase <;> decide
  have hfailed (answer : Outcome (PhaseOutput α)) (diagnostics : List Diagnostic) :
      Finished request (failedRun reports phase diagnostics inputDigest) (calls ++ [event answer]) := by
    have hcalls : ∀ made ∈ calls ++ [event answer], made.phase.position ≤ phase.position := by
      intro made hmade
      rcases List.mem_append.mp hmade with hmade | hmade
      · exact le_of_lt (h.earlier made hmade)
      · rw [List.mem_singleton.mp hmade, (hevent answer).1]
    refine finished_failed diagnostics inputDigest h.progress (h.justified.snoc (hevent answer).2) hcalls
      (fun _ => h.frozen) ?_ ?_
    · intro plan receipt hmade
      exact absurd (le_trans (hcalls _ hmade) hstep) (by simp only [Call.phase]; decide)
    · intro receipt publication hmade
      exact absurd (le_trans (hcalls _ hmade) hstep) (by simp only [Call.phase]; decide)
  unfold runPhase
  refine ensures_bind (ensures_call fun answer => ?_)
  rcases acceptedOutput_cases answer with ⟨diagnostics, hrefused⟩ | ⟨output, rfl, haccepted, houtput⟩
  · rw [hrefused]
    exact ensures_pure (hfailed answer diagnostics)
  · rw [houtput]
    dsimp only
    split
    · rename_i hcheck
      refine hnext output _ haccepted hcheck ⟨?_, ?_, h.justified.snoc (hevent _).2, ?_, h.frozen⟩
      · exact h.progress.next rfl rfl hafter fun _ => ⟨rfl, fun last hlast => (h.last last hlast).symm⟩
      · simp [successReport]
      · intro made hmade
        rcases List.mem_append.mp hmade with hmade | hmade
        · have hearlier := h.earlier made hmade
          omega
        · rw [List.mem_singleton.mp hmade, (hevent _).1]
          omega
    · exact ensures_pure (hfailed _ _)

/-! ## Materialization -/

theorem acceptReceipt_cases (plan : ObjectPlan) (state : List Diagnostic × List ObjectReceipt)
    (answer : Outcome ObjectReceipt) (h : (acceptReceipt plan state answer).1 = []) :
    state.1 = [] ∧ Matched plan answer := by
  unfold acceptReceipt at h
  cases answer with
  | error failure => exact absurd h (failure_ne_nil failure state.1)
  | ok receipt =>
      dsimp only at h
      split at h
      · exact absurd h (by simp)
      · rename_i hmatches
        exact ⟨h, receipt, rfl, not_not.mp hmatches⟩

/-- While the objects of a candidate are materialized, after earlier calls. -/
structure Materializing (request : CompilerRequest) (calls : List (Call P H R N V)) (done : List ObjectPlan)
    (state : List Diagnostic × List ObjectReceipt) (made : List (Call P H R N V)) : Prop where
  justified : Justified (justifies request) made
  kept : calls ⊆ made
  added : ∀ call ∈ made, call ∈ calls ∨
    ∃ plan ∈ done, ∃ answer, call = .materialize plan answer ∧ (state.1 = [] → Matched plan answer)
  complete : state.1 = [] → ∀ plan ∈ done, ∃ answer, .materialize plan answer ∈ made ∧ Matched plan answer

theorem materializeObject_keeps {ports : CompilerPorts ω} {calls made : List (Call P H R N V)}
    {done : List ObjectPlan} {plan : ObjectPlan} {state : List Diagnostic × List ObjectReceipt}
    (hplan : ∀ answer, justifies request made (.materialize plan answer))
    (h : Materializing request calls done state made) :
    Ensures (materializeObject ports state plan) made (Materializing request calls (done ++ [plan])) := by
  unfold materializeObject
  refine ensures_bind (ensures_call fun answer => ensures_pure ⟨h.justified.snoc (hplan answer), ?_, ?_, ?_⟩)
  · exact fun earlier hearlier => List.mem_append_left _ (h.kept hearlier)
  · intro other hother
    rcases List.mem_append.mp hother with hother | hother
    · rcases h.added other hother with hold | ⟨found, hfound, found', hcall, hmatched⟩
      · exact Or.inl hold
      · refine Or.inr ⟨found, List.mem_append_left _ hfound, found', hcall, fun hnone => ?_⟩
        exact hmatched (acceptReceipt_cases plan state answer hnone).1
    · refine Or.inr ⟨plan, by simp, answer, List.mem_singleton.mp hother, fun hnone => ?_⟩
      exact (acceptReceipt_cases plan state answer hnone).2
  · intro hnone other hother
    obtain ⟨hbefore, hmatched⟩ := acceptReceipt_cases plan state answer hnone
    rcases List.mem_append.mp hother with hother | hother
    · obtain ⟨found, hfound, hmatches⟩ := h.complete hbefore other hother
      exact ⟨found, List.mem_append_left _ hfound, hmatches⟩
    · rw [List.mem_singleton.mp hother]
      exact ⟨answer, by simp, hmatched⟩

theorem publishCandidate_finishes {ports : CompilerPorts ω}
    {candidate : CompilationCandidate}
    (hprogress : Progress .publish reports) (hjustified : Justified (justifies request) calls)
    (hearlier : ∀ call ∈ calls, call.phase.position < CompilerPhase.publish.position) (hfrozen : FrozenSources request)
    (hpublish : ∀ answer, justifies request calls (.publish (publicationRequest candidate request.buildKey) answer))
    (hplans : ∀ plan answer, .materialize plan answer ∈ calls → plan ∈ candidate.objects) :
    Ensures (publishCandidate request ports candidate reports) calls (Finished request) := by
  have hcalls (answer : Outcome PublishReceipt) : ∀ made ∈ calls ++ [.publish (publicationRequest candidate request.buildKey)
      answer], made.phase.position ≤ CompilerPhase.publish.position := by
    intro made _
    cases made.phase <;> decide
  have hmaterialized (answer : Outcome PublishReceipt) (plan : ObjectPlan) (receipt : Outcome ObjectReceipt)
      (hmade : .materialize plan receipt ∈ calls ++ [.publish (publicationRequest candidate request.buildKey) answer]) :
      ∃ found, some candidate = some found ∧ plan ∈ found.objects := by
    rcases List.mem_append.mp hmade with hmade | hmade
    · exact ⟨candidate, rfl, hplans plan receipt hmade⟩
    · exact absurd hmade (by simp)
  have honly {answer : Outcome PublishReceipt} {publication : PublishRequest} {found : Outcome PublishReceipt}
      (hmade : .publish publication found ∈ calls ++ [.publish (publicationRequest candidate request.buildKey) answer]) :
      publication = publicationRequest candidate request.buildKey ∧ found = answer := by
    rcases List.mem_append.mp hmade with hmade | hmade
    · exact absurd (hearlier _ hmade) (lt_irrefl _)
    · simpa using hmade
  unfold publishCandidate
  refine ensures_bind (ensures_call fun answer => ?_)
  cases answer with
  | error failure =>
      refine ensures_pure (finished_failed _ _ hprogress (hjustified.snoc (hpublish _)) (hcalls _) (fun _ => hfrozen)
        (hmaterialized _) fun receipt publication hmade => ?_)
      exact absurd (honly hmade).2 (by simp)
  | ok receipt =>
      dsimp only
      split
      · rename_i hmismatch
        refine ensures_pure (finished_failed _ _ hprogress (hjustified.snoc (hpublish _)) (hcalls _) (fun _ => hfrozen)
          (hmaterialized _) fun other publication hmade => ?_)
        obtain ⟨rfl, hother⟩ := honly hmade
        rw [Except.ok.inj hother]
        exact hmismatch
      · rename_i hmatches
        have hended : Ended .publish (reports ++ [⟨.publish, .succeeded,
            some (publicationRequest candidate request.buildKey).snapshotDigest, some receipt.snapshotDigest, []⟩]) :=
          hprogress.complete rfl rfl
        refine ensures_pure ⟨_, compilerRun_of_ended hended (by simp), ?_⟩
        refine sound_of_ended hended (hjustified.snoc (hpublish _)) (hcalls _) (fun _ => hfrozen) (hmaterialized _) ?_
        intro other
        constructor
        · intro hother
          obtain rfl : receipt = other := Option.some.inj hother
          exact ⟨_, List.mem_append_right _ List.mem_cons_self, not_not.mp hmatches⟩
        · rintro ⟨publication, hmade, _⟩
          rw [Except.ok.inj (honly hmade).2]

theorem materializeCandidate_finishes {ports : CompilerPorts ω}
    {indexed : PhaseOutput CompilationCandidate}
    (h : Entering request .materialize indexed.digest reports calls) {input : PhaseOutput V} {context : CompilerContext}
    (hindex : .index input context (.ok indexed) ∈ calls) (haccepted : indexed.Accepted) :
    Ensures (materializeCandidate request ports indexed.value reports) calls (Finished request) := by
  unfold materializeCandidate
  refine ensures_bind ?_
  have hloop : Ensures (indexed.value.objects.foldlM (materializeObject ports) ([], [])) calls
      (Materializing request calls indexed.value.objects) := by
    refine ensures_foldlM ⟨h.justified, fun _ => id, fun _ => Or.inl, by simp⟩ ?_
    intro done plan later hobjects state made hstate
    refine materializeObject_keeps (fun answer => ?_) hstate
    exact ⟨input, context, indexed, hstate.kept hindex, haccepted, by simp [hobjects]⟩
  refine hloop.mono fun state made hstate => ?_
  have hplans (plan : ObjectPlan) (answer : Outcome ObjectReceipt) (hmade : .materialize plan answer ∈ made) :
      plan ∈ indexed.value.objects ∧ (state.1 = [] → Matched plan answer) := by
    rcases hstate.added _ hmade with hold | ⟨found, hfound, found', hcall, hmatched⟩
    · exact absurd hold (h.not_mem le_rfl)
    · cases hcall
      exact ⟨hfound, hmatched⟩
  have hlate (call : Call P H R N V) (hcall : call ∈ made) :
      call.phase.position ≤ CompilerPhase.materialize.position := by
    rcases hstate.added call hcall with hold | ⟨found, _, found', rfl, _⟩
    · exact le_of_lt (h.earlier call hold)
    · exact le_rfl
  have hbefore (call : Call P H R N V) (hcall : call ∈ made) :
      call.phase.position < CompilerPhase.publish.position := lt_of_le_of_lt (hlate call hcall) (by decide)
  dsimp only
  split
  · refine ensures_pure (finished_failed _ _ h.progress hstate.justified hlate (fun _ => h.frozen) ?_ ?_)
    · intro plan answer hmade
      exact ⟨indexed.value, rfl, (hplans plan answer hmade).1⟩
    · intro receipt publication hmade
      exact absurd (hbefore _ hmade) (lt_irrefl _)
  · rename_i hnone
    have hnone : state.1 = [] := not_not.mp hnone
    refine publishCandidate_finishes ?_ hstate.justified hbefore h.frozen ?_ fun plan answer hmade => (hplans plan answer hmade).1
    · exact h.progress.next rfl rfl (by decide) fun hstep => absurd hstep (by decide)
    · intro answer
      refine ⟨⟨input, context, indexed, hstate.kept hindex, haccepted, rfl, hstate.complete hnone⟩, ?_, ?_⟩
      · exact fun plan answer hmade => (hplans plan answer hmade).2 hnone
      · intro call hcall hpublish
        have hposition := hbefore call hcall
        rw [hpublish] at hposition
        exact lt_irrefl _ hposition

/-! ## The whole pipeline -/

/-- Whatever the steps and ports answer, a compilation gives a run, and the run is sound. -/
theorem compileSources_sound (request : CompilerRequest) (steps : CompilerSteps ω P H R N V) (ports : CompilerPorts ω)
    (world : ω) :
    ∃ run, (compileSources request steps ports ⟨world, []⟩).1 = .ok run ∧
      Sound request run (compileSources request steps ports ⟨world, []⟩).2.calls := by
  suffices h : Ensures (compileSources request steps ports) ([] : List (Call P H R N V)) (Finished request) from h world
  unfold compileSources
  refine ensures_bind ((acquireSources_ensures request ports).mono ?_)
  rintro result calls ⟨hjustified, honly, hfrozen, hacquired⟩
  have hposition : ∀ call ∈ calls, call.phase.position = 0 := fun call hcall => by rw [honly call hcall]; rfl
  cases result with
  | error diagnostics =>
      refine ensures_pure (finished_failed _ _ .first hjustified (fun call hcall => ?_) hfrozen ?_ ?_)
      · exact le_of_eq (hposition call hcall)
      · intro plan answer hmade
        exact absurd (honly _ hmade) (by simp [Call.phase])
      · intro receipt publication hmade
        exact absurd (honly _ hmade) (by simp [Call.phase])
  | ok acquired =>
      obtain ⟨hsources, hitems⟩ := hacquired acquired rfl
      have hentering : Entering request .parse acquired.inputDigest
          [⟨.acquire, .succeeded, some request.optionsDigest, some acquired.inputDigest, []⟩] calls := by
        refine ⟨?_, by simp, hjustified, fun call hcall => ?_, hsources⟩
        · exact Progress.first.next rfl rfl (by decide) fun hstep => absurd hstep (by decide)
        · rw [hposition call hcall]
          decide
      refine runPhase_finishes .handshake (by decide) (by decide) hentering ?_ ?_
      · intro answer
        exact ⟨rfl, hsources, hitems⟩
      intro parsed reports hparsed _ hentering
      refine runPhase_finishes .resolve (by decide) (by decide) hentering ?_ ?_
      · intro answer
        exact ⟨rfl, _, _, List.mem_append_right _ List.mem_cons_self, hparsed⟩
      intro handshaken reports hhandshaken _ hentering
      refine runPhase_finishes .normalize (by decide) (by decide) hentering ?_ ?_
      · intro answer
        exact ⟨rfl, _, _, List.mem_append_right _ List.mem_cons_self, hhandshaken⟩
      intro resolved reports hresolved hcheck hentering
      have hresolution : request.mode = .consumer → resolved.value.frozen = true := by
        intro hmode
        by_contra hloose
        rw [Bool.not_eq_true] at hloose
        simp [unfrozenResolution, hmode, hloose] at hcheck
      refine runPhase_finishes .validate (by decide) (by decide) hentering ?_ ?_
      · intro answer
        exact ⟨rfl, _, _, List.mem_append_right _ List.mem_cons_self, hresolved, hresolution⟩
      intro normalized reports hnormalized _ hentering
      refine runPhase_finishes .index (by decide) (by decide) hentering ?_ ?_
      · intro answer
        exact ⟨rfl, _, _, List.mem_append_right _ List.mem_cons_self, hnormalized⟩
      intro validated reports hvalidated _ hentering
      refine runPhase_finishes .materialize (by decide) (by decide) hentering ?_ ?_
      · intro answer
        exact ⟨rfl, _, _, List.mem_append_right _ List.mem_cons_self, hvalidated⟩
      intro indexed reports hindexed _ hentering
      exact materializeCandidate_finishes hentering (List.mem_append_right _ List.mem_cons_self) hindexed

end Guarantee

end AgentArtifacts.Compiler
