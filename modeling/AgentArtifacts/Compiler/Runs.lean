import AgentArtifacts.Compiler.Pipeline

/-!
# What a compilation guarantees

Whatever the steps and the ports answer, a run has a report for every phase, its calls are
justified by what was answered before, and it publishes at most once, when everything
before has succeeded.
-/

namespace AgentArtifacts.Compiler

open CallLedger

section Runs

variable [StandardLibrary] {ω P H R N V α : Type}

/-! ## The guarantee -/

/-- The output carries no diagnostic of severity error. -/
def PhaseOutput.Accepted (output : PhaseOutput α) : Prop :=
  ∀ diagnostic ∈ output.diagnostics, diagnostic.severity ≠ .error

def Call.phase : Call P H R N V → CompilerPhase
  | .acquire .. => .acquire
  | .parse .. => .parse
  | .handshake .. => .handshake
  | .resolve .. => .resolve
  | .normalize .. => .normalize
  | .validate .. => .validate
  | .index .. => .index
  | .materialize .. => .materialize
  | .publish .. => .publish

/-- Every source of a consumer names the revision and the snapshot it is locked to. -/
def FrozenSources (request : CompilerRequest) : Prop :=
  request.mode = .consumer → ∀ source ∈ request.sources,
    source.lockedRevision.isSome = true ∧ source.expectedSnapshotDigest.isSome = true

/-- What was acquired for a source: its alias, and for a consumer its locked state. -/
structure Acquires (mode : CompilerMode) (source : SourceRequest) (item : AcquiredSource) : Prop where
  sourceAlias : item.sourceAlias = source.sourceAlias
  locked : mode = .consumer →
    source.lockedRevision = some item.resolvedRevision ∧ source.expectedSnapshotDigest = some item.snapshotDigest

/-- Each source was acquired, and nothing else. -/
structure AcquiredFrom (mode : CompilerMode) (sources : List SourceRequest) (calls : List (Call P H R N V))
    (items : List AcquiredSource) : Prop where
  requested : ∀ item ∈ items, ∃ source ∈ sources, .acquire source (.ok item) ∈ calls ∧ Acquires mode source item
  complete : ∀ source ∈ sources, ∃ item ∈ items, .acquire source (.ok item) ∈ calls ∧ Acquires mode source item

/-- The receipt of the plan matches it. -/
def Matched (plan : ObjectPlan) (answer : Outcome ObjectReceipt) : Prop :=
  ∃ receipt, answer = .ok receipt ∧ receipt.digest = plan.digest

/-- What has to be answered before a call. -/
def justifies (request : CompilerRequest) (before : List (Call P H R N V)) : Call P H R N V → Prop
  | .acquire source _ => source ∈ request.sources ∧ FrozenSources request
  | .parse input _ _ => FrozenSources request ∧ AcquiredFrom request.mode request.sources before input.sources
  | .handshake input _ _ => ∃ earlier context, .parse earlier context (.ok input) ∈ before ∧ input.Accepted
  | .resolve input _ _ => ∃ earlier context, .handshake earlier context (.ok input) ∈ before ∧ input.Accepted
  | .normalize input _ _ =>
      ∃ earlier context, .resolve earlier context (.ok input) ∈ before ∧ input.Accepted ∧
        (request.mode = .consumer → input.value.frozen = true)
  | .validate input _ _ => ∃ earlier context, .normalize earlier context (.ok input) ∈ before ∧ input.Accepted
  | .index input _ _ => ∃ earlier context, .validate earlier context (.ok input) ∈ before ∧ input.Accepted
  | .materialize plan _ =>
      ∃ earlier context indexed, .index earlier context (.ok indexed) ∈ before ∧ indexed.Accepted ∧
        plan ∈ indexed.value.objects
  | .publish publication _ =>
      (∃ earlier context indexed, .index earlier context (.ok indexed) ∈ before ∧ indexed.Accepted ∧
        publication = publicationRequest indexed.value request.buildKey ∧
        ∀ plan ∈ indexed.value.objects, ∃ answer, .materialize plan answer ∈ before ∧ Matched plan answer) ∧
      (∀ plan answer, .materialize plan answer ∈ before → Matched plan answer) ∧
      ∀ call ∈ before, call.phase ≠ .publish

structure Sound (request : CompilerRequest) (run : CompilerRun) (calls : List (Call P H R N V)) : Prop where
  phases : run.reports.map (·.phase) = CompilerPhase.all
  staged : Staged (run.reports.map (·.status))
  chained : Chained run.reports
  justified : Justified (justifies request) calls
  /-- A call is made where every phase before its own succeeded. -/
  reached : ∀ call ∈ calls, ∀ report ∈ run.reports, report.phase.position < call.phase.position →
    report.status = .succeeded
  materialized : ∀ plan answer, .materialize plan answer ∈ calls →
    ∃ candidate, run.candidate = some candidate ∧ plan ∈ candidate.objects
  once : (calls.filter fun call => call.phase == .publish).length ≤ 1
  published : ∀ receipt, run.publication = some receipt ↔
    ∃ publication, .publish publication (.ok receipt) ∈ calls ∧ receipt.snapshotDigest = publication.snapshotDigest
  frozenSources : request.mode = .consumer → ∀ call ∈ calls, ∀ source ∈ request.sources,
    source.lockedRevision.isSome = true ∧ source.expectedSnapshotDigest.isSome = true
  frozenResolution : request.mode = .consumer → ∀ before call after, calls = before ++ call :: after →
    CompilerPhase.resolve.position < call.phase.position →
      ∃ input context resolved, .resolve input context (.ok resolved) ∈ before ∧ resolved.value.frozen = true

/-! ## What the record implies -/

variable {request : CompilerRequest} {calls : List (Call P H R N V)}

/-- Behind the resolution every call leads back to one that is frozen, if it has to be. -/
theorem resolution_of_normalize (h : Justified (justifies request) calls) (hmode : request.mode = .consumer)
    {input : PhaseOutput (ResolvedCompilation R)} {context : CompilerContext} {answer : Outcome (PhaseOutput N)}
    (hcall : .normalize input context answer ∈ calls) :
    ∃ input context resolved, .resolve input context (.ok resolved) ∈ calls ∧ resolved.value.frozen = true := by
  obtain ⟨before, hbefore, earlier, context, hresolve, _, hfrozen⟩ := h.of_mem hcall
  exact ⟨earlier, context, input, hbefore.subset hresolve, hfrozen hmode⟩

theorem resolution_of_validate
    (h : Justified (justifies request) calls) (hmode : request.mode = .consumer) {input : PhaseOutput N}
    {context : CompilerContext} {answer : Outcome (PhaseOutput V)} (hcall : .validate input context answer ∈ calls) :
    ∃ input context resolved, .resolve input context (.ok resolved) ∈ calls ∧ resolved.value.frozen = true := by
  obtain ⟨before, hbefore, earlier, context, hnormalize, _⟩ := h.of_mem hcall
  exact resolution_of_normalize h hmode (hbefore.subset hnormalize)

theorem resolution_of_index
    (h : Justified (justifies request) calls) (hmode : request.mode = .consumer) {input : PhaseOutput V}
    {context : CompilerContext} {answer : Outcome (PhaseOutput CompilationCandidate)}
    (hcall : .index input context answer ∈ calls) :
    ∃ input context resolved, .resolve input context (.ok resolved) ∈ calls ∧ resolved.value.frozen = true := by
  obtain ⟨before, hbefore, earlier, context, hvalidate, _⟩ := h.of_mem hcall
  exact resolution_of_validate h hmode (hbefore.subset hvalidate)

theorem resolution_before {calls before after : List (Call P H R N V)}
    {made : Call P H R N V} (h : Justified (justifies request) calls) (hmode : request.mode = .consumer)
    (hcalls : calls = before ++ made :: after) (hlate : CompilerPhase.resolve.position < made.phase.position) :
    ∃ input context resolved, .resolve input context (.ok resolved) ∈ before ∧ resolved.value.frozen = true := by
  have hbefore : Justified (justifies request) before := h.of_prefix ⟨made :: after, hcalls.symm⟩
  have hmade := h before made after hcalls
  cases made with
  | acquire | parse | handshake | resolve =>
      simp only [Call.phase] at hlate
      exact absurd hlate (by decide)
  | normalize input context answer =>
      obtain ⟨earlier, context, hresolve, _, hfrozen⟩ := hmade
      exact ⟨earlier, context, input, hresolve, hfrozen hmode⟩
  | validate input context answer =>
      obtain ⟨earlier, context, hnormalize, _⟩ := hmade
      exact resolution_of_normalize hbefore hmode hnormalize
  | index input context answer =>
      obtain ⟨earlier, context, hvalidate, _⟩ := hmade
      exact resolution_of_validate hbefore hmode hvalidate
  | materialize plan answer =>
      obtain ⟨earlier, context, indexed, hindex, _⟩ := hmade
      exact resolution_of_index hbefore hmode hindex
  | publish publication answer =>
      obtain ⟨⟨earlier, context, indexed, hindex, _⟩, _⟩ := hmade
      exact resolution_of_index hbefore hmode hindex

theorem publish_once
    (h : Justified (justifies request) calls) : (calls.filter fun call => call.phase == .publish).length ≤ 1 := by
  refine h.at_most_once fun before made hmade hpublish other hother => ?_
  cases made with
  | publish publication answer => exact beq_false_of_ne (hmade.2.2 other hother)
  | acquire | parse | handshake | resolve | normalize | validate | index | materialize =>
      exact absurd hpublish (by simp [Call.phase])

/-- A run that ended at a phase is sound, whatever was called up to there. -/
theorem sound_of_ended {run : CompilerRun}
    {phase : CompilerPhase} (hended : Ended phase run.reports) (hjustified : Justified (justifies request) calls)
    (hcalls : ∀ call ∈ calls, call.phase.position ≤ phase.position) (hfrozen : calls ≠ [] → FrozenSources request)
    (hmaterialized : ∀ plan answer, .materialize plan answer ∈ calls →
      ∃ candidate, run.candidate = some candidate ∧ plan ∈ candidate.objects)
    (hpublished : ∀ receipt, run.publication = some receipt ↔
      ∃ publication, .publish publication (.ok receipt) ∈ calls ∧ receipt.snapshotDigest = publication.snapshotDigest) :
    Sound request run calls where
  phases := hended.phases
  staged := hended.staged
  chained := hended.chained
  justified := hjustified
  reached := fun call hcall report hreport hearlier =>
    hended.succeeded report hreport (lt_of_lt_of_le hearlier (hcalls call hcall))
  materialized := hmaterialized
  once := publish_once hjustified
  published := hpublished
  frozenSources := fun hmode _ hcall => hfrozen (List.ne_nil_of_mem hcall) hmode
  frozenResolution := fun hmode _ _ _ hsplit hlate => resolution_before hjustified hmode hsplit hlate

/-- The result of a run, and that it is sound. -/
def Finished (request : CompilerRequest) (result : Raising CompilerRun) (calls : List (Call P H R N V)) : Prop :=
  ∃ run, result = .ok run ∧ Sound request run calls

theorem finished_failed {phase : CompilerPhase}
    {reports : List PhaseReport} {candidate : Option CompilationCandidate} (diagnostics : List Diagnostic)
    (inputDigest : ObjectDigest) (h : Progress phase reports) (hjustified : Justified (justifies request) calls)
    (hcalls : ∀ call ∈ calls, call.phase.position ≤ phase.position) (hfrozen : calls ≠ [] → FrozenSources request)
    (hmaterialized : ∀ plan answer, .materialize plan answer ∈ calls →
      ∃ found, candidate = some found ∧ plan ∈ found.objects)
    (hpublished : ∀ receipt publication, .publish publication (.ok receipt) ∈ calls →
      receipt.snapshotDigest ≠ publication.snapshotDigest) :
    Finished request (failedRun reports phase diagnostics inputDigest candidate) calls := by
  have hended : Ended phase (reports ++
      ⟨phase, .failed, some inputDigest, none, sortDiagnostics diagnostics⟩ :: skippedReports phase) := h.failed rfl rfl
  refine ⟨_, compilerRun_of_ended hended (by simp), ?_⟩
  refine sound_of_ended hended hjustified hcalls hfrozen hmaterialized fun receipt => ?_
  refine iff_of_false (by simp) ?_
  rintro ⟨publication, hcall, hmatches⟩
  exact hpublished receipt publication hcall hmatches

/-! ## Acquisition -/

omit [StandardLibrary] in
theorem failure_ne_nil (failure : Failure) (diagnostics : List Diagnostic) :
    diagnostics ++ failure.diagnostics ≠ [] := by
  simp [failure.nonempty]

omit [StandardLibrary] in
/-- A source without a diagnostic was acquired as requested. -/
theorem acceptSource_cases (mode : CompilerMode) (source : SourceRequest)
    (state : List Diagnostic × List AcquiredSource) (answer : Outcome AcquiredSource) :
    (acceptSource mode source state answer).1 ≠ [] ∨
      ∃ item, answer = .ok item ∧ Acquires mode source item ∧
        acceptSource mode source state answer = (state.1, state.2 ++ [item]) := by
  unfold acceptSource
  cases answer with
  | error failure => exact Or.inl (failure_ne_nil failure state.1)
  | ok item =>
      dsimp only
      split
      · exact Or.inl (by simp)
      · rename_i halias
        split
        · exact Or.inl (by simp)
        · rename_i hlocked
          refine Or.inr ⟨item, rfl, ⟨not_not.mp halias, fun hmode => ?_⟩, rfl⟩
          by_contra hnot
          refine hlocked ⟨hmode, ?_⟩
          by_contra hboth
          rw [not_or, not_not, not_not] at hboth
          exact hnot ⟨hboth.1.symm, hboth.2.symm⟩

/-- While sources are acquired. -/
structure Acquiring (request : CompilerRequest) (earlier : List SourceRequest)
    (state : List Diagnostic × List AcquiredSource) (calls : List (Call P H R N V)) : Prop where
  justified : Justified (justifies request) calls
  only : ∀ call ∈ calls, call.phase = .acquire
  acquired : state.1 = [] → AcquiredFrom request.mode earlier calls state.2

theorem AcquiredFrom.snoc {mode : CompilerMode} {sources : List SourceRequest}
    {items : List AcquiredSource} (h : AcquiredFrom mode sources calls items) {source : SourceRequest}
    {item : AcquiredSource} (hitem : Acquires mode source item) :
    AcquiredFrom mode (sources ++ [source]) (calls ++ [.acquire source (.ok item)]) (items ++ [item]) where
  requested := by
    intro other hother
    rcases List.mem_append.mp hother with hother | hother
    · obtain ⟨found, hfound, hcall, hacquires⟩ := h.requested other hother
      exact ⟨found, List.mem_append_left _ hfound, List.mem_append_left _ hcall, hacquires⟩
    · rw [List.mem_singleton.mp hother]
      exact ⟨source, by simp, by simp, hitem⟩
  complete := by
    intro other hother
    rcases List.mem_append.mp hother with hother | hother
    · obtain ⟨found, hfound, hcall, hacquires⟩ := h.complete other hother
      exact ⟨found, List.mem_append_left _ hfound, List.mem_append_left _ hcall, hacquires⟩
    · rw [List.mem_singleton.mp hother]
      exact ⟨item, by simp, by simp, hitem⟩

theorem acquireSource_keeps {ports : CompilerPorts ω} {earlier : List SourceRequest}
    {source : SourceRequest} {state : List Diagnostic × List AcquiredSource}
    (hsource : source ∈ request.sources) (hfrozen : FrozenSources request)
    (h : Acquiring request earlier state calls) :
    Ensures (acquireSource request ports state source) calls (Acquiring request (earlier ++ [source])) := by
  unfold acquireSource
  refine ensures_bind (ensures_call fun answer => ensures_pure ⟨h.justified.snoc ⟨hsource, hfrozen⟩, ?_, ?_⟩)
  · intro made hmade
    rcases List.mem_append.mp hmade with hmade | hmade
    · exact h.only made hmade
    · rw [List.mem_singleton.mp hmade]
      rfl
  · intro hnone
    rcases acceptSource_cases request.mode source state answer with hsome | ⟨item, rfl, hitem, hstate⟩
    · exact absurd hnone hsome
    · rw [hstate] at hnone ⊢
      exact (h.acquired hnone).snoc hitem

omit [StandardLibrary] in
theorem frozen_of_unfrozenSources (h : unfrozenSources request = []) :
    FrozenSources request := by
  intro hmode source hsource
  unfold unfrozenSources at h
  rw [if_pos hmode, List.map_eq_nil_iff, List.filter_eq_nil_iff] at h
  have hfrozen := h source hsource
  simpa [not_or, Option.isSome_iff_ne_none] using hfrozen

/-- What the acquisition leaves behind. -/
def Acquired (request : CompilerRequest) (result : Except (List Diagnostic) AcquiredCompilation)
    (calls : List (Call P H R N V)) : Prop :=
  Justified (justifies request) calls ∧ (∀ call ∈ calls, call.phase = .acquire) ∧
    (calls ≠ [] → FrozenSources request) ∧
    ∀ acquired, result = .ok acquired → FrozenSources request ∧
      AcquiredFrom request.mode request.sources calls acquired.sources

theorem acquireSources_ensures (request : CompilerRequest) (ports : CompilerPorts ω) :
    Ensures (acquireSources request ports) ([] : List (Call P H R N V)) (Acquired request) := by
  unfold acquireSources
  split
  · rename_i hnone
    have hfrozen := frozen_of_unfrozenSources hnone
    refine ensures_bind ?_
    have hloop : Ensures (request.sources.foldlM (acquireSource request ports) ([], [])) ([] : List (Call P H R N V))
        (Acquiring request request.sources) := by
      refine ensures_foldlM ⟨.nil, by simp, fun _ => ⟨by simp, by simp⟩⟩ ?_
      intro earlier source later hsources state calls hstate
      exact acquireSource_keeps (by simp [hsources]) hfrozen hstate
    refine hloop.mono fun state calls hstate => ensures_pure ⟨hstate.justified, hstate.only, fun _ => hfrozen, ?_⟩
    intro acquired hacquired
    refine ⟨hfrozen, ?_⟩
    split at hacquired
    · rename_i hdiagnostics
      obtain rfl := Except.ok.inj hacquired
      have hitems := hstate.acquired hdiagnostics
      constructor
      · intro item hitem
        exact hitems.requested item ((List.perm_insertionSort _ _).mem_iff.mp hitem)
      · intro source hsource
        obtain ⟨item, hitem, hfound⟩ := hitems.complete source hsource
        exact ⟨item, (List.perm_insertionSort _ _).mem_iff.mpr hitem, hfound⟩
    · cases hacquired
  · exact ensures_pure ⟨.nil, by simp, by simp, by simp⟩

end Runs

end AgentArtifacts.Compiler
