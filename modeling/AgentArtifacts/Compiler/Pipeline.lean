import Mathlib.Data.List.Chain
import AgentArtifacts.Compiler.Model
import AgentArtifacts.Library.Ledger

/-!
# The phases of a compilation

The compiler runs steps and ports that it is given. Each of them may answer anything and
change the world outside; every call is recorded with its answer. A phase that does not
succeed ends the run, and the phases behind it are skipped. The reports grow phase by phase
as long as the phases succeed, and a run that ends at a phase has one report for every phase,
in their order.
-/

namespace AgentArtifacts.Compiler

open CallLedger

def compilerSourceNotFrozen : DiagnosticCode := ⟨"compiler-source-not-frozen"⟩

def compilerSourceMismatch : DiagnosticCode := ⟨"compiler-source-mismatch"⟩

def compilerUnfrozenResolution : DiagnosticCode := ⟨"compiler-unfrozen-resolution"⟩

def compilerPhaseOutputInvalid : DiagnosticCode := ⟨"compiler-phase-output-invalid"⟩

def compilerObjectReceiptMismatch : DiagnosticCode := ⟨"compiler-object-receipt-mismatch"⟩

def compilerPublishReceiptMismatch : DiagnosticCode := ⟨"compiler-publish-receipt-mismatch"⟩

/-- `_diagnostic`. -/
def diagnosticOf (code : DiagnosticCode) (message : String) (source : Option SourceRequest := none) : Diagnostic :=
  { code, severity := .error, message, location := source.map fun source => { source := some source.sourceAlias } }

section Pipeline

variable [StandardLibrary] {ω P H R N V α : Type}

structure CompilerSteps (ω P H R N V : Type) where
  parse : AcquiredCompilation → CompilerContext → StateM ω (Outcome (PhaseOutput P))
  handshake : PhaseOutput P → CompilerContext → StateM ω (Outcome (PhaseOutput H))
  resolve : PhaseOutput H → CompilerContext → StateM ω (Outcome (PhaseOutput (ResolvedCompilation R)))
  normalize : PhaseOutput (ResolvedCompilation R) → CompilerContext → StateM ω (Outcome (PhaseOutput N))
  validate : PhaseOutput N → CompilerContext → StateM ω (Outcome (PhaseOutput V))
  index : PhaseOutput V → CompilerContext → StateM ω (Outcome (PhaseOutput CompilationCandidate))

structure CompilerPorts (ω : Type) where
  acquire : SourceRequest → StateM ω (Outcome AcquiredSource)
  materialize : ObjectPlan → StateM ω (Outcome ObjectReceipt)
  publish : PublishRequest → StateM ω (Outcome PublishReceipt)

/-- A call that was made, and its answer. -/
inductive Call (P H R N V : Type) where
  | acquire (source : SourceRequest) (answer : Outcome AcquiredSource)
  | parse (input : AcquiredCompilation) (context : CompilerContext) (answer : Outcome (PhaseOutput P))
  | handshake (input : PhaseOutput P) (context : CompilerContext) (answer : Outcome (PhaseOutput H))
  | resolve (input : PhaseOutput H) (context : CompilerContext)
      (answer : Outcome (PhaseOutput (ResolvedCompilation R)))
  | normalize (input : PhaseOutput (ResolvedCompilation R)) (context : CompilerContext)
      (answer : Outcome (PhaseOutput N))
  | validate (input : PhaseOutput N) (context : CompilerContext) (answer : Outcome (PhaseOutput V))
  | index (input : PhaseOutput V) (context : CompilerContext) (answer : Outcome (PhaseOutput CompilationCandidate))
  | materialize (plan : ObjectPlan) (answer : Outcome ObjectReceipt)
  | publish (request : PublishRequest) (answer : Outcome PublishReceipt)

abbrev Compilation (ω P H R N V α : Type) := Logged ω (Call P H R N V) α

/-- The phases behind one that failed. -/
def skippedReports (phase : CompilerPhase) : List PhaseReport :=
  (CompilerPhase.all.drop (phase.position + 1)).map fun remaining => { phase := remaining, status := .skipped }

/-- `_failed_run`. -/
def failedRun (reports : List PhaseReport) (phase : CompilerPhase) (diagnostics : List Diagnostic)
    (inputDigest : ObjectDigest) (candidate : Option CompilationCandidate := none) : Raising CompilerRun :=
  compilerRun
    (reports ++ ⟨phase, .failed, some inputDigest, none, sortDiagnostics diagnostics⟩ :: skippedReports phase)
    candidate none

/-- `_accepted_output`. -/
def acceptedOutput (result : Outcome (PhaseOutput α)) : Except (List Diagnostic) (PhaseOutput α) :=
  match result with
  | .error failure => .error failure.diagnostics
  | .ok output =>
      if output.diagnostics.any fun diagnostic => diagnostic.severity == .error then .error output.diagnostics
      else .ok output

/-- `_success_report`. -/
def successReport (phase : CompilerPhase) (inputDigest : ObjectDigest) (output : PhaseOutput α) : PhaseReport :=
  ⟨phase, .succeeded, some inputDigest, some output.digest, sortDiagnostics output.diagnostics⟩

/-! ## Acquisition -/

def unfrozenSources (request : CompilerRequest) : List Diagnostic :=
  if request.mode = .consumer then
    (request.sources.filter fun source => source.lockedRevision.isNone || source.expectedSnapshotDigest.isNone).map
      fun source => diagnosticOf compilerSourceNotFrozen
        ("consumer source " ++ source.sourceAlias.value ++ " requires locked revision and snapshot digest") (some source)
  else []

/-- What one source adds to the diagnostics and to the sources acquired. -/
def acceptSource (mode : CompilerMode) (source : SourceRequest) (state : List Diagnostic × List AcquiredSource)
    (answer : Outcome AcquiredSource) : List Diagnostic × List AcquiredSource :=
  match answer with
  | .error failure => (state.1 ++ failure.diagnostics, state.2)
  | .ok item =>
      if item.sourceAlias ≠ source.sourceAlias then
        (state.1 ++ [diagnosticOf compilerSourceMismatch ("acquisition returned alias " ++ item.sourceAlias.value ++
          " for requested " ++ source.sourceAlias.value) (some source)], state.2)
      else if mode = .consumer ∧ (some item.resolvedRevision ≠ source.lockedRevision ∨
          some item.snapshotDigest ≠ source.expectedSnapshotDigest) then
        (state.1 ++ [diagnosticOf compilerSourceMismatch ("acquisition did not match frozen source " ++
          source.sourceAlias.value) (some source)], state.2)
      else (state.1, state.2 ++ [item])

def acquireSource (request : CompilerRequest) (ports : CompilerPorts ω) (state : List Diagnostic × List AcquiredSource)
    (source : SourceRequest) : Compilation ω P H R N V (List Diagnostic × List AcquiredSource) := do
  let answer ← call (ports.acquire source) (.acquire source)
  return acceptSource request.mode source state answer

/-- `_acquire`. -/
def acquireSources (request : CompilerRequest) (ports : CompilerPorts ω) :
    Compilation ω P H R N V (Except (List Diagnostic) AcquiredCompilation) :=
  match unfrozenSources request with
  | [] => do
      let (diagnostics, acquired) ← request.sources.foldlM (acquireSource request ports) ([], [])
      return if diagnostics = [] then .ok (acquiredCompilation acquired request.optionsDigest)
        else .error (sortDiagnostics diagnostics)
  | diagnostics => return .error (sortDiagnostics diagnostics)

/-! ## Phases -/

/-- One phase between acquisition and materialization. What it accepts goes on to the phases behind it. -/
def runPhase (phase : CompilerPhase) (inputDigest : ObjectDigest)
    (step : Compilation ω P H R N V (Outcome (PhaseOutput α))) (check : PhaseOutput α → List Diagnostic)
    (reports : List PhaseReport) (next : List PhaseReport → PhaseOutput α → Compilation ω P H R N V (Raising CompilerRun)) :
    Compilation ω P H R N V (Raising CompilerRun) := do
  match acceptedOutput (← step) with
  | .error diagnostics => return failedRun reports phase diagnostics inputDigest
  | .ok output =>
      match check output with
      | [] => next (reports ++ [successReport phase inputDigest output]) output
      | diagnostics => return failedRun reports phase diagnostics inputDigest

def unfrozenResolution (request : CompilerRequest) (resolved : PhaseOutput (ResolvedCompilation R)) : List Diagnostic :=
  if request.mode = .consumer ∧ resolved.value.frozen = false then
    [diagnosticOf compilerUnfrozenResolution "consumer resolution must be frozen by committed revisions and digests"]
  else []

def unboundCandidate (acquired : AcquiredCompilation) (indexed : PhaseOutput CompilationCandidate) : List Diagnostic :=
  (if indexed.value.inputDigest ≠ acquired.inputDigest then
    [diagnosticOf compilerPhaseOutputInvalid "index candidate does not bind the complete compiler input digest"]
  else []) ++
  if indexed.digest ≠ indexed.value.indexDigest then
    [diagnosticOf compilerPhaseOutputInvalid "index phase digest does not match candidate index bytes"]
  else []

/-! ## Effects -/

def acceptReceipt (plan : ObjectPlan) (state : List Diagnostic × List ObjectReceipt) (answer : Outcome ObjectReceipt) :
    List Diagnostic × List ObjectReceipt :=
  match answer with
  | .error failure => (state.1 ++ failure.diagnostics, state.2)
  | .ok receipt =>
      if receipt.digest ≠ plan.digest then
        (state.1 ++ [diagnosticOf compilerObjectReceiptMismatch ("object receipt does not match planned digest " ++
          plan.digest.str)], state.2)
      else (state.1, state.2 ++ [receipt])

def materializeObject (ports : CompilerPorts ω) (state : List Diagnostic × List ObjectReceipt) (plan : ObjectPlan) :
    Compilation ω P H R N V (List Diagnostic × List ObjectReceipt) := do
  let answer ← call (ports.materialize plan) (.materialize plan)
  return acceptReceipt plan state answer

def publishCandidate (request : CompilerRequest) (ports : CompilerPorts ω) (candidate : CompilationCandidate)
    (reports : List PhaseReport) : Compilation ω P H R N V (Raising CompilerRun) := do
  let publishRequest := publicationRequest candidate request.buildKey
  match ← call (ports.publish publishRequest) (.publish publishRequest) with
  | .error failure =>
      return failedRun reports .publish failure.diagnostics publishRequest.snapshotDigest (some candidate)
  | .ok receipt =>
      if receipt.snapshotDigest ≠ publishRequest.snapshotDigest then
        return failedRun reports .publish [diagnosticOf compilerPublishReceiptMismatch
          "publish receipt does not match the complete snapshot digest"] publishRequest.snapshotDigest (some candidate)
      else
        return compilerRun (reports ++
          [⟨.publish, .succeeded, some publishRequest.snapshotDigest, some receipt.snapshotDigest, []⟩])
          (some candidate) (some receipt)

def materializeCandidate (request : CompilerRequest) (ports : CompilerPorts ω) (candidate : CompilationCandidate)
    (reports : List PhaseReport) : Compilation ω P H R N V (Raising CompilerRun) := do
  let (diagnostics, receipts) ← candidate.objects.foldlM (materializeObject ports) ([], [])
  if diagnostics ≠ [] then
    return failedRun reports .materialize diagnostics candidate.indexDigest (some candidate)
  else
    publishCandidate request ports candidate (reports ++
      [⟨.materialize, .succeeded, some candidate.indexDigest, some (materializationDigest receipts), []⟩])

def compileSources (request : CompilerRequest) (steps : CompilerSteps ω P H R N V) (ports : CompilerPorts ω) :
    Compilation ω P H R N V (Raising CompilerRun) := do
  match ← acquireSources request ports with
  | .error diagnostics => return failedRun [] .acquire diagnostics request.optionsDigest
  | .ok acquired =>
      let context : CompilerContext := ⟨request.buildKey, request.mode, request.optionsDigest, acquired.inputDigest⟩
      let reports := [⟨.acquire, .succeeded, some request.optionsDigest, some acquired.inputDigest, []⟩]
      runPhase .parse acquired.inputDigest (call (steps.parse acquired context) (.parse acquired context)) (fun _ => [])
        reports fun reports parsed =>
      runPhase .handshake parsed.digest (call (steps.handshake parsed context) (.handshake parsed context)) (fun _ => [])
        reports fun reports handshaken =>
      runPhase .resolve handshaken.digest (call (steps.resolve handshaken context) (.resolve handshaken context))
        (unfrozenResolution request) reports fun reports resolved =>
      runPhase .normalize resolved.digest (call (steps.normalize resolved context) (.normalize resolved context))
        (fun _ => []) reports fun reports normalized =>
      runPhase .validate normalized.digest (call (steps.validate normalized context) (.validate normalized context))
        (fun _ => []) reports fun reports validated =>
      runPhase .index validated.digest (call (steps.index validated context) (.index validated context))
        (unboundCandidate acquired) reports fun reports indexed =>
      materializeCandidate request ports indexed.value reports

end Pipeline

/-! ## The reports of a compilation -/

/-- The phases whose input is what the phase before put out. -/
def CompilerPhase.steps : List CompilerPhase := [.parse, .handshake, .resolve, .normalize, .validate, .index]

def Chained (reports : List PhaseReport) : Prop :=
  reports.IsChain fun earlier later => later.status = .succeeded → later.phase ∈ CompilerPhase.steps →
    later.inputDigest.isSome = true ∧ later.inputDigest = earlier.outputDigest

/-- Phases that succeeded, then one that failed, if any did, and behind it phases that were skipped. -/
def Staged (statuses : List PhaseStatus) : Prop :=
  ∃ done skipped, statuses = List.replicate done .succeeded ∨
    statuses = List.replicate done .succeeded ++ .failed :: List.replicate skipped .skipped

/-- The reports before a phase, when it is reached. -/
structure Progress (phase : CompilerPhase) (reports : List PhaseReport) : Prop where
  phases : reports.map (·.phase) = CompilerPhase.all.take phase.position
  succeeded : ∀ report ∈ reports, report.status = .succeeded
  chained : Chained reports

/-- What a run that ends at a phase reports. -/
structure Ended (phase : CompilerPhase) (reports : List PhaseReport) : Prop where
  phases : reports.map (·.phase) = CompilerPhase.all
  staged : Staged (reports.map (·.status))
  chained : Chained reports
  succeeded : ∀ report ∈ reports, report.phase.position < phase.position → report.status = .succeeded

/-- The phases around one of them. -/
theorem phases_around (phase : CompilerPhase) :
    CompilerPhase.all = CompilerPhase.all.take phase.position ++
      phase :: CompilerPhase.all.drop (phase.position + 1) := by
  cases phase <;> decide

theorem phases_through (phase : CompilerPhase) :
    CompilerPhase.all.take (phase.position + 1) = CompilerPhase.all.take phase.position ++ [phase] := by
  cases phase <;> decide

theorem skipped_phases (phase : CompilerPhase) :
    (skippedReports phase).map (·.phase) = CompilerPhase.all.drop (phase.position + 1) := by
  unfold skippedReports
  rw [List.map_map]
  exact List.map_id _

theorem skipped_statuses (phase : CompilerPhase) :
    (skippedReports phase).map (·.status) = List.replicate (skippedReports phase).length .skipped := by
  unfold skippedReports
  rw [List.map_map, List.length_map]
  exact List.map_const'

variable {report : PhaseReport}

theorem mem_skippedReports {phase : CompilerPhase} (h : report ∈ skippedReports phase) :
    report.status = .skipped ∧ phase.position < report.phase.position := by
  obtain ⟨later, hlater, rfl⟩ := List.mem_map.mp h
  refine ⟨rfl, ?_⟩
  revert hlater
  cases phase <;> cases later <;> decide

variable {reports : List PhaseReport}

theorem statuses_of_succeeded (h : ∀ report ∈ reports, report.status = .succeeded) :
    reports.map (·.status) = List.replicate reports.length .succeeded := by
  rw [List.eq_replicate_iff, List.length_map]
  refine ⟨rfl, fun status hstatus => ?_⟩
  obtain ⟨report, hreport, rfl⟩ := List.mem_map.mp hstatus
  exact h report hreport

theorem Progress.first : Progress .acquire [] where
  phases := rfl
  succeeded := by simp
  chained := .nil

/-- A phase that succeeded, with the output of the one before as its input where that counts. -/
theorem Progress.next {phase after : CompilerPhase} (h : Progress phase reports) (hphase : report.phase = phase)
    (hstatus : report.status = .succeeded)
    (hafter : after.position = phase.position + 1)
    (hinput : phase ∈ CompilerPhase.steps → report.inputDigest.isSome = true ∧
      ∀ last ∈ reports.getLast?, report.inputDigest = last.outputDigest) :
    Progress after (reports ++ [report]) where
  phases := by
    rw [List.map_append, h.phases, List.map_singleton, hphase, hafter]
    exact (phases_through phase).symm
  succeeded := by
    intro other hother
    rcases List.mem_append.mp hother with hother | hother
    · exact h.succeeded other hother
    · rw [List.mem_singleton.mp hother]
      exact hstatus
  chained := by
    refine List.isChain_append.mpr ⟨h.chained, .singleton report, ?_⟩
    intro last hlast other hother hsucceeded hstep
    obtain rfl : report = other := by simpa using hother
    rw [hphase] at hstep
    exact ⟨(hinput hstep).1, (hinput hstep).2 last hlast⟩

theorem Progress.failed {phase : CompilerPhase} (h : Progress phase reports) (hphase : report.phase = phase)
    (hstatus : report.status = .failed) :
    Ended phase (reports ++ report :: skippedReports phase) where
  phases := by
    rw [List.map_append, List.map_cons, h.phases, skipped_phases, hphase]
    exact (phases_around phase).symm
  staged := by
    refine ⟨reports.length, (skippedReports phase).length, Or.inr ?_⟩
    rw [List.map_append, List.map_cons, skipped_statuses, hstatus, statuses_of_succeeded h.succeeded]
  chained := by
    have hnone : ∀ other ∈ report :: skippedReports phase, other.status ≠ .succeeded := by
      refine List.forall_mem_cons.mpr ⟨by simp [hstatus], fun other hother => ?_⟩
      simp [(mem_skippedReports hother).1]
    refine List.isChain_append.mpr ⟨h.chained, ?_, ?_⟩
    · refine List.Pairwise.isChain (List.pairwise_of_forall_mem_list ?_)
      intro a _ b hb hsucceeded
      exact absurd hsucceeded (hnone b hb)
    · intro a _ b hb hsucceeded
      exact absurd hsucceeded (hnone b (List.mem_of_mem_head? hb))
  succeeded := by
    intro other hother hposition
    rcases List.mem_append.mp hother with hother | hother
    · exact h.succeeded other hother
    · exfalso
      rcases List.mem_cons.mp hother with rfl | hother
      · rw [hphase] at hposition
        exact lt_irrefl _ hposition
      · exact lt_asymm hposition (mem_skippedReports hother).2

/-- The last phase succeeded as well. -/
theorem Progress.complete (h : Progress .publish reports)
    (hphase : report.phase = .publish) (hstatus : report.status = .succeeded) : Ended .publish (reports ++ [report]) := by
  have hall : ∀ other ∈ reports ++ [report], other.status = .succeeded := by
    intro other hother
    rcases List.mem_append.mp hother with hother | hother
    · exact h.succeeded other hother
    · rw [List.mem_singleton.mp hother]
      exact hstatus
  constructor
  · rw [List.map_append, h.phases, List.map_singleton, hphase]
    decide
  · exact ⟨(reports ++ [report]).length, 0, Or.inl (statuses_of_succeeded hall)⟩
  · refine List.isChain_append.mpr ⟨h.chained, .singleton report, ?_⟩
    intro last _ other hother _ hstep
    obtain rfl : report = other := by simpa using hother
    rw [hphase] at hstep
    exact absurd hstep (by decide)
  · intro other hother _
    exact hall other hother

section Constructor

variable [StandardLibrary]

/-- The constructor of a run accepts what a run ends with. -/
theorem compilerRun_of_ended {phase : CompilerPhase} {reports : List PhaseReport}
    {candidate : Option CompilationCandidate} {publication : Option PublishReceipt} (h : Ended phase reports)
    (hcandidate : publication.isSome = true → candidate ≠ none) :
    compilerRun reports candidate publication = .ok ⟨reports, candidate, publication⟩ := by
  have hsorted : reports.insertionSort (fun a b => a.phase.position ≤ b.phase.position) = reports := by
    refine List.Pairwise.insertionSort_eq ?_
    have hpositions : (CompilerPhase.all.map (·.position)).Pairwise (· ≤ ·) := by decide
    rw [← h.phases, List.map_map, List.pairwise_map] at hpositions
    exact hpositions
  unfold compilerRun
  dsimp only
  rw [hsorted, if_neg (not_not.mpr h.phases), if_neg fun hboth => hcandidate hboth.1 hboth.2]

end Constructor

end AgentArtifacts.Compiler
