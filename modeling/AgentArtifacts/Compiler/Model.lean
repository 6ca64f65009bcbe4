import AgentArtifacts.Compiler.Diagnostics
import AgentArtifacts.Sources.Model

/-!
# Values of the compiler

The requests, outputs, receipts and reports that the phases of a compilation pass on. The
digests that the compiler itself calculates pass the checks of their constructors, which
are left out.
-/

namespace AgentArtifacts.Compiler

/-! ## Failures -/

/-- `Err`, which requires a diagnostic. -/
structure Failure where
  diagnostics : List Diagnostic
  nonempty : diagnostics ≠ []
deriving DecidableEq

abbrev Outcome (α : Type) := Except Failure α

/-! ## Phases -/

inductive CompilerMode where
  | consumer
  | maintainer
deriving DecidableEq

inductive CompilerPhase where
  | acquire
  | parse
  | handshake
  | resolve
  | normalize
  | validate
  | index
  | materialize
  | publish
deriving DecidableEq

/-- The phases in their order. -/
def CompilerPhase.all : List CompilerPhase :=
  [.acquire, .parse, .handshake, .resolve, .normalize, .validate, .index, .materialize, .publish]

def CompilerPhase.position (phase : CompilerPhase) : Nat := CompilerPhase.all.idxOf phase

inductive PhaseStatus where
  | succeeded
  | failed
  | skipped
deriving DecidableEq

structure PhaseOutput (α : Type) where
  value : α
  digest : ObjectDigest
  diagnostics : List Diagnostic := []

structure PhaseReport where
  phase : CompilerPhase
  status : PhaseStatus
  inputDigest : Option ObjectDigest := none
  outputDigest : Option ObjectDigest := none
  diagnostics : List Diagnostic := []
deriving DecidableEq

/-! ## Sources -/

structure SourceRequest where
  sourceAlias : SourceAlias
  locator : String
  lockedRevision : Option String := none
  expectedSnapshotDigest : Option ObjectDigest := none
deriving DecidableEq

/-- The constructor sorts the sources and refuses an alias that occurs twice. -/
structure CompilerRequest where
  buildKey : String
  mode : CompilerMode
  sources : List SourceRequest
  optionsDigest : ObjectDigest
  ordered : (sources.map (·.sourceAlias.value)).Pairwise (· < ·)

structure AcquiredSource where
  sourceAlias : SourceAlias
  resolvedRevision : String
  snapshotDigest : ObjectDigest
  snapshot : SourceSnapshot
deriving DecidableEq

structure AcquiredCompilation where
  sources : List AcquiredSource
  inputDigest : ObjectDigest
deriving DecidableEq

structure CompilerContext where
  buildKey : String
  mode : CompilerMode
  optionsDigest : ObjectDigest
  inputDigest : ObjectDigest
deriving DecidableEq

structure ResolvedCompilation (α : Type) where
  value : α
  frozen : Bool

section Candidates

variable [StandardLibrary]

def acquiredSourceJson (source : AcquiredSource) : Json :=
  .obj [("alias", .str source.sourceAlias.value), ("resolved_revision", .str source.resolvedRevision),
    ("snapshot_digest", .str source.snapshotDigest.str)]

def acquiredCompilation (sources : List AcquiredSource) (optionsDigest : ObjectDigest) : AcquiredCompilation :=
  let ordered := sources.insertionSort fun a b => a.sourceAlias.value ≤ b.sourceAlias.value
  ⟨ordered, jsonDigest (.obj
    [("options_digest", .str optionsDigest.str), ("sources", .arr (ordered.map acquiredSourceJson))])⟩

/-- The digest binds the bytes. -/
structure ObjectPlan where
  digest : ObjectDigest
  content : Bytes
  binds : sha256Bytes content = digest
deriving DecidableEq

structure ObjectReceipt where
  digest : ObjectDigest
deriving DecidableEq

/-- The constructor sorts the objects and refuses a digest that occurs twice. -/
structure CompilationCandidate where
  inputDigest : ObjectDigest
  indexBytes : Bytes
  indexDigest : ObjectDigest
  objects : List ObjectPlan
  binds : sha256Bytes indexBytes = indexDigest
  ordered : (objects.map (·.digest.str)).Pairwise (· < ·)
deriving DecidableEq

def materializationDigest (receipts : List ObjectReceipt) : ObjectDigest :=
  jsonDigest (.arr ((receipts.insertionSort fun a b => a.digest.str ≤ b.digest.str).map fun receipt =>
    .str receipt.digest.str))

/-- `_snapshot_digest`. -/
def snapshotDigestOf (buildKey : String) (inputDigest indexDigest : ObjectDigest) (objectDigests : List ObjectDigest) :
    ObjectDigest :=
  jsonDigest (.obj
    [("build_key", .str buildKey), ("input_digest", .str inputDigest.str), ("index_digest", .str indexDigest.str),
      ("object_digests", .arr (objectDigests.map fun digest => .str digest.str))])

/-- The index digest binds the index, and the snapshot digest the whole publication. -/
structure PublishRequest where
  buildKey : String
  inputDigest : ObjectDigest
  indexBytes : Bytes
  indexDigest : ObjectDigest
  objectDigests : List ObjectDigest
  snapshotDigest : ObjectDigest
  indexBinds : sha256Bytes indexBytes = indexDigest
  ordered : (objectDigests.map (·.str)).Pairwise (· < ·)
  binds : snapshotDigestOf buildKey inputDigest indexDigest objectDigests = snapshotDigest

structure PublishReceipt where
  snapshotDigest : ObjectDigest
deriving DecidableEq

def publicationRequest (candidate : CompilationCandidate) (buildKey : String) : PublishRequest where
  buildKey
  inputDigest := candidate.inputDigest
  indexBytes := candidate.indexBytes
  indexDigest := candidate.indexDigest
  objectDigests := candidate.objects.map (·.digest)
  snapshotDigest := snapshotDigestOf buildKey candidate.inputDigest candidate.indexDigest (candidate.objects.map (·.digest))
  indexBinds := candidate.binds
  ordered := by
    rw [List.map_map]
    exact candidate.ordered
  binds := by
    with_reducible rfl

/-! ## Runs -/

structure CompilerRun where
  reports : List PhaseReport
  candidate : Option CompilationCandidate := none
  publication : Option PublishReceipt := none
deriving DecidableEq

/-- The constructor sorts the reports and requires one for every phase. -/
def compilerRun (reports : List PhaseReport) (candidate : Option CompilationCandidate)
    (publication : Option PublishReceipt) : Raising CompilerRun :=
  let ordered := reports.insertionSort fun a b => a.phase.position ≤ b.phase.position
  if ordered.map (·.phase) ≠ CompilerPhase.all then
    .error "compiler run must contain exactly one report for every phase"
  else if publication.isSome = true ∧ candidate = none then .error "publication requires a compilation candidate"
  else .ok ⟨ordered, candidate, publication⟩

def CompilerRun.diagnostics (run : CompilerRun) : List Diagnostic :=
  sortDiagnostics (run.reports.flatMap (·.diagnostics))

def CompilerRun.succeeded (run : CompilerRun) : Bool :=
  run.publication.isSome && !(run.diagnostics.any fun diagnostic => diagnostic.severity == .error)

end Candidates

end AgentArtifacts.Compiler
