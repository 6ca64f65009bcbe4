import AgentArtifacts.Redaction
import AgentArtifacts.Sources.Model

/-!
# Source synchronization and adoption

Four operations share the current pointer of one source instance. A
synchronization refuses a changed identity, an adoption applies the transition
that was reviewed and no other, a check of freshness reads, and a discard
removes. Every move of the pointer in a history of calls is one of these.
-/

namespace AgentArtifacts

namespace Subscription

variable [StandardLibrary]

/-! ## The current pointer -/

/-- What the pointer and the snapshot it names hold. The alias is not in it: a
read takes the one of its request. -/
structure PublishedSource where
  validated : ValidatedSourceCandidate
  publishedAtEpochSeconds : Nat
deriving DecidableEq

abbrev Pointer := Option PublishedSource

def PublishedSource.current (published : PublishedSource) (request : CurrentSourceRequest) : CurrentSource where
  candidate := { published.validated.candidate with sourceAlias := request.sourceAlias }
  declaredSourceId := published.validated.declaredSourceId
  publishedAtEpochSeconds := published.publishedAtEpochSeconds
  snapshotRoot :=
    joinPath (joinPath request.paths.snapshots published.validated.candidate.snapshotDigest.value) "source"

/-! ## Requests and ports -/

/-- The fields that synchronization, adoption and the freshness check share. -/
structure SourceRequest where
  source : ConfiguredSource
  dataRoot : String
  executableVersion : SemVer
  availableCapabilities : List Registry.Capability
  observedAtEpochSeconds : Nat
  timeoutSeconds : Nat := 60
  limits : SnapshotLimits := {}
  lockTimeoutSeconds : Rat := 30
  lockStaleAfterSeconds : Int := 300
  rooted : isRooted dataRoot = true
  timely : 0 < timeoutSeconds

structure SourceSyncRequest extends SourceRequest where
  fallback : SyncFallback
  offline : Bool

/-- Without an expected transition the adoption reviews and publishes nothing. -/
structure SourceAdoptionRequest extends SourceRequest where
  expected : Option SourceIdentityTransition := none

structure SourceFreshnessRequest extends SourceRequest

structure SourceDiscardRequest where
  source : ConfiguredSource
  dataRoot : String
  lockTimeoutSeconds : Rat := 30
  lockStaleAfterSeconds : Int := 300
  rooted : isRooted dataRoot = true

/-- The answers of one call. Reading and publishing are faithful where they do not fail. -/
structure SourceSyncPorts where
  acquireLock : SourceLockRequest → Result SourceLockLease
  releaseLock : SourceLockLease → Result Unit
  readFailure : CurrentSourceRequest → Option (List Diagnostic) := fun _ => none
  acquireLocal : LocalSnapshotRequest → Result SourceCandidate
  acquireGit : GitSnapshotRequest → Result SourceCandidate
  validate : SourceValidationRequest → Result ValidatedSourceCandidate
  publishFailure : SourcePublishCommand → Option (List Diagnostic) := fun _ => none

/-- A discard that fails may have removed the pointer, which goes first of all. -/
inductive DiscardAnswer where
  | discarded (others : Bool)
  | failed (removed : Bool) (diagnostics : List Diagnostic)

structure SourceDiscardPorts where
  acquireLock : SourceLockRequest → Result SourceLockLease
  releaseLock : SourceLockLease → Result Unit
  readFailure : CurrentSourceRequest → Option (List Diagnostic) := fun _ => none
  discard : SourceStorePaths → DiscardAnswer

def readCurrent (failure : CurrentSourceRequest → Option (List Diagnostic)) (request : CurrentSourceRequest)
    (pointer : Pointer) : Result (Option CurrentSource) :=
  match failure request with
  | some diagnostics => .error diagnostics
  | none => .ok (pointer.map fun published => published.current request)

/-- The receipt holds the snapshot as it is read back under the alias of the candidate. -/
def publish (failure : SourcePublishCommand → Option (List Diagnostic)) (command : SourcePublishCommand)
    (pointer : Pointer) : Result SourcePublishReceipt × Pointer :=
  match failure command with
  | some diagnostics => (.error diagnostics, pointer)
  | none =>
      let published : PublishedSource := ⟨command.validated, command.observedAtEpochSeconds⟩
      (.ok ⟨published.current ⟨command.paths, command.validated.candidate.sourceAlias⟩⟩, some published)

def discard (answer : DiscardAnswer) (pointer : Pointer) : Result Bool × Pointer :=
  match answer with
  | .discarded others => (.ok (pointer.isSome || others), none)
  | .failed removed diagnostics => (.error diagnostics, if removed then none else pointer)

/-! ## Shared steps -/

def storePaths (source : ConfiguredSource) (dataRoot : String) : Raising SourceStorePaths := do
  let instanceId ← sourceInstanceId source
  sourceStorePaths dataRoot instanceId

def SourceRequest.paths (request : SourceRequest) : Raising SourceStorePaths :=
  storePaths request.source request.dataRoot

def SourceDiscardRequest.paths (request : SourceDiscardRequest) : Raising SourceStorePaths :=
  storePaths request.source request.dataRoot

/-- The paths of an instance and the request for its lease. -/
def leaseRequest (paths : Raising SourceStorePaths) (timeoutSeconds : Rat) (staleAfterSeconds : Int) :
    Raising (SourceStorePaths × SourceLockRequest) := do
  let paths ← paths
  let lock ← sourceLockRequest ⟨paths.lockDirectory, timeoutSeconds, staleAfterSeconds⟩
  return (paths, lock)

def candidate (request : SourceRequest) (paths : SourceStorePaths) (ports : SourceSyncPorts) :
    Raising (Result SourceCandidate) := do
  let instanceId ← sourceInstanceId request.source
  match request.source.kind with
  | .sourceLocal =>
      let wanted ← localSnapshotRequest ⟨instanceId, request.source.sourceAlias, request.source.location, request.limits⟩
      return ports.acquireLocal wanted
  | _ =>
      match request.source.ref with
      | none => .error ""
      | some ref =>
          let wanted ← gitSnapshotRequest
            { instanceId := instanceId, sourceAlias := request.source.sourceAlias,
              location := request.source.location, ref := ref, mirrorPath := paths.mirror,
              temporaryRoot := paths.temporaryRoot, limits := request.limits,
              timeoutSeconds := request.timeoutSeconds }
          return ports.acquireGit wanted

def SourceRequest.validation (request : SourceRequest) (acquired : SourceCandidate) : SourceValidationRequest :=
  ⟨acquired, request.executableVersion, request.availableCapabilities⟩

/-- The published source is not the one that was validated. -/
def receiptDiffers (current : CurrentSource) (validated : ValidatedSourceCandidate) : Bool :=
  current.candidate.snapshotDigest != validated.candidate.snapshotDigest ||
    current.candidate.resolvedRevision != validated.candidate.resolvedRevision ||
    current.declaredSourceId != validated.declaredSourceId

/-- The end of a call that holds the lease. -/
def released {α : Type} (outcome : Result α) (release : Result Unit) : Result α :=
  match release with
  | .ok () => outcome
  | .error diagnostics =>
      match outcome with
      | .error own => .error (own ++ diagnostics)
      | .ok _ => .error diagnostics

variable [Redaction]

/-- The diagnostics of an error that the services here make themselves. -/
def failure (code : DiagnosticCode) (message : String) : List Diagnostic :=
  [⟨code, Redaction.redactText message⟩]

def differentCandidate : List Diagnostic :=
  failure sourceInvalid "source validator returned a candidate different from its request"

def mismatchedReceipt : List Diagnostic :=
  failure sourceInvalid "source publication receipt does not match the validated candidate"

/-! ## Synchronization -/

/-- An error, or the last known good snapshot where the request allows it. -/
def retained (diagnostics : List Diagnostic) (current : Option CurrentSource) (fallback : SyncFallback) :
    Result SourceSyncOutcome :=
  match current with
  | none => .error diagnostics
  | some current =>
      if fallback ≠ .allowLastKnownGood then .error diagnostics
      else .ok ⟨.retained, current, diagnostics.map fun diagnostic =>
        { diagnostic with message := Redaction.redactText diagnostic.message }⟩

def identityChanged (current : Option CurrentSource) (validated : ValidatedSourceCandidate) : Bool :=
  match current with
  | none => false
  | some current => current.declaredSourceId != validated.declaredSourceId

def syncDisposition (current : Option CurrentSource) (validated : ValidatedSourceCandidate) : SyncDisposition :=
  match current with
  | none => .published
  | some current => if receiptDiffers current validated then .published else .unchanged

def syncLocked (request : SourceSyncRequest) (ports : SourceSyncPorts) (paths : SourceStorePaths)
    (pointer : Pointer) : Raising (Result SourceSyncOutcome) × Pointer :=
  match readCurrent ports.readFailure ⟨paths, request.source.sourceAlias⟩ pointer with
  | .error diagnostics => (.ok (.error diagnostics), pointer)
  | .ok current =>
      if request.offline then
        (.ok (retained (failure sourceUnavailable "source synchronization is disabled in offline mode")
          current request.fallback), pointer)
      else
        match candidate request.toSourceRequest paths ports with
        | .error text => (.error text, pointer)
        | .ok (.error diagnostics) => (.ok (retained diagnostics current request.fallback), pointer)
        | .ok (.ok acquired) =>
            match ports.validate (request.validation acquired) with
            | .error diagnostics => (.ok (retained diagnostics current request.fallback), pointer)
            | .ok validated =>
                if validated.candidate ≠ acquired then
                  (.ok (retained differentCandidate current request.fallback), pointer)
                else if identityChanged current validated then
                  (.ok (retained (failure sourceInvalid "resolved source changed its declared source identity")
                    current request.fallback), pointer)
                else
                  match publish ports.publishFailure ⟨paths, validated, request.observedAtEpochSeconds⟩ pointer with
                  | (.error diagnostics, pointer) =>
                      (.ok (retained diagnostics current request.fallback), pointer)
                  | (.ok receipt, pointer) =>
                      if receiptDiffers receipt.current validated then (.ok (.error mismatchedReceipt), pointer)
                      else (.ok (.ok ⟨syncDisposition current validated, receipt.current, []⟩), pointer)

def syncSource (request : SourceSyncRequest) (ports : SourceSyncPorts) (pointer : Pointer) :
    Raising (Result SourceSyncOutcome) × Pointer :=
  if request.source.enabled = false then
    (.ok (.error (failure sourceInvalid "disabled source cannot be synchronized")), pointer)
  else
    match leaseRequest request.paths request.lockTimeoutSeconds request.lockStaleAfterSeconds with
    | .error text => (.error text, pointer)
    | .ok (paths, lock) =>
        match ports.acquireLock lock with
        | .error diagnostics => (.ok (.error diagnostics), pointer)
        | .ok lease =>
            match syncLocked request ports paths pointer with
            | (.error text, pointer) => (.error text, pointer)
            | (.ok outcome, pointer) => (.ok (released outcome (ports.releaseLock lease)), pointer)

/-! ## Discard -/

structure SourceDiscardOutcome where
  existed : Bool
  discarded : Option CurrentSource

def discardSource (request : SourceDiscardRequest) (ports : SourceDiscardPorts) (pointer : Pointer) :
    Raising (Result SourceDiscardOutcome) × Pointer :=
  match leaseRequest request.paths request.lockTimeoutSeconds request.lockStaleAfterSeconds with
  | .error text => (.error text, pointer)
  | .ok (paths, lock) =>
      match ports.acquireLock lock with
      | .error diagnostics => (.ok (.error diagnostics), pointer)
      | .ok lease =>
          let current := readCurrent ports.readFailure ⟨paths, request.source.sourceAlias⟩ pointer
          let (existed, pointer) := discard (ports.discard paths) pointer
          let outcome := existed.map fun existed => ⟨existed, current.toOption.join⟩
          (.ok (released outcome (ports.releaseLock lease)), pointer)

/-! ## Adoption -/

structure SourceAdoptionOutcome where
  transition : SourceIdentityTransition
  finalized : Bool
  current : CurrentSource

/-- Superseded snapshots are pruned at the end; none of them is the current one. -/
def adoptLocked (request : SourceAdoptionRequest) (ports : SourceSyncPorts) (paths : SourceStorePaths)
    (pointer : Pointer) : Raising (Result SourceAdoptionOutcome) × Pointer :=
  match readCurrent ports.readFailure ⟨paths, request.source.sourceAlias⟩ pointer with
  | .error diagnostics => (.ok (.error diagnostics), pointer)
  | .ok none => (.ok (.error (failure sourceInvalid "no managed snapshot is subscribed at this origin")), pointer)
  | .ok (some current) =>
      match candidate request.toSourceRequest paths ports with
      | .error text => (.error text, pointer)
      | .ok (.error diagnostics) => (.ok (.error diagnostics), pointer)
      | .ok (.ok acquired) =>
          match ports.validate (request.validation acquired) with
          | .error diagnostics => (.ok (.error diagnostics), pointer)
          | .ok validated =>
              if validated.candidate ≠ acquired then (.ok (.error differentCandidate), pointer)
              else if current.declaredSourceId = validated.declaredSourceId then
                (.ok (.error (failure sourceInvalid
                  "source still declares the identity this alias is already subscribed to")), pointer)
              else
                match sourceIdentityTransition (transitionData current validated) with
                | .error text => (.ok (.error (failure sourceInvalid text)), pointer)
                | .ok observed =>
                    match request.expected with
                    | none => (.ok (.ok ⟨observed, false, current⟩), pointer)
                    | some expected =>
                        if expected ≠ observed then
                          (.ok (.error (failure sourceInvalid
                            "source no longer declares the identity that was reviewed")), pointer)
                        else
                          match publish ports.publishFailure
                            ⟨paths, validated, request.observedAtEpochSeconds⟩ pointer with
                          | (.error diagnostics, pointer) => (.ok (.error diagnostics), pointer)
                          | (.ok receipt, pointer) =>
                              if receiptDiffers receipt.current validated then (.ok (.error mismatchedReceipt), pointer)
                              else (.ok (.ok ⟨observed, true, receipt.current⟩), pointer)

def adoptSourceIdentity (request : SourceAdoptionRequest) (ports : SourceSyncPorts) (pointer : Pointer) :
    Raising (Result SourceAdoptionOutcome) × Pointer :=
  if request.source.enabled = false then
    (.ok (.error (failure sourceInvalid "disabled source cannot be resubscribed")), pointer)
  else
    match leaseRequest request.paths request.lockTimeoutSeconds request.lockStaleAfterSeconds with
    | .error text => (.error text, pointer)
    | .ok (paths, lock) =>
        match ports.acquireLock lock with
        | .error diagnostics => (.ok (.error diagnostics), pointer)
        | .ok lease =>
            match adoptLocked request ports paths pointer with
            | (.error text, pointer) => (.error text, pointer)
            | (.ok outcome, pointer) => (.ok (released outcome (ports.releaseLock lease)), pointer)

/-! ## Freshness -/

omit [Redaction] in
def freshnessAge (current : CurrentSource) (observedAtEpochSeconds : Nat) : Nat :=
  observedAtEpochSeconds - current.publishedAtEpochSeconds

structure SourceStatusRequest where
  current : CurrentSourceRequest
  nowEpochSeconds : Nat
  maxAgeSeconds : Nat

def sourceStatus (request : SourceStatusRequest) (readFailure : CurrentSourceRequest → Option (List Diagnostic))
    (pointer : Pointer) : SourceHealth :=
  match readCurrent readFailure request.current pointer with
  | .error diagnostics => assessSourceHealth none request.nowEpochSeconds request.maxAgeSeconds diagnostics
  | .ok current => assessSourceHealth current request.nowEpochSeconds request.maxAgeSeconds []

def checkFreshnessLocked (request : SourceFreshnessRequest) (ports : SourceSyncPorts) (paths : SourceStorePaths)
    (pointer : Pointer) : Raising SourceHealth :=
  match readCurrent ports.readFailure ⟨paths, request.source.sourceAlias⟩ pointer with
  | .error diagnostics => .ok ⟨.degraded, none, none, diagnostics⟩
  | .ok none => .ok ⟨.missing, none, none, []⟩
  | .ok (some current) =>
      let age := some (freshnessAge current request.observedAtEpochSeconds)
      match candidate request.toSourceRequest paths ports with
      | .error text => .error text
      | .ok (.error diagnostics) => .ok ⟨.checkUnavailable, age, some current, diagnostics⟩
      | .ok (.ok acquired) =>
          match ports.validate (request.validation acquired) with
          | .error diagnostics => .ok ⟨.degraded, age, some current, diagnostics⟩
          | .ok observed =>
              if observed.candidate ≠ acquired then .ok ⟨.degraded, age, some current, differentCandidate⟩
              else if receiptDiffers current observed then .ok ⟨.notSynchronized, age, some current, []⟩
              else .ok ⟨.healthy, age, some current, []⟩

/-- The ports of a check read: it is given no way to publish or to discard. -/
def checkSourceFreshness (request : SourceFreshnessRequest) (ports : SourceSyncPorts) (pointer : Pointer) :
    Raising SourceHealth := do
  let paths ← request.paths
  if request.source.enabled = false then
    return sourceStatus ⟨⟨paths, request.source.sourceAlias⟩, request.observedAtEpochSeconds, 0⟩
      ports.readFailure pointer
  else
    let (paths, lock) ← leaseRequest request.paths request.lockTimeoutSeconds request.lockStaleAfterSeconds
    match ports.acquireLock lock with
    | .error diagnostics =>
        let loaded := readCurrent ports.readFailure ⟨paths, request.source.sourceAlias⟩ pointer
        let current := loaded.toOption.join
        let earlier := match loaded with
          | .error own => own
          | .ok _ => []
        return ⟨.checkUnavailable, current.map fun current => freshnessAge current request.observedAtEpochSeconds,
          current, earlier ++ diagnostics⟩
    | .ok lease =>
        let health ← checkFreshnessLocked request ports paths pointer
        match ports.releaseLock lease with
        | .ok () => return health
        | .error diagnostics =>
            return { health with status := .checkUnavailable, diagnostics := health.diagnostics ++ diagnostics }

end Subscription

end AgentArtifacts
