import Mathlib.Data.Prod.Lex
import AgentArtifacts.InstallState.Model
import AgentArtifacts.Protocol.Hashing
import AgentArtifacts.Registry.Model
import AgentArtifacts.Sources.Model

/-!
# Evidence of an assessment

The immutable values of an installation-risk assessment. Each constructor normalizes its sequences
and refuses what breaks its bounds; a value that exists has passed it.
-/

namespace AgentArtifacts.Security

open Registry (sortedBy sortedSet)

inductive AssessmentStatus where
  | notScanned
  | complete
  | partly
  | failed
  | stale
deriving DecidableEq

def AssessmentStatus.value : AssessmentStatus → String
  | .notScanned => "not-scanned"
  | .complete => "complete"
  | .partly => "partial"
  | .failed => "failed"
  | .stale => "stale"

/-- The members in their order. -/
def assessmentStatuses : List AssessmentStatus := [.notScanned, .complete, .partly, .failed, .stale]

inductive FindingSeverity where
  | unknown
  | low
  | medium
  | high
  | critical
deriving DecidableEq

def FindingSeverity.value : FindingSeverity → String
  | .unknown => "unknown"
  | .low => "low"
  | .medium => "medium"
  | .high => "high"
  | .critical => "critical"

def FindingSeverity.rank : FindingSeverity → Nat
  | .unknown => 0
  | .low => 1
  | .medium => 2
  | .high => 3
  | .critical => 4

def findingSeverities : List FindingSeverity := [.unknown, .low, .medium, .high, .critical]

inductive InstallationRisk where
  | unknown
  | low
  | medium
  | high
  | critical
deriving DecidableEq

/-- The risk with the value of a severity. -/
def InstallationRisk.ofSeverity : FindingSeverity → InstallationRisk
  | .unknown => .unknown
  | .low => .low
  | .medium => .medium
  | .high => .high
  | .critical => .critical

/-- The most severe of the findings; the least rank stands for none. -/
def maxSeverity (severities : List FindingSeverity) : FindingSeverity :=
  severities.foldl (fun best severity => if best.rank < severity.rank then severity else best) .unknown

/-- A line of at most so many letters. -/
def oneLineWithin (maximum : Nat) (value : String) : Bool := oneLine value && decide (value.length ≤ maximum)

/-- Lower-case parts between dots and hyphens, the first beginning with a letter. -/
def isProviderId (value : String) : Bool :=
  match value.toList.splitOnP (fun c => c == '.' || c == '-') with
  | [] => false
  | first :: more =>
      first.head?.any isLowerLetter && first.all isLowerAlphanumeric &&
        more.all fun part => !part.isEmpty && part.all isLowerAlphanumeric

def isDigestValue (digest : ObjectDigest) : Bool :=
  digest.value.length == 64 && digest.value.toList.all isLowerHex

/-! ## Coverage -/

structure AssessmentCoverage where
  completed : Nat
  expected : Nat
  skipped : List String
  positive : 1 ≤ expected
  within : completed ≤ expected
  bounded : skipped.length ≤ 512
  lines : ∀ item ∈ skipped, oneLineWithin 512 item = true
deriving DecidableEq

def AssessmentCoverage.make (completed expected : Nat) (skipped : List String) : Raising AssessmentCoverage :=
  let normalized := sortedSet skipped
  if h : 1 ≤ expected ∧ completed ≤ expected ∧ normalized.length ≤ 512 ∧
      ∀ item ∈ normalized, oneLineWithin 512 item = true then
    .ok ⟨completed, expected, normalized, h.1, h.2.1, h.2.2.1, h.2.2.2⟩
  else .error "assessment coverage is invalid"

def AssessmentCoverage.complete (coverage : AssessmentCoverage) : Bool :=
  coverage.completed == coverage.expected && coverage.skipped.isEmpty

/-! ## Findings -/

def maxFindings : Nat := 256

/-- A finding; its fingerprint is the digest of the rule and the place. -/
structure SecurityFinding where
  providerId : String
  ruleId : String
  severity : FindingSeverity
  message : String
  remediation : String
  path : Option SafeRelativePath
  line : Option Nat
  provider_valid : isProviderId providerId = true
  rule_valid : isProviderId ruleId = true
  line_valid : ∀ number, line = some number → 1 ≤ number ∧ number ≤ 10000000 ∧ path ≠ none
  message_line : oneLineWithin 1024 message = true
  remediation_line : oneLineWithin 512 remediation = true
deriving DecidableEq

section Fingerprints

variable [StandardLibrary]

def findingFingerprint (providerId ruleId : String) (path : Option SafeRelativePath) (line : Option Nat) : ObjectDigest :=
  jsonDigest (.obj [
    ("line", match line with | none => .null | some number => .int (number : Nat)),
    ("path", match path with | none => .null | some path => .str path.str),
    ("provider_id", .str providerId),
    ("rule_id", .str ruleId)])

def SecurityFinding.fingerprint (finding : SecurityFinding) : ObjectDigest :=
  findingFingerprint finding.providerId finding.ruleId finding.path finding.line

/-- The place of a finding without a path is empty, that of one without a line comes first. -/
def SecurityFinding.sortKey (finding : SecurityFinding) : String ×ₗ String ×ₗ String ×ₗ Nat ×ₗ String :=
  toLex (finding.providerId, toLex (finding.ruleId, toLex ((finding.path.map SafeRelativePath.str).getD "",
    toLex ((finding.line.map (· + 1)).getD 0, finding.fingerprint.str))))

end Fingerprints

/-! ## Assessments -/

structure ProviderAssessment where
  id : String
  version : String
  rulesDigest : ObjectDigest
  status : AssessmentStatus
  coverage : AssessmentCoverage
  detail : String
  id_valid : isProviderId id = true
  version_line : oneLineWithin 64 version = true
  digest_valid : isDigestValue rulesDigest = true
  detail_line : oneLineWithin 512 detail = true
  complete_covers : status = .complete → coverage.complete = true
  notScanned_empty : status = .notScanned → coverage.completed = 0
  gap : status = .partly ∨ status = .failed → coverage.complete = false
deriving DecidableEq

def riskFromEvidence (status : AssessmentStatus) (maximum : FindingSeverity) : InstallationRisk :=
  if FindingSeverity.high.rank ≤ maximum.rank then .ofSeverity maximum
  else if status ≠ .complete then .unknown
  else if maximum = .unknown then .low
  else .ofSeverity maximum

variable [StandardLibrary]

/-- What the constructor of an assessment asks of its members. -/
structure AssessmentChecks (objectDigest : ObjectDigest) (status : AssessmentStatus) (installationRisk : InstallationRisk)
    (maxFindingSeverity : FindingSeverity) (coverage : AssessmentCoverage) (findings : List SecurityFinding)
    (providers : List ProviderAssessment) : Prop where
  digest : isDigestValue objectDigest = true
  providers_nonempty : providers ≠ []
  bounded : findings.length ≤ maxFindings
  fingerprints : (findings.map SecurityFinding.fingerprint).Nodup
  provider_ids : (providers.map ProviderAssessment.id).Nodup
  known : ∀ finding ∈ findings, finding.providerId ∈ providers.map ProviderAssessment.id
  maximum : maxFindingSeverity = maxSeverity (findings.map SecurityFinding.severity)
  risk : installationRisk = riskFromEvidence status maxFindingSeverity
  complete_covers : status = .complete → coverage.complete = true
  gap : status = .partly ∨ status = .failed → coverage.complete = false
  complete_providers : status = .complete → ∀ provider ∈ providers, provider.status = .complete
  notScanned : status = .notScanned → coverage.completed = 0 ∧ findings = [] ∧
    ∀ provider ∈ providers, provider.status = .notScanned
  stale : status = .stale → ∃ provider ∈ providers, provider.status = .stale
  failed : status = .failed → ∃ provider ∈ providers, provider.status = .failed
  single : providers.length = 1 → ∀ provider ∈ providers, provider.status = status ∧ provider.coverage = coverage

instance (objectDigest : ObjectDigest) (status : AssessmentStatus) (installationRisk : InstallationRisk)
    (maxFindingSeverity : FindingSeverity) (coverage : AssessmentCoverage) (findings : List SecurityFinding)
    (providers : List ProviderAssessment) : Decidable (AssessmentChecks objectDigest status installationRisk
      maxFindingSeverity coverage findings providers) :=
  decidable_of_iff
    (isDigestValue objectDigest = true ∧ providers ≠ [] ∧ findings.length ≤ maxFindings ∧
      (findings.map SecurityFinding.fingerprint).Nodup ∧ (providers.map ProviderAssessment.id).Nodup ∧
      (∀ finding ∈ findings, finding.providerId ∈ providers.map ProviderAssessment.id) ∧
      maxFindingSeverity = maxSeverity (findings.map SecurityFinding.severity) ∧
      installationRisk = riskFromEvidence status maxFindingSeverity ∧
      (status = .complete → coverage.complete = true) ∧
      (status = .partly ∨ status = .failed → coverage.complete = false) ∧
      (status = .complete → ∀ provider ∈ providers, provider.status = .complete) ∧
      (status = .notScanned → coverage.completed = 0 ∧ findings = [] ∧ ∀ provider ∈ providers, provider.status = .notScanned) ∧
      (status = .stale → ∃ provider ∈ providers, provider.status = .stale) ∧
      (status = .failed → ∃ provider ∈ providers, provider.status = .failed) ∧
      (providers.length = 1 → ∀ provider ∈ providers, provider.status = status ∧ provider.coverage = coverage))
    ⟨fun ⟨h1, h2, h3, h4, h5, h6, h7, h8, h9, h10, h11, h12, h13, h14, h15⟩ =>
        ⟨h1, h2, h3, h4, h5, h6, h7, h8, h9, h10, h11, h12, h13, h14, h15⟩,
      fun ⟨h1, h2, h3, h4, h5, h6, h7, h8, h9, h10, h11, h12, h13, h14, h15⟩ =>
        ⟨h1, h2, h3, h4, h5, h6, h7, h8, h9, h10, h11, h12, h13, h14, h15⟩⟩

structure SecurityAssessment where
  objectDigest : ObjectDigest
  status : AssessmentStatus
  installationRisk : InstallationRisk
  maxFindingSeverity : FindingSeverity
  coverage : AssessmentCoverage
  findings : List SecurityFinding
  providers : List ProviderAssessment
  checks : AssessmentChecks objectDigest status installationRisk maxFindingSeverity coverage findings providers
deriving DecidableEq

/-- The constructor; sorting comes before the checks. -/
def SecurityAssessment.make (objectDigest : ObjectDigest) (status : AssessmentStatus)
    (installationRisk : InstallationRisk) (maxFindingSeverity : FindingSeverity) (coverage : AssessmentCoverage)
    (findings : List SecurityFinding) (providers : List ProviderAssessment) : Raising SecurityAssessment :=
  let findings := sortedBy SecurityFinding.sortKey findings
  let providers := sortedBy (fun provider : ProviderAssessment => toLex (provider.id, provider.version)) providers
  if h : AssessmentChecks objectDigest status installationRisk maxFindingSeverity coverage findings providers then
    .ok ⟨objectDigest, status, installationRisk, maxFindingSeverity, coverage, findings, providers, h⟩
  else .error "security assessment is invalid"

end AgentArtifacts.Security
