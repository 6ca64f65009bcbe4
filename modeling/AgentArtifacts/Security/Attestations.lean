import AgentArtifacts.Security.Baseline

/-!
# Attestations of an assessment

An attestation binds an assessment to the key under which it is cached: the object, the
provider and what the provider was given. It is made on the machine of the maintainer.
-/

namespace AgentArtifacts.Security

def InstallationRisk.value : InstallationRisk → String
  | .unknown => "unknown"
  | .low => "low"
  | .medium => "medium"
  | .high => "high"
  | .critical => "critical"

/-- A letter or a digit, and at most 63 letters, digits and some marks. -/
def isProviderVersion (value : String) : Bool :=
  match value.toList with
  | [] => false
  | first :: more =>
      first.isAlphanum && decide (more.length ≤ 63) &&
        more.all fun c => c.isAlphanum || c == '.' || c == '_' || c == '+' || c == '-'

section Values

variable [StandardLibrary]

/-! ## Assessments -/

def coverageValue (coverage : AssessmentCoverage) : Json :=
  .obj [("completed", .int (coverage.completed : Nat)), ("expected", .int (coverage.expected : Nat)),
    ("skipped", .arr (coverage.skipped.map .str))]

def findingValue (finding : SecurityFinding) : Json :=
  .obj [("fingerprint", .str finding.fingerprint.str),
    ("line", match finding.line with | none => .null | some number => .int (number : Nat)),
    ("message", .str finding.message),
    ("path", match finding.path with | none => .null | some path => .str path.str),
    ("provider_id", .str finding.providerId), ("remediation", .str finding.remediation),
    ("rule_id", .str finding.ruleId), ("severity", .str finding.severity.value)]

def providerValue (provider : ProviderAssessment) : Json :=
  .obj [("coverage", coverageValue provider.coverage), ("detail", .str provider.detail), ("id", .str provider.id),
    ("rules_digest", .str provider.rulesDigest.str), ("status", .str provider.status.value),
    ("version", .str provider.version)]

/-- How many findings there are of each severity. -/
def SecurityAssessment.findingCounts (assessment : SecurityAssessment) : List (FindingSeverity × Nat) :=
  findingSeverities.map fun severity => (severity, assessment.findings.countP fun finding => finding.severity == severity)

def assessmentValue (assessment : SecurityAssessment) : Json :=
  .obj [("coverage", coverageValue assessment.coverage),
    ("finding_counts", .obj (assessment.findingCounts.map fun item => (item.1.value, .int (item.2 : Nat)))),
    ("findings", .arr (assessment.findings.map findingValue)),
    ("installation_risk", .str assessment.installationRisk.value),
    ("max_finding_severity", .str assessment.maxFindingSeverity.value),
    ("object_digest", .str assessment.objectDigest.str),
    ("providers", .arr (assessment.providers.map providerValue)), ("schema_version", .int 1),
    ("status", .str assessment.status.value)]

/-! ## Attestations -/

structure AssessmentCacheKey where
  objectDigest : ObjectDigest
  providerId : String
  providerVersion : String
  rulesDigest : ObjectDigest
  optionsDigest : ObjectDigest
  policyDigest : ObjectDigest
deriving DecidableEq

/-- The constructor of a key. -/
def assessmentCacheKey (key : AssessmentCacheKey) : Raising AssessmentCacheKey :=
  checked (isDigestValue key.objectDigest && isProviderId key.providerId && isProviderVersion key.providerVersion &&
    isDigestValue key.rulesDigest && isDigestValue key.optionsDigest && isDigestValue key.policyDigest)
    "assessment cache key is invalid" key

def cacheKeyValue (key : AssessmentCacheKey) : Json :=
  .obj [("object_digest", .str key.objectDigest.str), ("options_digest", .str key.optionsDigest.str),
    ("policy_digest", .str key.policyDigest.str), ("provider_id", .str key.providerId),
    ("provider_version", .str key.providerVersion), ("rules_digest", .str key.rulesDigest.str),
    ("schema_version", .int 1)]

/-- An attestation whose origin is local. -/
structure SecurityAttestation where
  cacheKey : AssessmentCacheKey
  assessment : SecurityAssessment
deriving DecidableEq

/-- The constructor of an attestation: one provider, that of the key. -/
def securityAttestation (attestation : SecurityAttestation) : Raising SecurityAttestation :=
  let key := attestation.cacheKey
  let assessment := attestation.assessment
  checked (assessment.status != .stale && assessment.objectDigest == key.objectDigest &&
    match assessment.providers with
    | [provider] =>
        provider.id == key.providerId && provider.version == key.providerVersion && provider.rulesDigest == key.rulesDigest
    | _ => false)
    "security attestation does not bind its cache identity" attestation

def attestationValue (attestation : SecurityAttestation) : Json :=
  .obj [("assessment", assessmentValue attestation.assessment), ("cache_key", cacheKeyValue attestation.cacheKey),
    ("origin", .obj [("kind", .str "local")]), ("schema_version", .int 1)]

def attestationDigest (attestation : SecurityAttestation) : ObjectDigest := jsonDigest (attestationValue attestation)

def attestationBytes (attestation : SecurityAttestation) : Bytes := canonicalJsonBytes (attestationValue attestation)

/-- `EMPTY_CACHE_INPUT_DIGEST`. -/
def emptyCacheInputDigest : ObjectDigest := jsonDigest (.obj [])

end Values

end AgentArtifacts.Security
