import AgentArtifacts.Consumer.Closure
import AgentArtifacts.Library.Arrangements
import AgentArtifacts.Security.Model

/-!
# Bundle summaries

The evidence of the artifacts of a bundle is deduplicated by coordinate and summarized. Unknown and
stale members stay outside of the mean.
-/

namespace AgentArtifacts.Security

open Registry (sortedBy sortedSet)

inductive AttestationTrust where
  | unverified
  | localTrust
  | registryReviewed
  | companyReviewed
deriving DecidableEq

def AttestationTrust.rank : AttestationTrust → Nat
  | .unverified => 0
  | .localTrust => 1
  | .registryReviewed => 2
  | .companyReviewed => 3

def riskScore : InstallationRisk → Option Nat
  | .unknown => none
  | .low => some 1
  | .medium => some 2
  | .high => some 3
  | .critical => some 4

def riskByScore : Nat → InstallationRisk
  | 1 => .low
  | 2 => .medium
  | 3 => .high
  | 4 => .critical
  | _ => .unknown

variable [StandardLibrary]

structure ArtifactSecurityEvidence where
  coordinate : ArtifactCoordinate
  assessment : SecurityAssessment
  attestationTrust : AttestationTrust
  evidenceAgeSeconds : Option Nat
  age_valid : ∀ age, evidenceAgeSeconds = some age → age ≤ 2 ^ 63 - 1
deriving DecidableEq

structure BundleSecuritySummary where
  artifacts : List ArtifactCoordinate
  artifactCount : Nat
  worstInstallationRisk : InstallationRisk
  riskMin : InstallationRisk
  riskMax : InstallationRisk
  meanRiskMilli : Option Nat
  knownRiskCount : Nat
  maxFindingSeverity : FindingSeverity
  findingCounts : List (FindingSeverity × Nat)
  statusCounts : List (AssessmentStatus × Nat)
  coverage : AssessmentCoverage
  worstArtifacts : List ArtifactCoordinate
  unknownArtifacts : List ArtifactCoordinate
  staleArtifacts : List ArtifactCoordinate
  providerIds : List String
  weakestAttestationTrust : AttestationTrust
deriving DecidableEq

/-- `sorted(set(...), key=str)`. -/
def sortedCoordinates (coordinates : List ArtifactCoordinate) : List ArtifactCoordinate :=
  sortedBy ArtifactCoordinate.str coordinates.dedup

/-- The constructor of a summary. -/
def BundleSecuritySummary.make (summary : BundleSecuritySummary) : Raising BundleSecuritySummary :=
  let worst := sortedCoordinates summary.worstArtifacts
  let unknown := sortedCoordinates summary.unknownArtifacts
  let stale := sortedCoordinates summary.staleArtifacts
  let artifacts := sortedCoordinates summary.artifacts
  let invalid := artifacts.isEmpty || artifacts != summary.artifacts || summary.artifactCount != artifacts.length ||
    summary.meanRiskMilli.any (fun mean => !(decide (1000 ≤ mean) && decide (mean ≤ 4000))) ||
    decide (summary.artifactCount < summary.knownRiskCount) ||
    (summary.knownRiskCount == 0) != summary.meanRiskMilli.isNone ||
    (worst ++ unknown ++ stale).any (fun item => !artifacts.contains item) ||
    sortedSet summary.providerIds != summary.providerIds ||
    summary.findingCounts.map (·.1) != findingSeverities || summary.statusCounts.map (·.1) != assessmentStatuses
  if invalid then .error "bundle security summary is invalid"
  else .ok { summary with worstArtifacts := worst, unknownArtifacts := unknown, staleArtifacts := stale }

/-- One more item of evidence for the dictionary. -/
def recordEvidence (byCoordinate : List ArtifactSecurityEvidence) (item : ArtifactSecurityEvidence) :
    Raising (List ArtifactSecurityEvidence) :=
  match byCoordinate.find? fun existing => existing.coordinate == item.coordinate with
  | some existing =>
      if existing = item then .ok byCoordinate
      else .error "one artifact coordinate has conflicting security evidence"
  | none => .ok (byCoordinate ++ [item])

def deduplicate (evidence : List ArtifactSecurityEvidence) : Raising (List ArtifactSecurityEvidence) := do
  let byCoordinate ← evidence.foldlM recordEvidence []
  let result := sortedBy (fun item => item.coordinate.str) byCoordinate
  if result.isEmpty then .error "bundle security evidence cannot be empty" else .ok result

/-- The reasons an artifact gives, each with the coordinate before it. -/
def skippedReasons (item : ArtifactSecurityEvidence) : List String :=
  item.assessment.coverage.skipped.map fun reason => item.coordinate.str ++ ":" ++ reason

/-- The items with a known risk, each with its score. -/
def knownRisks (items : List ArtifactSecurityEvidence) : List (ArtifactSecurityEvidence × Nat) :=
  items.filterMap fun item => (riskScore item.assessment.installationRisk).map fun score => (item, score)

def weakestTrust (items : List ArtifactSecurityEvidence) : AttestationTrust :=
  items.foldl (fun weakest item => if item.attestationTrust.rank < weakest.rank then item.attestationTrust else weakest)
    .companyReviewed

/-- The lowest and the highest known score. -/
def riskRange (items : List ArtifactSecurityEvidence) : Option Nat × Option Nat :=
  let scores := (knownRisks items).map (·.2)
  (scores.min?, scores.max?)

/-- The mean in thousandths, rounded to the nearest. -/
def meanMilli (items : List ArtifactSecurityEvidence) : Option Nat :=
  let scores := (knownRisks items).map (·.2)
  if scores.isEmpty then none else some ((scores.sum * 1000 + scores.length / 2) / scores.length)

/-- The artifacts with the highest known score, or all of them where none is known. -/
def worstCoordinates (items : List ArtifactSecurityEvidence) : List ArtifactCoordinate :=
  match (riskRange items).2 with
  | some score => ((knownRisks items).filter fun entry => entry.2 == score).map (·.1.coordinate)
  | none => items.map (·.coordinate)

/-- What the constructor of the summary is given. -/
def bundleFacts (items : List ArtifactSecurityEvidence) (coverage : AssessmentCoverage) : BundleSecuritySummary where
  artifacts := items.map (·.coordinate)
  artifactCount := items.length
  worstInstallationRisk := ((riskRange items).2.map riskByScore).getD .unknown
  riskMin := ((riskRange items).1.map riskByScore).getD .unknown
  riskMax := ((riskRange items).2.map riskByScore).getD .unknown
  meanRiskMilli := meanMilli items
  knownRiskCount := (knownRisks items).length
  maxFindingSeverity := maxSeverity (items.map fun item => item.assessment.maxFindingSeverity)
  findingCounts := findingSeverities.map fun severity =>
    (severity, (items.map fun item => item.assessment.findings.countP fun finding => finding.severity == severity).sum)
  statusCounts := assessmentStatuses.map fun status =>
    (status, items.countP fun item => item.assessment.status == status)
  coverage := coverage
  worstArtifacts := worstCoordinates items
  unknownArtifacts := (items.filter fun item => item.assessment.installationRisk == .unknown).map (·.coordinate)
  staleArtifacts := (items.filter fun item => item.assessment.status == .stale).map (·.coordinate)
  providerIds := sortedSet (items.flatMap fun item => item.assessment.providers.map (·.id))
  weakestAttestationTrust := weakestTrust items

/-- The coverage of a bundle adds up that of its artifacts. -/
def bundleCoverage (items : List ArtifactSecurityEvidence) : Raising AssessmentCoverage :=
  AssessmentCoverage.make ((items.map fun item => item.assessment.coverage.completed).sum)
    ((items.map fun item => item.assessment.coverage.expected).sum) (items.flatMap skippedReasons)

def summarizeBundleSecurity (evidence : List ArtifactSecurityEvidence) : Raising BundleSecuritySummary := do
  let items ← deduplicate evidence
  let coverage ← bundleCoverage items
  (bundleFacts items coverage).make

end AgentArtifacts.Security
