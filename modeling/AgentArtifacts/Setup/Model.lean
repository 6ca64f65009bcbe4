import AgentArtifacts.Configuration.Model
import AgentArtifacts.Installation.Snapshot
import AgentArtifacts.InstallState.Model
import AgentArtifacts.Registry.Model
import AgentArtifacts.Store.References

/-!
# Setup values

A recipe and the effects planned from it, the record that a run leaves, and the
plan that binds both to one installed object.
-/

namespace AgentArtifacts.Setup

open Registry (Capability)

/-! ## Recipes -/

structure SetupInput where
  id : String
  type : String
  prompt : String
deriving DecidableEq

structure SetupStep where
  id : String
  use : String
  config : Dict
deriving DecidableEq

structure SetupInstaller where
  artifact : String
  platforms : List String
  requiredTools : List String
  inputs : List SetupInput
  steps : List SetupStep
  descriptorPath : String
  descriptorHash : String
  schemaVersion : Int := 1
  protocolVersion : Int := 1
  customEntrypoint : Option String := none
  customHash : Option String := none
deriving DecidableEq

/-- What the index compiler reads of a recipe. -/
def SetupInstaller.published (installer : SetupInstaller) : Registry.SetupInstaller :=
  ⟨installer.steps.map (·.use), installer.customEntrypoint⟩

structure SetupQueueItem where
  artifactType : ArtifactKind
  artifactName : String
  profile : String
  scope : InstallScope
  sourceLabel : String
  sourceRoot : String
  installer : SetupInstaller
  artifactVersion : String := ""
deriving DecidableEq

/-! ## Effects -/

structure SetupEffect where
  stepId : String
  module : String
  capability : Option String
  summary : String
  target : String := ""
  argv : List String := []
  reversible : Bool := false
  config : Dict := []
deriving DecidableEq

inductive SetupTerminalStatus where
  | configured
  | alreadyConfigured
  | cancelled
  | skipped
  | unsupported
  | prerequisiteMissing
  | applyFailedRolledBack
  | rollbackIncomplete
  | verificationFailed
deriving DecidableEq

def SetupTerminalStatus.value : SetupTerminalStatus → String
  | .configured => "configured"
  | .alreadyConfigured => "already_configured"
  | .cancelled => "cancelled"
  | .skipped => "skipped"
  | .unsupported => "unsupported"
  | .prerequisiteMissing => "prerequisite_missing"
  | .applyFailedRolledBack => "apply_failed_rolled_back"
  | .rollbackIncomplete => "rollback_incomplete"
  | .verificationFailed => "verification_failed"

def terminalStatuses : List SetupTerminalStatus :=
  [.configured, .alreadyConfigured, .cancelled, .skipped, .unsupported, .prerequisiteMissing, .applyFailedRolledBack,
    .rollbackIncomplete, .verificationFailed]

structure SetupPlan where
  item : SetupQueueItem
  effects : List SetupEffect
  planHash : String
  targetRoot : String := ""
  homeRoot : String := ""
  runRoot : String := ""
  preflightStatus : Option SetupTerminalStatus := none
  preflightDetail : String := ""
deriving DecidableEq

/-! ## Records -/

/-- What one effect did, as a frozen mapping. -/
abbrev Receipt := Dict

structure SetupStateRecord where
  artifactType : ArtifactKind
  artifactName : String
  profile : String
  scope : InstallScope
  status : SetupTerminalStatus
  detail : String
  sourceLabel : String := ""
  installerPath : String := ""
  installerHash : String := ""
  customHash : String := ""
  schemaVersion : Int := 1
  protocolVersion : Int := 1
  planHash : String := ""
  startedAt : String := ""
  finishedAt : String := ""
  exitStatus : Json := .null
  retryCommand : String := ""
  rollbackCommand : String := ""
  receiptPath : String := ""
  receipt : List Receipt := []
  objectDigest : String := ""
  recipeDigest : String := ""
  trust : String := ""
  trustEvidenceDigest : String := ""
  policyDigest : String := ""
  capabilityPlanDigest : String := ""
  canonicalReviewDigest : String := ""
  setupStateRef : String := ""
deriving DecidableEq

/-! ## Requests and plans -/

/-- The coordinate of a request has no version. -/
structure SetupRequest where
  source : SourceAlias
  identity : ArtifactIdentity
  profile : Slug
  scope : InstallScope
  authorizeUntrustedSource : Bool := false
  authorizeCustomEntrypoint : Bool := false
  platform : String := "darwin"
deriving DecidableEq

def SetupRequest.coordinate (request : SetupRequest) : ArtifactCoordinate := ⟨request.source, request.identity, none⟩

/-- Setup bound to an installed object. -/
structure CanonicalSetupPlan where
  request : SetupRequest
  installation : InstallationRecord
  installStatePath : String
  installStateLockPath : String
  trust : String
  trustEvidenceDigest : ObjectDigest
  policyDigest : ObjectDigest
  objectStorePaths : ObjectStorePaths
  objectCandidate : ObjectCandidate
  objectRoot : String
  objectDigest : ObjectDigest
  recipePath : SafeRelativePath
  recipeDigest : ObjectDigest
  customEntrypointPath : Option SafeRelativePath
  customEntrypointDigest : Option ObjectDigest
  capabilities : List Capability
  capabilityPlanDigest : ObjectDigest
  legacyPlan : SetupPlan
  setupStateRef : String
  setupStatePath : String
  setupStatePrecondition : Observed
  previousRecord : Option SetupStateRecord
  setupReferenceOwner : String
  setupReferencePrecondition : List ObjectDigest
  reviewDigest : ObjectDigest
deriving DecidableEq

/-- The installation that a request selects. -/
def selectedRecord (state : InstallState) (request : SetupRequest) : Option InstallationRecord :=
  state.installations.find? fun record => record.isFor request.source request.identity request.profile request.scope

end AgentArtifacts.Setup
