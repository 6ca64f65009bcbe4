import AgentArtifacts.InstallState.Manifest
import AgentArtifacts.Library.Base64

/-!
# What an install review shows

The value a reviewer consents to: the request, the evidence, the operations with
the states they expect, and the replacement of the manifest. Its digest is the one
that a later call has to present. The health and the age of the source are read off
the clock and stay out of it.
-/

namespace AgentArtifacts

open Manifest (Fields jsonObject memoryModeValue mergeModeValue linkSemanticsValue)

/-! ## Values that may be absent -/

/-- `None` is written as `null`. -/
def nullable : Option String → Json
  | none => .null
  | some text => .str text

def Observed.linkTarget : Observed → Option String
  | .symlink target _ => some target
  | _ => none

def Observed.targetExists : Observed → Json
  | .symlink _ targetExists => .bool targetExists
  | _ => .null

section Review

variable [StandardLibrary]

/-! ## Objects -/

def entryTable : TreeMember → Fields
  | .directory path =>
      [("executable", some (.bool false)), ("kind", some (.str "directory")), ("path", some (.str path.str)),
        ("content_base64", none)]
  | .file path content executable =>
      [("executable", some (.bool executable)), ("kind", some (.str "file")), ("path", some (.str path.str)),
        ("content_base64", some (.str (String.ofList (Base64.encode content))))]

def entryJson (entry : TreeMember) : Json := jsonObject (entryTable entry)

def objectTable (entries : List TreeMember) : Fields :=
  [("entries", some (.arr (entries.map entryJson))), ("schema_version", some (.int 1))]

def canonicalObjectBytes (entries : List TreeMember) : Bytes := canonicalJsonBytes (jsonObject (objectTable entries))

/-! ## Operations -/

def snapshotTable (path : String) (observed : Observed) : Fields :=
  [("path", some (.str path)), ("kind", some (.str observed.kind)),
    ("digest", some (nullable (observed.digest?.map (·.str)))), ("link_target", some (nullable observed.linkTarget)),
    ("target_exists", some observed.targetExists)]

def snapshotJson (path : String) (observed : Observed) : Json := jsonObject (snapshotTable path observed)

/-- The digest of what the operation leaves at its destination. -/
def InstallOperation.desiredDigest (operation : InstallOperation) : ObjectDigest :=
  match operation.action with
  | .copyTree _ tree => (treeMembersDigest tree).toOption.getD ⟨""⟩
  | .writeFile _ content executable _ _ => fileSnapshotDigest content executable
  | .link _ target _ _ => linkSnapshotDigest target
  | .mergeJson _ _ _ _ _ content => fileSnapshotDigest content false

def commonTable (operation : InstallOperation) : Fields :=
  [("destination", some (.str operation.destination)),
    ("absolute_destination", some (.str operation.absoluteDestination)),
    ("desired_digest", some (.str operation.desiredDigest.str)),
    ("precondition", some (snapshotJson operation.absoluteDestination operation.precondition)),
    ("overwrote", some (.bool operation.overwrote))]

def actionTable (operation : InstallOperation) : Fields :=
  match operation.action with
  | .copyTree sourcePath _ => [("kind", some (.str "copy-tree")), ("source_path", some (.str sourcePath))]
  | .writeFile sourcePath _ _ _ restoresFrom =>
      [("kind", some (.str operation.effectKind.value)), ("source_path", some (.str sourcePath)),
        ("restores_from", some (nullable restoresFrom))]
  | .link sourcePath target targetState semantics =>
      [("kind", some (.str operation.effectKind.value)), ("source_path", some (.str sourcePath)),
        ("target", some (.str target)), ("target_kind", some (.str targetState.kind)),
        ("semantics", some (.str (linkSemanticsValue semantics))),
        ("target_content_digest", some (.str (targetState.digest?.getD ⟨""⟩).str)),
        ("target_precondition", some (snapshotJson target targetState))]
  | .mergeJson jsonPath mergeMode identity identityEvidence valueDigest _ =>
      [("kind", some (.str "merge-json")), ("json_path", some (.str jsonPath)),
        ("merge_mode", some (.str (mergeModeValue mergeMode))), ("identity", some (.arr (identity.map .str))),
        ("identity_evidence", some identityEvidence), ("value_digest", some (.str valueDigest.str)),
        ("identity_digest", some (.str (jsonDigest identityEvidence).str))]

def operationTable (operation : InstallOperation) : Fields := actionTable operation ++ commonTable operation

def operationJson (operation : InstallOperation) : Json := jsonObject (operationTable operation)

/-! ## Plans -/

def provenanceTable (provenance : InstallProvenance) : Fields :=
  [("origin_url", some (.str provenance.originUrl)), ("resolved_commit", some (.str provenance.resolvedCommit)),
    ("path", some (.str provenance.path.str))]

def provenanceJson : Option InstallProvenance → Json
  | none => .null
  | some provenance => jsonObject (provenanceTable provenance)

def replacementStateDigest (plan : InstallPlanData) : ObjectDigest :=
  sha256Bytes (Manifest.installStateBytes plan.replacementState)

def planReviewTable (plan : InstallPlanData) : Fields :=
  let request := plan.request
  [("schema_version", some (.int 1)), ("coordinate", some (.str plan.coordinate.str)),
    ("requested_identity", some (.str request.identity.str)),
    ("requested_source", some (nullable (request.source.map (·.value)))),
    ("requested_version", some (nullable request.version)), ("profile", some (.str request.profile.value)),
    ("profile_version", some (.int request.profileVersion)), ("platform", some (.str request.platform)),
    ("scope", some (.str request.scope.value)), ("mode", some (.str request.mode.value)),
    ("force", some (.bool request.force)), ("offline", some (.bool request.offline)),
    ("memory_mode", some (.str (memoryModeValue request.memoryMode))),
    ("mutable_local_payload_root", some (nullable request.mutableLocalPayloadRoot)),
    ("source_alias", some (.str plan.source.sourceAlias.value)),
    ("source_id", some (.str plan.source.declaredId.value)), ("source_kind", some (.str plan.source.kind.value)),
    ("source_origin", some (.str plan.source.origin)), ("resolved_commit", some (.str plan.source.resolvedCommit)),
    ("subscription_ref", some (nullable plan.source.subscriptionRef)),
    ("source_snapshot_digest", some (.str plan.sourceSnapshotDigest.str)),
    ("artifact_version", some (.str plan.artifact.version)),
    ("manifest_digest", some (.str plan.artifact.manifestDigest.str)),
    ("payload_digest", some (.str plan.artifact.payloadDigest.str)),
    ("object_digest", some (.str plan.objectDigest.str)), ("object_store_root", some (.str plan.objectStorePaths.root)),
    ("object_root", some (.str plan.objectRoot)), ("provenance", some (provenanceJson plan.provenance)),
    ("trust", some (.str plan.trust.value)), ("trust_evidence_digest", some (.str plan.trustEvidenceDigest.str)),
    ("policy_digest", some (.str plan.policyDigest.str)),
    ("operations", some (.arr (plan.operations.map operationJson))), ("state_path", some (.str plan.statePath)),
    ("state_lock_path", some (.str plan.stateLockPath)),
    ("state_precondition", some (snapshotJson plan.statePath plan.statePrecondition)),
    ("replacement_state_digest", some (.str (replacementStateDigest plan).str)),
    ("reference_owner", some (.str plan.referenceOwner))]

def planReviewValue (plan : InstallPlanData) : Json := jsonObject (planReviewTable plan)

/-- The constructor sets the digest of every plan it accepts to this one. -/
def reviewDigest (plan : InstallPlanData) : ObjectDigest := jsonDigest (planReviewValue plan)

end Review

end AgentArtifacts
