import AgentArtifacts.InstallState.Manifest
import AgentArtifacts.Installation.Actions
import AgentArtifacts.Redaction
import AgentArtifacts.Setup.Model

/-!
# The setup state file

A record is written with its texts redacted and with what stands under a sensitive name
hidden, and it is read with its receipts frozen.
-/

namespace AgentArtifacts.Setup

open Manifest (choiceOf artifactKinds installScopes isSetupRef parseSha256)

/-- `json.loads` and `json.dumps` without hooks, and `int` of a text. -/
class PlainJson where
  loads : String → Option Json
  dumps : Json → String
  intOfText : String → Option Int

/-! ## Redaction -/

/-- The letter that a pattern without regard to case matches. -/
def foldLetter (c : Char) : Char :=
  -- Letters outside ASCII that have the same lower case as one inside.
  if c.toNat == 0x17F then 's'
  else if c.toNat == 0x212A then 'k'
  else if c.toNat == 0x130 || c.toNat == 0x131 then 'i'
  else c.toLower

def sensitiveWords : List String :=
  ["token", "password", "passwd", "secret", "apikey", "api_key", "api-key", "stdout", "stderr", "env"]

def isSensitive (label : String) : Bool :=
  let folded := label.toList.map foldLetter
  sensitiveWords.any fun word => Text.contains word.toList folded

section Redacting

variable [Redaction]

mutual

/-- `_redact`. -/
def redact : Json → Json
  | .str text => .str (Redaction.redactText text)
  | .arr items => .arr (redactItems items)
  | .obj entries => .obj (redactEntries entries)
  | .null => .null
  | .bool value => .bool value
  | .int value => .int value

def redactItems : List Json → List Json
  | [] => []
  | item :: rest => redact item :: redactItems rest

def redactEntries : List (String × Json) → List (String × Json)
  | [] => []
  | (label, item) :: rest =>
      (label, if isSensitive label then .str "[redacted]" else redact item) :: redactEntries rest

end

end Redacting

/-! ## Evidence -/

/-- `_CANONICAL_DIGEST`. -/
def isCanonicalDigest (value : String) : Bool := (parseSha256 value).toOption.isSome

def trustClassNames : List String :=
  ["unverified", "local", "direct-source", "registry-reviewed", "company-reviewed"]

def canonicalEvidence (record : SetupStateRecord) : List (String × String) :=
  [("object_digest", record.objectDigest), ("recipe_digest", record.recipeDigest), ("trust", record.trust),
    ("trust_evidence_digest", record.trustEvidenceDigest), ("policy_digest", record.policyDigest),
    ("capability_plan_digest", record.capabilityPlanDigest),
    ("canonical_review_digest", record.canonicalReviewDigest), ("setup_state_ref", record.setupStateRef)]

def hasEvidence (record : SetupStateRecord) : Bool := (canonicalEvidence record).any fun field => field.2 != ""

/-- `_valid_canonical_evidence`. -/
def validCanonicalEvidence (record : SetupStateRecord) : Bool :=
  ([record.objectDigest, record.recipeDigest, record.trustEvidenceDigest, record.policyDigest,
      record.capabilityPlanDigest, record.canonicalReviewDigest].all isCanonicalDigest) &&
    decide (record.trust ∈ trustClassNames) && isSetupRef record.setupStateRef

/-- Evidence is complete or there is none. -/
def evidenceStands (record : SetupStateRecord) : Bool := !hasEvidence record || validCanonicalEvidence record

/-! ## Writing -/

section Writing

variable [Redaction]

/-- `_record_to_dict`; incomplete evidence is an error of the constructor. -/
def recordToDict (record : SetupStateRecord) : Except String Json :=
  if evidenceStands record then
    .ok (.obj
      ([("artifact_type", .str record.artifactType.value), ("artifact_name", .str record.artifactName),
          ("profile", .str record.profile), ("scope", .str record.scope.value), ("status", .str record.status.value),
          ("detail", .str (Redaction.redactText record.detail)), ("source_label", .str record.sourceLabel),
          ("installer_path", .str record.installerPath), ("installer_hash", .str record.installerHash),
          ("custom_hash", .str record.customHash), ("schema_version", .int record.schemaVersion),
          ("protocol_version", .int record.protocolVersion), ("plan_hash", .str record.planHash),
          ("started_at", .str record.startedAt), ("finished_at", .str record.finishedAt),
          ("exit_status", record.exitStatus), ("retry_command", .str record.retryCommand),
          ("rollback_command", .str record.rollbackCommand), ("receipt_path", .str record.receiptPath),
          ("receipt", redact (.arr (record.receipt.map .obj)))] ++
        ((canonicalEvidence record).filter fun field => field.2 != "").map fun field => (field.1, .str field.2)))
  else .error "canonical setup evidence is incomplete or invalid"

/-- `dump_setup_state`. -/
def dumpSetupState [PlainJson] (records : List SetupStateRecord) : Except String String := do
  let written ← records.mapM recordToDict
  return PlainJson.dumps (.obj [("version", .int 1), ("records", .arr written)])

end Writing

/-! ## Reading -/

section Reading

variable [PlainJson]

/-- `str(entry.get(name, ""))`. -/
def textOf (entry : Dict) (name : String) : String := pyStr ((Dict.get? entry name).getD (.str ""))

/-- `int` of a decoded value. -/
def pyInt : Json → Except String Int
  | .int value => .ok value
  | .bool value => .ok (if value then 1 else 0)
  | .str text =>
      match PlainJson.intOfText text with
      | some value => .ok value
      | none => .error "invalid literal for int()"
  | _ => .error "int() argument must be a string or a number"

def versionOf (entry : Dict) (name : String) : Except String Int := pyInt ((Dict.get? entry name).getD (.int 1))

/-- The member of an enumeration that a field names. -/
def chosen {α : Type} (all : List α) (text : α → String) (entry : Dict) (name : String) : Option α :=
  match Dict.get? entry name with
  | some (.str raw) => choiceOf all text raw
  | _ => none

/-- The receipts of an entry, which are objects. -/
def receiptsOf (entry : Dict) : Option (List Receipt) :=
  match (Dict.get? entry "receipt").getD (.arr []) with
  | .arr items => items.mapM fun item => match item with
      | .obj receipt => some receipt
      | _ => none
  | _ => none

def parseEntry (entry : Dict) : Except String SetupStateRecord := do
  let status ← (chosen terminalStatuses SetupTerminalStatus.value entry "status").elim
    (throw "invalid setup terminal status") pure
  let artifactType ← (chosen artifactKinds ArtifactKind.value entry "artifact_type").elim
    (throw "invalid artifact type") pure
  let scope ← (chosen installScopes InstallScope.value entry "scope").elim (throw "invalid setup scope") pure
  let receipt ← (receiptsOf entry).elim (throw "setup receipt must be a list of objects") pure
  let schemaVersion ← versionOf entry "schema_version"
  let protocolVersion ← versionOf entry "protocol_version"
  let record : SetupStateRecord :=
    { artifactType, artifactName := textOf entry "artifact_name", profile := textOf entry "profile", scope, status,
      detail := textOf entry "detail", sourceLabel := textOf entry "source_label",
      installerPath := textOf entry "installer_path", installerHash := textOf entry "installer_hash",
      customHash := textOf entry "custom_hash", schemaVersion, protocolVersion, planHash := textOf entry "plan_hash",
      startedAt := textOf entry "started_at", finishedAt := textOf entry "finished_at",
      exitStatus := (Dict.get? entry "exit_status").getD .null, retryCommand := textOf entry "retry_command",
      rollbackCommand := textOf entry "rollback_command", receiptPath := textOf entry "receipt_path", receipt,
      objectDigest := textOf entry "object_digest", recipeDigest := textOf entry "recipe_digest",
      trust := textOf entry "trust", trustEvidenceDigest := textOf entry "trust_evidence_digest",
      policyDigest := textOf entry "policy_digest", capabilityPlanDigest := textOf entry "capability_plan_digest",
      canonicalReviewDigest := textOf entry "canonical_review_digest", setupStateRef := textOf entry "setup_state_ref" }
  if evidenceStands record then return record
  else throw "canonical setup evidence is incomplete or invalid"

def parseRecord : Json → Except String SetupStateRecord
  | .obj entry => parseEntry entry
  | _ => throw "setup state records must be objects"

/-- `parse_setup_state`. -/
def parseSetupState (text : String) : Except String (List SetupStateRecord) :=
  match PlainJson.loads text with
  | none => .error "invalid JSON"
  | some (.obj document) =>
      if Json.pyEq ((Dict.get? document "version").getD .null) (.int 1) then
        match Dict.get? document "records" with
        | some (.arr entries) => entries.mapM parseRecord
        | _ => .error "setup state records must be a list"
      else .error "setup state version must be 1"
  | some _ => .error "setup state version must be 1"

/-! ## Comparison -/

/-- The `==` of records: mappings compare without regard to order. -/
def SetupStateRecord.same (a b : SetupStateRecord) : Bool :=
  decide ({ a with receipt := [], exitStatus := .null } = { b with receipt := [], exitStatus := .null }) &&
    a.exitStatus.pyEq b.exitStatus && Json.pyEqItems (a.receipt.map .obj) (b.receipt.map .obj)

end Reading

end AgentArtifacts.Setup
