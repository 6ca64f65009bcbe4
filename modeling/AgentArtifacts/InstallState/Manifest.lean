import AgentArtifacts.Installation.Prepare
import AgentArtifacts.Protocol.JsonDocuments
import AgentArtifacts.Protocol.SemVerText

/-!
# The manifest document

The strict parser and the writer of installation manifests. A field is read by its
kind (a line of text, a digest, a flag), then the constructors check the value as a
whole. Every object of the writer is a table of fields, of which those without a
value are left out.
-/

namespace AgentArtifacts.Manifest

/-! ## Objects as tables of fields -/

abbrev Fields := List (String × Option Json)

/-- The fields that have a value. -/
def present (fields : Fields) : Dict :=
  fields.filterMap fun field => field.2.map fun value => (field.1, value)

def jsonObject (fields : Fields) : Json := .obj (sortEntries (present fields))

/-! ## Diagnostics -/

def stateInvalid : DiagnosticCode := ⟨"install-state-invalid"⟩

def installStateLegacy : DiagnosticCode := ⟨"install-state-legacy"⟩

def schemaMissingField : DiagnosticCode := ⟨"protocol-schema-missing-field"⟩

def schemaUnknownField : DiagnosticCode := ⟨"protocol-schema-unknown-field"⟩

def digestInvalid : DiagnosticCode := ⟨"protocol-digest-invalid"⟩

def stateError {α : Type} (message : String) : Result α := error stateInvalid message

/-- Failures of the readers below carry the code of this parser. -/
def asInstallStateInvalid {α : Type} (result : Result α) : Result α :=
  result.mapError fun diagnostics => diagnostics.map fun diagnostic => { diagnostic with code := stateInvalid }

/-- A value that its constructor accepts. -/
def constructed {α : Type} (check : Except String Unit) (value : α) : Result α :=
  match check with
  | .ok () => .ok value
  | .error message => stateError message

/-! ## Fields -/

/-- `validate_object_fields` without extensions: every required field, and no other than
the known ones. -/
def validateObjectFields (required optional : List String) (entries : Dict) : Result Dict :=
  let names := entries.map Prod.fst
  let missing := (required.insertionSort (· ≤ ·)).filter (· ∉ names)
  let unknown := (names.insertionSort (· ≤ ·)).filter (· ∉ required ++ optional)
  match missing.map (fun name => (⟨schemaMissingField, "missing required field " ++ pyRepr name⟩ : Diagnostic)) ++
      unknown.map (fun name => (⟨schemaUnknownField, "unknown field " ++ pyRepr name⟩ : Diagnostic)) with
  | [] => .ok entries
  | diagnostics => .error diagnostics

def objectFields (required optional : List String) : Json → Result Dict
  | .obj entries => validateObjectFields required optional entries
  | _ => stateError "installation state value must be an object"

/-- A field that the validation found. -/
def requiredField {α : Type} (fields : Dict) (name : String) (parse : Json → Result α) : Result α :=
  parse ((fields.get? name).getD .null)

def optionalField {α : Type} (fields : Dict) (name : String) (parse : Json → Result α) : Result (Option α) :=
  match fields.get? name with
  | none => .ok none
  | some value => (parse value).map some

def parseString (label : String) : Json → Result String
  | .str value =>
      if oneLine value then .ok value else stateError (label ++ " must be a non-empty single-line string")
  | _ => stateError (label ++ " must be a non-empty single-line string")

def parseIntegerField (label : String) : Json → Result Int
  | .int value => .ok value
  | _ => stateError (label ++ " must be an integer")

def parseBoolean (label : String) : Json → Result Bool
  | .bool value => .ok value
  | _ => stateError (label ++ " must be a boolean")

def parseArray (message : String) : Json → Result (List Json)
  | .arr items => .ok items
  | _ => stateError message

def validDigest (digest : ObjectDigest) : Bool :=
  digest.value.toList.length == 64 && digest.value.toList.all isLowerHex

def parseSha256 (raw : String) : Result ObjectDigest :=
  let digest : ObjectDigest := ⟨removePrefix "sha256:" raw⟩
  if startsWith "sha256:" raw && validDigest digest then .ok digest
  else error digestInvalid ("invalid canonical SHA-256 digest: " ++ pyRepr raw)

def parseDigest (label : String) (value : Json) : Result ObjectDigest := do
  let raw ← parseString label value
  parseSha256 raw

/-! ## Choices -/

/-- The member of an enumeration that a text names. -/
def choiceOf {α : Type} (all : List α) (value : α → String) (text : String) : Option α :=
  all.find? fun choice => value choice == text

def sourceKinds : List SourceKind := [.registryGit, .sourceGit, .sourceLocal]

def artifactKinds : List ArtifactKind := [.skill, .guideline, .mcp, .hook, .memory]

def effectKinds : List EffectKind :=
  [.copyTree, .writeFile, .mergeJson, .managedBlock, .symlinkFile, .symlinkTree]

def installModes : List InstallMode := [.copy, .symlink]

def installScopes : List InstallScope := [.project, .user]

def memoryModes : List MemoryMode := [.replace, .prepend, .append, .skip]

def memoryModeValue : MemoryMode → String
  | .replace => "replace"
  | .prepend => "prepend"
  | .append => "append"
  | .skip => "skip"

def mergeModes : List MergeMode := [.key, .list]

def mergeModeValue : MergeMode → String
  | .key => "key"
  | .list => "list"

def linkSemanticsValues : List LinkSemantics := [.immutableObject, .mutableLocal]

def linkSemanticsValue : LinkSemantics → String
  | .immutableObject => "immutable-object"
  | .mutableLocal => "mutable-local"

def slugOf (text : String) : Option Slug := if h : isSlug text = true then some ⟨text, h⟩ else none

/-- A text that names no member fails the constructor like a missing one where a member is
expected, and like a present one elsewhere. -/
def optionalChoice {α : Type} (all : List α) (value : α → String) (expected : Bool) (other : α)
    (text : Option String) : Option α :=
  text.bind fun text =>
    match choiceOf all value text with
    | some choice => some choice
    | none => if expected then none else some other

/-! ## Parsing -/

variable [StandardLibrary]

def sourceFields : List String := ["alias", "declared_id", "kind", "origin", "resolved_commit"]

def parseSource (services : PlanningServices) (value : Json) : Result SourceEvidence := do
  let fields ← objectFields sourceFields ["subscription_ref"] value
  let sourceAlias ← requiredField fields "alias" (parseString "source.alias")
  let declaredId ← requiredField fields "declared_id" (parseString "source.declared_id")
  let kind ← requiredField fields "kind" (parseString "source.kind")
  let origin ← requiredField fields "origin" (parseString "source.origin")
  let resolvedCommit ← requiredField fields "resolved_commit" (parseString "source.resolved_commit")
  let subscriptionRef ← optionalField fields "subscription_ref" (parseString "source.subscription_ref")
  match choiceOf sourceKinds SourceKind.value kind with
  | none => stateError (pyRepr kind ++ " is not a valid SourceKind")
  | some kind =>
      match slugOf sourceAlias, slugOf declaredId with
      | some sourceAlias, some declaredId =>
          let source : SourceEvidence := ⟨sourceAlias, declaredId, kind, origin, resolvedCommit, subscriptionRef⟩
          constructed (source.check services) source
      | _, _ => stateError "installation source evidence is invalid"

def artifactFields : List String :=
  ["type", "name", "version", "manifest_digest", "payload_digest", "object_digest"]

def parseArtifact (value : Json) : Result ArtifactEvidence := do
  let fields ← objectFields artifactFields [] value
  let kind ← requiredField fields "type" (parseString "artifact.type")
  let name ← requiredField fields "name" (parseString "artifact.name")
  let version ← requiredField fields "version" (parseString "artifact.version")
  let version ← parseSemver version
  let manifestDigest ← requiredField fields "manifest_digest" (parseDigest "manifest_digest")
  let payloadDigest ← requiredField fields "payload_digest" (parseDigest "payload_digest")
  let objectDigest ← requiredField fields "object_digest" (parseDigest "object_digest")
  match choiceOf artifactKinds ArtifactKind.value kind, slugOf name with
  | some kind, some name => return ⟨⟨kind, name⟩, version.str, manifestDigest, payloadDigest, objectDigest⟩
  | _, _ => stateError "installation artifact evidence is invalid"

def effectFields : List String := ["kind", "destination", "actual_mode", "installed_digest"]

def optionalEffectFields : List String :=
  ["source_path", "json_path", "merge_mode", "identity_digest", "identity_evidence", "link_target",
    "link_semantics", "created_destination", "overwrote", "restores_from"]

def parseEffect (value : Json) : Result EffectProof := do
  let fields ← objectFields effectFields optionalEffectFields value
  let kind ← requiredField fields "kind" (parseString "kind")
  let destination ← requiredField fields "destination" (parseString "destination")
  let actualMode ← requiredField fields "actual_mode" (parseString "actual_mode")
  let installedDigest ← requiredField fields "installed_digest" (parseDigest "installed_digest")
  let sourcePath ← optionalField fields "source_path" (parseString "source_path")
  let jsonPath ← optionalField fields "json_path" (parseString "json_path")
  let mergeMode ← optionalField fields "merge_mode" (parseString "merge_mode")
  let linkTarget ← optionalField fields "link_target" (parseString "link_target")
  let linkSemantics ← optionalField fields "link_semantics" (parseString "link_semantics")
  let restoresFrom ← optionalField fields "restores_from" (parseString "restores_from")
  let identityDigest ← optionalField fields "identity_digest" (parseDigest "identity_digest")
  let createdDestination ← optionalField fields "created_destination" (parseBoolean "created_destination")
  let overwrote ← optionalField fields "overwrote" (parseBoolean "overwrote")
  match choiceOf effectKinds EffectKind.value kind, choiceOf installModes InstallMode.value actualMode with
  | some kind, some actualMode =>
      let effect : EffectProof :=
        { kind, destination, actualMode, installedDigest, sourcePath, jsonPath
          mergeMode := optionalChoice mergeModes mergeModeValue (kind == .mergeJson) .key mergeMode
          identityDigest
          identityEvidence := (fields.get? "identity_evidence").getD .null
          linkTarget
          linkSemantics :=
            optionalChoice linkSemanticsValues linkSemanticsValue kind.isLink .immutableObject linkSemantics
          createdDestination := createdDestination.getD false
          overwrote := overwrote.getD false
          restoresFrom }
      constructed effect.check effect
  | _, _ => stateError "installation effect proof is invalid"

def recordFields : List String :=
  ["coordinate", "source", "artifact", "profile", "profile_version", "scope", "requested_mode", "effects"]

def isSetupRefChar (c : Char) : Bool := isLowerAlphanumeric c || c == '.' || c == '_' || c == '-'

def isSetupRef (value : String) : Bool :=
  value.toList.length ≤ 256 &&
    match value.toList with
    | [] => false
    | first :: rest => isLowerAlphanumeric first && rest.all isSetupRefChar

def recordInvalid {α : Type} : Result α := stateError "installation record is invalid"

/-- The mode of a record, if it may have one. -/
def recordMemoryMode : Option String → Result (Option MemoryMode)
  | none => .ok none
  | some text =>
      match choiceOf memoryModes memoryModeValue text with
      | some mode => .ok (some mode)
      | none => recordInvalid

/-- The parts of a record as its constructor takes them. -/
def constructRecord (coordinate : List String) (source : SourceEvidence) (artifact : ArtifactEvidence)
    (profile : String) (profileVersion : Int) (scope requestedMode : String) (effects : List EffectProof)
    (memoryMode : Option String) (setupStateRef : Option String) : Result InstallationRecord := do
  let memoryMode ← recordMemoryMode memoryMode
  match slugOf profile, choiceOf installScopes InstallScope.value scope,
      choiceOf installModes InstallMode.value requestedMode with
  | some profile, some scope, some requestedMode =>
      if coordinate = [source.sourceAlias.value, artifact.identity.kind.value, artifact.identity.name.value] ∧
          1 ≤ profileVersion ∧ setupStateRef.all isSetupRef = true then
        let record : InstallationRecord :=
          ⟨source, artifact, profile, profileVersion.toNat, scope, requestedMode, effects, memoryMode, setupStateRef⟩
        constructed record.check record
      else recordInvalid
  | _, _, _ => recordInvalid

def parseRecord (services : PlanningServices) (value : Json) : Result InstallationRecord := do
  let fields ← objectFields recordFields ["memory_mode", "setup_state_ref"] value
  let coordinate ← requiredField fields "coordinate" (parseString "coordinate")
  let profile ← requiredField fields "profile" (parseString "profile")
  let scope ← requiredField fields "scope" (parseString "scope")
  let requestedMode ← requiredField fields "requested_mode" (parseString "requested_mode")
  let parts := splitChar '/' coordinate
  if parts.length ≠ 3 then stateError "coordinate must be <source>/<type>/<name>"
  else do
    let source ← requiredField fields "source" (parseSource services)
    let artifact ← requiredField fields "artifact" parseArtifact
    let profileVersion ← requiredField fields "profile_version" (parseIntegerField "profile_version")
    let items ← requiredField fields "effects" (parseArray "effects must be a non-empty array")
    if items = [] then stateError "effects must be a non-empty array"
    else do
      let effects ← items.mapM parseEffect
      let setupStateRef ← optionalField fields "setup_state_ref" (parseString "setup_state_ref")
      let memoryMode ← optionalField fields "memory_mode" (parseString "memory_mode")
      constructRecord parts source artifact profile profileVersion scope requestedMode effects memoryMode setupStateRef

/-- The complete envelope of the retired 0.1 state. -/
def isLegacyEnvelope : Json → Bool
  | .obj entries =>
      (entries.map Prod.fst).all (fun name => name == "repo" || name == "installed") &&
        (match Dict.get? entries "repo", Dict.get? entries "installed" with
          | some (.str _), some (.arr _) => true
          | _, _ => false)
  | _ => false

def parseV2InstallState (services : PlanningServices) (value : Json) : Result InstallState := do
  let fields ← objectFields ["schema_version", "installations"] [] value
  let schemaVersion ← requiredField fields "schema_version" (parseIntegerField "schema_version")
  if schemaVersion ≠ 2 then stateError "schema_version must be 2"
  else do
    let items ← requiredField fields "installations" (parseArray "installations must be an array")
    let records ← items.mapM (parseRecord services)
    match InstallState.make records with
    | .ok state => return state
    | .error message => stateError message

def parseInstallState (services : PlanningServices) (data : Bytes) : Result InstallState := do
  let value ← asInstallStateInvalid (parseJson data)
  if isLegacyEnvelope value then error installStateLegacy "AART 0.1 installation state was detected."
  else asInstallStateInvalid (parseV2InstallState services value)

/-! ## Writing -/

def sourceTable (source : SourceEvidence) : Fields :=
  [("alias", some (.str source.sourceAlias.value)), ("declared_id", some (.str source.declaredId.value)),
    ("kind", some (.str source.kind.value)), ("origin", some (.str source.origin)),
    ("resolved_commit", some (.str source.resolvedCommit)),
    ("subscription_ref", source.subscriptionRef.map .str)]

def artifactTable (artifact : ArtifactEvidence) : Fields :=
  [("type", some (.str artifact.identity.kind.value)), ("name", some (.str artifact.identity.name.value)),
    ("version", some (.str artifact.version)), ("manifest_digest", some (.str artifact.manifestDigest.str)),
    ("payload_digest", some (.str artifact.payloadDigest.str)),
    ("object_digest", some (.str artifact.objectDigest.str))]

def effectTable (effect : EffectProof) : Fields :=
  [("kind", some (.str effect.kind.value)), ("destination", some (.str effect.destination)),
    ("actual_mode", some (.str effect.actualMode.value)),
    ("installed_digest", some (.str effect.installedDigest.str)),
    ("source_path", effect.sourcePath.map .str), ("json_path", effect.jsonPath.map .str),
    ("merge_mode", effect.mergeMode.map fun mode => .str (mergeModeValue mode)),
    ("identity_digest", effect.identityDigest.map fun digest => .str digest.str),
    ("identity_evidence", if effect.identityEvidence = .null then none else some effect.identityEvidence),
    ("link_target", effect.linkTarget.map .str),
    ("link_semantics", effect.linkSemantics.map fun semantics => .str (linkSemanticsValue semantics)),
    ("restores_from", effect.restoresFrom.map .str),
    ("created_destination", some (.bool effect.createdDestination)), ("overwrote", some (.bool effect.overwrote))]

def effectJson (effect : EffectProof) : Json := jsonObject (effectTable effect)

def recordTable (record : InstallationRecord) : Fields :=
  [("coordinate", some (.str record.coordinate.str)), ("source", some (jsonObject (sourceTable record.source))),
    ("artifact", some (jsonObject (artifactTable record.artifact))), ("profile", some (.str record.profile.value)),
    ("profile_version", some (.int record.profileVersion)), ("scope", some (.str record.scope.value)),
    ("requested_mode", some (.str record.requestedMode.value)),
    ("effects", some (.arr (record.effects.map effectJson))),
    ("memory_mode", record.memoryMode.map fun mode => .str (memoryModeValue mode)),
    ("setup_state_ref", record.setupStateRef.map .str)]

def recordJson (record : InstallationRecord) : Json := jsonObject (recordTable record)

def stateTable (state : InstallState) : Fields :=
  [("schema_version", some (.int 2)), ("installations", some (.arr (state.installations.map recordJson)))]

def installStateToJson (state : InstallState) : Json := jsonObject (stateTable state)

def installStateBytes (state : InstallState) : Bytes := canonicalJsonBytes (installStateToJson state)

end AgentArtifacts.Manifest
