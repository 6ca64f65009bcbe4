import AgentArtifacts.Protocol.Schema

/-!
# Native source documents

The strict parsers and the writers of the four documents of a native source: the
source manifest, the artifact manifest, its provenance and the collection manifest.
-/

namespace AgentArtifacts.Native

open Manifest (Fields present jsonObject requiredField optionalField choiceOf installScopes installModes)
open Registry (Capability CompatibilitySpec InstallSpec InstallEffect SetupReference ArtifactSelector sortedBy)
open Schema

/-! ## Documents -/

structure SourceManifest where
  schemaVersion : Int
  protocolVersion : Int
  sourceId : SourceId
  displayName : String
  requiresAart : VersionBounds
  requiredCapabilities : List Capability
  artifactRoots : List SafeRelativePath
  collectionRoots : List SafeRelativePath := []
  extensions : Dict := []
deriving DecidableEq

structure PayloadSpec where
  root : SafeRelativePath
  format : String
deriving DecidableEq

structure ArtifactManifest where
  schemaVersion : Int
  identity : ArtifactIdentity
  version : SemVer
  summary : String
  payload : PayloadSpec
  compatibility : CompatibilitySpec
  install : InstallSpec
  setup : Option SetupReference := none
  authors : List String := []
  license : Option String := none
  homepage : Option String := none
  extensions : Dict := []
  requiresAart : VersionBounds := {}
  requires : List ArtifactSelector := []
deriving DecidableEq

structure OriginProvenance where
  kind : String
  url : String
  resolvedCommit : String
  path : SafeRelativePath
  inputDigest : ObjectDigest
deriving DecidableEq

structure ImporterProvenance where
  id : Slug
  version : SemVer
  optionsDigest : ObjectDigest
deriving DecidableEq

structure Provenance where
  schemaVersion : Int
  origin : OriginProvenance
  importer : ImporterProvenance
  warnings : List String
  extensions : Dict := []
deriving DecidableEq

structure CollectionManifest where
  schemaVersion : Int
  name : Slug
  summary : String
  artifacts : List ArtifactSelector
  collections : List Slug := []
  extensions : Dict := []
deriving DecidableEq

def payloadFormat : ArtifactKind → String
  | .skill => "aart-skill-v1"
  | .guideline => "aart-guideline-v1"
  | .mcp => "aart-mcp-v1"
  | .hook => "aart-hook-v1"
  | .memory => "aart-memory-v1"

def installEffectsOf : ArtifactKind → List InstallEffect
  | .skill => [.copyTree]
  | .guideline => [.writeFile]
  | .mcp => [.mergeJson]
  | .hook => [.copyTree, .mergeJson]
  | .memory => [.writeFile, .managedBlock]

def installEffects : List InstallEffect := [.copyTree, .writeFile, .mergeJson, .managedBlock]

/-! ## Codes -/

def sourceInvalid : DiagnosticCode := ⟨"source-invalid"⟩

def artifactInvalid : DiagnosticCode := ⟨"artifact-invalid"⟩

def provenanceInvalid : DiagnosticCode := ⟨"provenance-invalid"⟩

def collectionInvalid : DiagnosticCode := ⟨"collection-invalid"⟩

/-! ## Names -/

def unsupported {α : Type} (code : DiagnosticCode) (label raw : String) : Result α :=
  error code ("unsupported " ++ label ++ " value " ++ pyRepr raw)

/-- A name that no set of values restricts. -/
def anyName (code : DiagnosticCode) (label raw : String) : Result String :=
  if isSlug raw then .ok raw else unsupported code label raw

def collectionName (raw : String) : Result Slug :=
  match Manifest.slugOf raw with
  | some name => .ok name
  | none => unsupported collectionInvalid "collection" raw

/-- A name out of a set of values, all of which are slugs. -/
def choiceName {α : Type} (all : List α) (value : α → String) (code : DiagnosticCode) (label raw : String) : Result α :=
  match choiceOf all value raw with
  | some choice => .ok choice
  | none => unsupported code label raw

/-! ## Checks of whole documents -/

/-- One of the paths is the other one, or lies below it. -/
def nestedParts (left right : List String) : Bool :=
  if left.length ≤ right.length then left.isPrefixOf right else right.isPrefixOf left

def nestedRoots : List SafeRelativePath → Bool
  | [] => false
  | root :: rest => (rest.any fun other => nestedParts root.parts other.parts) || nestedRoots rest

def duplicates {α : Type} [DecidableEq α] (values : List α) : Bool := decide (¬ values.Nodup)

variable [StandardLibrary]

/-! ## The source manifest -/

def sourceRequired : List String :=
  ["schema_version", "protocol_version", "source_id", "display_name", "requires_aart", "required_capabilities",
    "artifact_roots"]

def sourceOptional : List String := ["collection_roots"]

def sourceBody (fields : Dict) : Result SourceManifest := do
  let schemaVersion ← requiredField fields "schema_version" (schemaVersion sourceInvalid)
  let protocolVersion ← requiredField fields "protocol_version" (protocolVersion sourceInvalid)
  let sourceId ← requiredField fields "source_id" (textOf sourceInvalid "source_id" false
    (slug sourceInvalid "source_id must be a lowercase slug"))
  let displayName ← requiredField fields "display_name" (stringField sourceInvalid "display_name" true)
  let requiresAart ← requiredField fields "requires_aart" (boundsField sourceInvalid false)
  let requiredCapabilities ← requiredField fields "required_capabilities"
    (capabilitiesField sourceInvalid "required_capabilities")
  let artifactRoots ← requiredField fields "artifact_roots" (pathsField sourceInvalid "artifact_roots" false)
  let collectionRoots ← defaultedField fields "collection_roots" [] (pathsField sourceInvalid "collection_roots" true)
  refuse (artifactRoots.any (· ∈ collectionRoots)) sourceInvalid "artifact and collection roots must not overlap"
  refuse (nestedRoots (artifactRoots ++ collectionRoots)) sourceInvalid "source roots must not be nested"
  return { schemaVersion, protocolVersion, sourceId, displayName, requiresAart, requiredCapabilities, artifactRoots,
           collectionRoots, extensions := extensionsOf (sourceRequired ++ sourceOptional) fields }

def sourceManifestOf : Json → Result SourceManifest :=
  objectOf sourceInvalid "protocol document" true sourceRequired sourceOptional sourceBody

def parseSourceManifest (data : Bytes) : Result SourceManifest := do
  let value ← parseJson data
  sourceManifestOf value

/-! ## The artifact manifest -/

def payloadBody (kind : ArtifactKind) (fields : Dict) : Result PayloadSpec := do
  let root ← requiredField fields "root" (textOf artifactInvalid "payload.root" false parseRelativePath)
  refuse (root.str != "payload") artifactInvalid "payload.root must be 'payload' in protocol v1"
  let format ← requiredField fields "format" (stringField artifactInvalid "payload.format" false)
  refuse (format != payloadFormat kind) artifactInvalid
    (kind.value ++ " requires payload format " ++ pyRepr (payloadFormat kind))
  return ⟨root, format⟩

def payload (kind : ArtifactKind) : Json → Result PayloadSpec :=
  objectOf artifactInvalid "payload" false ["root", "format"] [] (payloadBody kind)

def compatibilityBody (fields : Dict) : Result CompatibilitySpec := do
  let profiles ← requiredField fields "profiles"
    (namedValues artifactInvalid "profile" false (anyName artifactInvalid "profile"))
  let platforms ← requiredField fields "platforms"
    (namedValues artifactInvalid "platform" false (anyName artifactInvalid "platform"))
  return ⟨profiles, platforms⟩

def compatibility : Json → Result CompatibilitySpec :=
  objectOf artifactInvalid "compatibility" false ["profiles", "platforms"] [] compatibilityBody

def installBody (fields : Dict) : Result InstallSpec := do
  let scopes ← requiredField fields "scopes"
    (namedValues artifactInvalid "scope" false (choiceName installScopes InstallScope.value artifactInvalid "scope"))
  let modes ← requiredField fields "modes"
    (namedValues artifactInvalid "mode" false (choiceName installModes InstallMode.value artifactInvalid "mode"))
  let effects ← requiredField fields "effects"
    (namedValues artifactInvalid "effect" false (choiceName installEffects InstallEffect.value artifactInvalid "effect"))
  return ⟨scopes, modes, effects⟩

def install : Json → Result InstallSpec :=
  objectOf artifactInvalid "install" false ["scopes", "modes", "effects"] [] installBody

def setupBody (compatibility : CompatibilitySpec) (fields : Dict) : Result SetupReference := do
  let recipe ← requiredField fields "recipe" (textOf artifactInvalid "setup.recipe" false parseRelativePath)
  refuse (recipe.parts.head? != some "setup") artifactInvalid "setup recipe must be below setup/"
  let platforms ← requiredField fields "platforms"
    (namedValues artifactInvalid "setup platform" false (anyName artifactInvalid "setup platform"))
  refuse (platforms.any (· ∉ compatibility.platforms)) artifactInvalid
    "setup platforms must be a subset of artifact platforms"
  return ⟨recipe, platforms⟩

def setup (compatibility : CompatibilitySpec) : Json → Result SetupReference :=
  objectOf artifactInvalid "setup" false ["recipe", "platforms"] [] (setupBody compatibility)

def artifactSelector : Json → Result ArtifactSelector :=
  objectOf collectionInvalid "artifact selector" false ["type", "name"] ["version"]
    (selectorBody collectionInvalid "selector identity is invalid" collectionInvalid false)

/-- A requirement of the artifact. -/
def requirement (identity : ArtifactIdentity) (value : Json) : Result ArtifactSelector := do
  let selector ← artifactSelector value
  refuse (selector.identity == identity) artifactInvalid "artifact must not require itself"
  return selector

def requirements (identity : ArtifactIdentity) (value : Json) : Result (List ArtifactSelector) := do
  let items ← asArray artifactInvalid "requires must be an array" value
  let selectors ← items.mapM (requirement identity)
  refuse (duplicates (selectors.map (·.identity))) artifactInvalid "requires contains duplicate artifact selectors"
  return sortedBy (fun selector => selector.identity.str) selectors

def homepage (raw : String) : Result String :=
  if safeHttpsUrl raw then .ok raw else error artifactInvalid "homepage must use credential-free HTTPS"

def artifactRequired : List String :=
  ["schema_version", "type", "name", "version", "summary", "payload", "compatibility", "install"]

def artifactOptional : List String := ["setup", "authors", "license", "homepage", "requires_aart", "requires"]

def artifactKind (raw : String) : Result ArtifactKind :=
  match choiceOf Manifest.artifactKinds ArtifactKind.value raw with
  | some kind => .ok kind
  | none => error artifactInvalid ("unsupported artifact type " ++ pyRepr raw)

def artifactBody (fields : Dict) : Result ArtifactManifest := do
  let schemaVersion ← requiredField fields "schema_version" (schemaVersion artifactInvalid)
  let kind ← requiredField fields "type" (textOf artifactInvalid "type" false artifactKind)
  let name ← requiredField fields "name" (textOf artifactInvalid "name" false
    (slug artifactInvalid "artifact name must be a lowercase slug"))
  let version ← requiredField fields "version" (textOf artifactInvalid "version" false parseSemver)
  let summary ← requiredField fields "summary" (stringField artifactInvalid "summary" true)
  let payload ← requiredField fields "payload" (payload kind)
  let compatibility ← requiredField fields "compatibility" compatibility
  let install ← requiredField fields "install" install
  refuse (install.effects.any (· ∉ installEffectsOf kind)) artifactInvalid
    ("install effects are incompatible with artifact type " ++ pyRepr kind.value)
  let requiresAart ← defaultedField fields "requires_aart" {} (boundsField artifactInvalid false)
  let requires ← defaultedField fields "requires" [] (requirements ⟨kind, name⟩)
  let setup ← optionalField fields "setup" (setup compatibility)
  let authors ← defaultedField fields "authors" [] (stringsField artifactInvalid "authors" true)
  let license ← optionalField fields "license" (stringField artifactInvalid "license" true)
  let homepage ← optionalField fields "homepage" (textOf artifactInvalid "homepage" false homepage)
  return { schemaVersion, identity := ⟨kind, name⟩, version, summary, payload, compatibility, install, setup, authors,
           license, homepage, extensions := extensionsOf (artifactRequired ++ artifactOptional) fields, requiresAart,
           requires }

def artifactManifestOf : Json → Result ArtifactManifest :=
  objectOf artifactInvalid "protocol document" true artifactRequired artifactOptional artifactBody

def parseArtifactManifest (data : Bytes) : Result ArtifactManifest := do
  let value ← parseJson data
  artifactManifestOf value

/-! ## Provenance -/

def originFields : List String := ["kind", "url", "resolved_commit", "path", "input_digest"]

def originBody (fields : Dict) : Result OriginProvenance := do
  let kind ← requiredField fields "kind" (stringField provenanceInvalid "origin.kind" false)
  let url ← requiredField fields "url" (stringField provenanceInvalid "origin.url" false)
  let commit ← requiredField fields "resolved_commit" (stringField provenanceInvalid "resolved_commit" false)
  let rawPath ← requiredField fields "path" (stringField provenanceInvalid "origin.path" false)
  refuse (kind != "git" || !safeGitUrl url || !isCommit commit) provenanceInvalid
    "origin must be a pinned credential-free Git source"
  let path ← insteadOf (parseRelativePath rawPath) provenanceInvalid "origin.path must be a safe relative path"
  let inputDigest ← requiredField fields "input_digest" (digestField provenanceInvalid "input_digest" false)
  return ⟨"git", url, commit, path, inputDigest⟩

def origin : Json → Result OriginProvenance := objectOf provenanceInvalid "origin" false originFields [] originBody

def importerFields : List String := ["id", "version", "options_digest"]

/-- All three texts are read before any of them is checked. -/
def importerBody (fields : Dict) : Result ImporterProvenance := do
  let rawId ← requiredField fields "id" (stringField provenanceInvalid "importer.id" false)
  let rawVersion ← requiredField fields "version" (stringField provenanceInvalid "importer.version" false)
  let rawDigest ← requiredField fields "options_digest" (stringField provenanceInvalid "options_digest" false)
  let id ← slug provenanceInvalid "importer.id must be a lowercase slug" rawId
  let version ← insteadOf (parseSemver rawVersion) provenanceInvalid "importer.version must be SemVer"
  let optionsDigest ← insteadOf (Manifest.parseSha256 rawDigest) provenanceInvalid
    "options_digest must be canonical SHA-256"
  return ⟨id, version, optionsDigest⟩

def importer : Json → Result ImporterProvenance :=
  objectOf provenanceInvalid "importer" false importerFields [] importerBody

def provenanceRequired : List String := ["schema_version", "origin", "importer", "warnings"]

def provenanceBody (fields : Dict) : Result Provenance := do
  let schemaVersion ← requiredField fields "schema_version" (schemaVersion provenanceInvalid)
  let origin ← requiredField fields "origin" origin
  let importer ← requiredField fields "importer" importer
  let warnings ← requiredField fields "warnings" (stringsField provenanceInvalid "warnings" true)
  return ⟨schemaVersion, origin, importer, warnings, extensionsOf provenanceRequired fields⟩

def provenanceOf : Json → Result Provenance :=
  objectOf provenanceInvalid "protocol document" true provenanceRequired [] provenanceBody

def parseProvenance (data : Bytes) : Result Provenance := do
  let value ← parseJson data
  provenanceOf value

/-! ## The collection manifest -/

def collectionRequired : List String := ["schema_version", "name", "summary", "artifacts"]

def collectionOptional : List String := ["collections"]

def collectionSelectors (value : Json) : Result (List ArtifactSelector) := do
  let items ← asArray collectionInvalid "artifacts must be an array" value
  let selectors ← items.mapM artifactSelector
  refuse (duplicates (selectors.map fun selector => selector.identity.str)) collectionInvalid
    "collection contains duplicate artifact selectors"
  return sortedBy (fun selector => selector.identity.str) selectors

def collectionBody (fields : Dict) : Result CollectionManifest := do
  let schemaVersion ← requiredField fields "schema_version" (schemaVersion collectionInvalid)
  let rawName ← requiredField fields "name" (stringField collectionInvalid "name" false)
  let summary ← requiredField fields "summary" (stringField collectionInvalid "summary" true)
  let name ← slug collectionInvalid "collection name must be a lowercase slug" rawName
  let artifacts ← requiredField fields "artifacts" collectionSelectors
  let collections ← defaultedField fields "collections" []
    (namedValues collectionInvalid "collection" true collectionName)
  refuse (decide (name ∈ collections)) collectionInvalid "collection must not directly reference itself"
  refuse (artifacts.isEmpty && collections.isEmpty) collectionInvalid "collection must contain at least one member"
  return { schemaVersion, name, summary, artifacts, collections,
           extensions := extensionsOf (collectionRequired ++ collectionOptional) fields }

def collectionManifestOf : Json → Result CollectionManifest :=
  objectOf collectionInvalid "protocol document" true collectionRequired collectionOptional collectionBody

def parseCollectionManifest (data : Bytes) : Result CollectionManifest := do
  let value ← parseJson data
  collectionManifestOf value

/-! ## Writing -/

omit [StandardLibrary]

def sourceTable (manifest : SourceManifest) : Fields :=
  [("schema_version", some (.int manifest.schemaVersion)), ("protocol_version", some (.int manifest.protocolVersion)),
    ("source_id", some (.str manifest.sourceId.value)), ("display_name", some (.str manifest.displayName)),
    ("requires_aart", some (boundsToJson manifest.requiresAart)),
    ("required_capabilities", some (stringArray (manifest.requiredCapabilities.map Capability.value))),
    ("artifact_roots", some (stringArray (manifest.artifactRoots.map SafeRelativePath.str))),
    ("collection_roots", optionalArray (fun root => .str root.str) manifest.collectionRoots)]

def sourceManifestToJson (manifest : SourceManifest) : Json :=
  documentJson (sourceTable manifest) manifest.extensions

def payloadTable (payload : PayloadSpec) : Fields :=
  [("root", some (.str payload.root.str)), ("format", some (.str payload.format))]

def compatibilityTable (compatibility : CompatibilitySpec) : Fields :=
  [("profiles", some (stringArray compatibility.profiles)), ("platforms", some (stringArray compatibility.platforms))]

def installTable (install : InstallSpec) : Fields :=
  [("scopes", some (stringArray (install.scopes.map InstallScope.value))),
    ("modes", some (stringArray (install.modes.map InstallMode.value))),
    ("effects", some (stringArray (install.effects.map InstallEffect.value)))]

def setupTable (setup : SetupReference) : Fields :=
  [("recipe", some (.str setup.recipe.str)), ("platforms", some (stringArray setup.platforms))]

def artifactTable (manifest : ArtifactManifest) : Fields :=
  [("schema_version", some (.int manifest.schemaVersion)), ("type", some (.str manifest.identity.kind.value)),
    ("name", some (.str manifest.identity.name.value)), ("version", some (.str manifest.version.str)),
    ("summary", some (.str manifest.summary)), ("payload", some (jsonObject (payloadTable manifest.payload))),
    ("compatibility", some (jsonObject (compatibilityTable manifest.compatibility))),
    ("install", some (jsonObject (installTable manifest.install))),
    ("setup", manifest.setup.map fun setup => jsonObject (setupTable setup)),
    ("authors", optionalArray .str manifest.authors), ("license", manifest.license.map .str),
    ("homepage", manifest.homepage.map .str), ("requires_aart", optionalBounds manifest.requiresAart),
    ("requires", optionalArray selectorToJson manifest.requires)]

def artifactManifestToJson (manifest : ArtifactManifest) : Json :=
  documentJson (artifactTable manifest) manifest.extensions

def importerTable (importer : ImporterProvenance) : Fields :=
  [("id", some (.str importer.id.value)), ("options_digest", some (.str importer.optionsDigest.str)),
    ("version", some (.str importer.version.str))]

def originTable (origin : OriginProvenance) : Fields :=
  [("input_digest", some (.str origin.inputDigest.str)), ("kind", some (.str origin.kind)),
    ("path", some (.str origin.path.str)), ("resolved_commit", some (.str origin.resolvedCommit)),
    ("url", some (.str origin.url))]

def provenanceTable (provenance : Provenance) : Fields :=
  [("importer", some (jsonObject (importerTable provenance.importer))),
    ("origin", some (jsonObject (originTable provenance.origin))),
    ("schema_version", some (.int provenance.schemaVersion)), ("warnings", some (stringArray provenance.warnings))]

def provenanceToJson (provenance : Provenance) : Json :=
  documentJson (provenanceTable provenance) provenance.extensions

def collectionTable (manifest : CollectionManifest) : Fields :=
  [("artifacts", some (.arr (manifest.artifacts.map selectorToJson))), ("name", some (.str manifest.name.value)),
    ("schema_version", some (.int manifest.schemaVersion)), ("summary", some (.str manifest.summary)),
    ("collections", optionalArray (fun name => .str name.value) manifest.collections)]

def collectionManifestToJson (manifest : CollectionManifest) : Json :=
  documentJson (collectionTable manifest) manifest.extensions

end AgentArtifacts.Native
