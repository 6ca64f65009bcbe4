import AgentArtifacts.Protocol.NativeSchema
import AgentArtifacts.Protocol.RegistrySchema
import AgentArtifacts.Registry.Collections

/-!
# The compiled index

What a maintainer builds of a registry and a consumer reads: the artifacts and the
collections side by side, under the identity of the registry. The reader has its own
copies of the rules of the artifact manifest, and checks the graph again.
-/

namespace AgentArtifacts.RegistrySchema

open Manifest (Fields jsonObject requiredField choiceOf installScopes installModes)
open Native (installEffects installEffectsOf duplicates parseCollectionManifest)
open Registry (Capability CompatibilitySpec InstallSpec InstallEffect IndexSetup ReviewRecord ArtifactSelector
  registryIndexInvalid sortedBy validateRegistryGraph)
open Schema

structure RegistryIndex where
  schemaVersion : Int
  protocolVersion : Int
  registryId : SourceId
  registryInputsDigest : ObjectDigest
  artifacts : List Registry.IndexArtifact
  collections : List Native.CollectionManifest
  services : List ServiceAdvertisement := []
deriving DecidableEq

/-- What the graph is made of; extensions have no part in it. -/
def graphCollection (collection : Native.CollectionManifest) : Registry.CollectionManifest where
  name := collection.name
  summary := collection.summary
  artifacts := collection.artifacts
  collections := collection.collections

/-! ## Names -/

def indexNames (label : String) (allowed : Option (List String)) (allowEmpty : Bool) (value : Json) :
    Result (List String) := do
  let names ← stringsField registryIndexInvalid label allowEmpty value
  refuse (names.any fun name => !isSlug name || allowed.any fun known => decide (name ∉ known)) registryIndexInvalid
    (label ++ " contains an unsupported value")
  return names

/-- Names out of a set, as what they stand for. -/
def indexChoices {α : Type} (label : String) (all : List α) (text : α → String) (value : Json) : Result (List α) := do
  let names ← indexNames label (some (all.map text)) false value
  return names.filterMap (choiceOf all text)

def nullable {α : Type} (parse : Json → Result α) : Json → Result (Option α)
  | .null => .ok none
  | value => (parse value).map some

variable [StandardLibrary]

/-! ## Parts of an artifact -/

def indexSetupFields : List String := ["recipe", "platforms", "capabilities"]

def indexSetupBody (fields : Dict) : Result IndexSetup := do
  let rawRecipe ← requiredField fields "recipe" (stringField registryIndexInvalid "setup.recipe" true)
  let platforms ← requiredField fields "platforms" (indexNames "setup platforms" none false)
  let names ← requiredField fields "capabilities" (stringsField registryIndexInvalid "setup capabilities" true)
  let recipe ← insteadOf (parseRelativePath rawRecipe) registryIndexInvalid "setup recipe must be below setup/"
  refuse (recipe.parts.head? != some "setup") registryIndexInvalid "setup recipe must be below setup/"
  let capabilities ← names.mapM parseCapability
  return ⟨recipe, platforms, sortedBy Capability.value capabilities.dedup⟩

def indexSetup : Json → Result (Option IndexSetup) :=
  nullable (objectOf registryIndexInvalid "setup" false indexSetupFields [] indexSetupBody)

def indexProvenanceFields : List String := ["origin_url", "resolved_commit", "path"]

def indexProvenanceBody (fields : Dict) : Result IndexProvenance := do
  let url ← requiredField fields "origin_url" (stringField registryIndexInvalid "origin_url" true)
  let commit ← requiredField fields "resolved_commit" (stringField registryIndexInvalid "resolved_commit" true)
  let rawPath ← requiredField fields "path" (stringField registryIndexInvalid "provenance.path" true)
  refuse (!safeGitUrl url || !isCommit commit) registryIndexInvalid "provenance must identify pinned Git content"
  let path ← parseRelativePath rawPath
  return ⟨url, commit, path⟩

def indexProvenance : Json → Result (Option IndexProvenance) :=
  nullable (objectOf registryIndexInvalid "provenance" false indexProvenanceFields [] indexProvenanceBody)

def indexSelector : Json → Result ArtifactSelector :=
  objectOf registryIndexInvalid "artifact requirement" false ["type", "name"] ["version"]
    (selectorBody registryEntryInvalid "artifact identity is invalid" registryIndexInvalid true)

def indexRequirement (identity : ArtifactIdentity) (value : Json) : Result ArtifactSelector := do
  let selector ← indexSelector value
  refuse (selector.identity == identity) registryIndexInvalid "artifact must not require itself"
  return selector

def indexRequirements (identity : ArtifactIdentity) (value : Json) : Result (List ArtifactSelector) := do
  let items ← asArray registryIndexInvalid "requires must be an array" value
  let selectors ← items.mapM (indexRequirement identity)
  refuse (duplicates (selectors.map (·.identity))) registryIndexInvalid "requires contains duplicate selectors"
  return sortedBy (fun selector => selector.identity.str) selectors

/-! ## Artifacts -/

def indexArtifactRequired : List String :=
  ["source_id", "type", "name", "version", "summary", "manifest_digest", "payload_digest", "object_digest",
    "compatibility", "install", "setup", "review", "provenance", "collections"]

def indexArtifactOptional : List String := ["requires_aart", "requires"]

def indexArtifactBody (fields : Dict) : Result Registry.IndexArtifact := do
  let rawId ← requiredField fields "source_id" (stringField registryIndexInvalid "source_id" true)
  let identity ← artifactIdentity fields
  let rawVersion ← requiredField fields "version" (stringField registryIndexInvalid "version" true)
  let summary ← requiredField fields "summary" (stringField registryIndexInvalid "summary" true)
  let manifestDigest ← requiredField fields "manifest_digest" (digestField registryIndexInvalid "manifest_digest" true)
  let payloadDigest ← requiredField fields "payload_digest" (digestField registryIndexInvalid "payload_digest" true)
  let objectDigest ← requiredField fields "object_digest" (digestField registryIndexInvalid "object_digest" true)
  let sourceId ← slug registryIndexInvalid "source_id must be a lowercase slug" rawId
  let version ← parseSemver rawVersion
  let requiresAart ← defaultedField fields "requires_aart" {} (boundsField registryIndexInvalid true)
  let requires ← defaultedField fields "requires" [] (indexRequirements identity)
  let compatibilityObject ← requiredField fields "compatibility" (asObject registryIndexInvalid "compatibility")
  let installObject ← requiredField fields "install" (asObject registryIndexInvalid "install")
  let compatibilityFields ← validateObjectFields false ["profiles", "platforms"] [] compatibilityObject
  let installFields ← validateObjectFields false ["scopes", "modes", "effects"] [] installObject
  let profiles ← requiredField compatibilityFields "profiles" (indexNames "profiles" none false)
  let platforms ← requiredField compatibilityFields "platforms" (indexNames "platforms" none false)
  let scopes ← requiredField installFields "scopes" (indexChoices "scopes" installScopes InstallScope.value)
  let modes ← requiredField installFields "modes" (indexChoices "modes" installModes InstallMode.value)
  let effects ← requiredField installFields "effects" (indexChoices "effects" installEffects InstallEffect.value)
  refuse (effects.any (· ∉ installEffectsOf identity.kind)) registryIndexInvalid
    "index install effects are incompatible"
  let setup ← requiredField fields "setup" indexSetup
  let provenance ← requiredField fields "provenance" indexProvenance
  let collections ← requiredField fields "collections" (indexNames "collections" none true)
  let review ← requiredField fields "review" (nullable (review registryIndexInvalid))
  return { sourceId, identity, version, summary, manifestDigest, payloadDigest, objectDigest,
           compatibility := ⟨profiles, platforms⟩, install := ⟨scopes, modes, effects⟩, setup, review, provenance,
           collections, requiresAart, requires }

def indexArtifact : Json → Result Registry.IndexArtifact :=
  objectOf registryIndexInvalid "index artifact" false indexArtifactRequired indexArtifactOptional indexArtifactBody

/-! ## Collections -/

/-- A collection as a document of its own. -/
def withSchema (entries : Dict) : Json := .obj (sortEntries (("schema_version", .int 1) :: entries))

/-- The collection is written out again and read as the document it was compiled of. -/
def indexCollection (value : Json) : Result Native.CollectionManifest := do
  let entries ← asObject registryIndexInvalid "index collection" value
  refuse (decide ("schema_version" ∈ entries.map Prod.fst)) registryIndexInvalid
    "compiled collection must not repeat schema_version"
  insteadOf (parseCollectionManifest (canonicalJsonBytes (withSchema entries))) registryIndexInvalid
    "compiled collection is invalid"

/-! ## The index -/

def indexRequired : List String :=
  ["schema_version", "protocol_version", "registry_id", "registry_inputs_digest", "artifacts", "collections",
    "services"]

def indexKey (artifact : Registry.IndexArtifact) : List String := [artifact.sourceId.value, artifact.identity.str]

def indexBody (fields : Dict) : Result RegistryIndex := do
  let schemaVersion ← requiredField fields "schema_version" (schemaVersion registryIndexInvalid)
  let protocolVersion ← requiredField fields "protocol_version" (integerField registryIndexInvalid "protocol_version")
  let rawId ← requiredField fields "registry_id" (stringField registryIndexInvalid "registry_id" true)
  let inputsDigest ← requiredField fields "registry_inputs_digest"
    (digestField registryIndexInvalid "registry_inputs_digest" true)
  let services ← requiredField fields "services" (services registryIndexInvalid)
  refuse (protocolVersion != 1) registryIndexInvalid "compiled index header is invalid"
  let registryId ← slug registryIndexInvalid "compiled index header is invalid" rawId
  let rawArtifacts ← requiredField fields "artifacts"
    (asArray registryIndexInvalid "index artifacts/collections must be arrays")
  let rawCollections ← requiredField fields "collections"
    (asArray registryIndexInvalid "index artifacts/collections must be arrays")
  let artifacts ← rawArtifacts.mapM indexArtifact
  let collections ← rawCollections.mapM indexCollection
  refuse (duplicates (artifacts.map indexKey) || duplicates (collections.map (·.name))) registryIndexInvalid
    "compiled index contains duplicate identities"
  let graph ← validateRegistryGraph artifacts (collections.map graphCollection)
  refuse (graph != sortedBy indexKey artifacts) registryIndexInvalid
    "compiled index collection memberships do not match its graph"
  return ⟨schemaVersion, protocolVersion, registryId, inputsDigest, sortedBy indexKey artifacts,
    sortedBy (fun collection => collection.name.value) collections, services⟩

def registryIndexOf : Json → Result RegistryIndex :=
  objectOf registryIndexInvalid "protocol document" false indexRequired [] indexBody

def parseRegistryIndex (data : Bytes) : Result RegistryIndex := do
  let value ← parseJson data
  registryIndexOf value

omit [StandardLibrary]

/-- The index of a registry, once its graph is sound. -/
def buildRegistryIndex (manifest : RegistryManifest) (inputsDigest : ObjectDigest) (artifacts : List Registry.IndexArtifact)
    (collections : List Native.CollectionManifest) : Result RegistryIndex := do
  let indexed ← validateRegistryGraph artifacts (collections.map graphCollection)
  return ⟨1, manifest.protocolVersion, manifest.registryId, inputsDigest, indexed,
    sortedBy (fun collection => collection.name.value) collections, manifest.services⟩

/-! ## Writing -/

def compatibilityTable (compatibility : CompatibilitySpec) : Fields :=
  [("profiles", some (stringArray compatibility.profiles)), ("platforms", some (stringArray compatibility.platforms))]

def installTable (install : InstallSpec) : Fields :=
  [("scopes", some (stringArray (install.scopes.map InstallScope.value))),
    ("modes", some (stringArray (install.modes.map InstallMode.value))),
    ("effects", some (stringArray (install.effects.map InstallEffect.value)))]

def setupTable (setup : IndexSetup) : Fields :=
  [("recipe", some (.str setup.recipe.str)), ("platforms", some (stringArray setup.platforms)),
    ("capabilities", some (stringArray (setup.capabilities.map Capability.value)))]

def provenanceTable (provenance : IndexProvenance) : Fields :=
  [("origin_url", some (.str provenance.originUrl)), ("resolved_commit", some (.str provenance.resolvedCommit)),
    ("path", some (.str provenance.path.str))]

def orNull {α : Type} (write : α → Json) : Option α → Json
  | none => .null
  | some value => write value

def indexArtifactTable (artifact : Registry.IndexArtifact) : Fields :=
  [("source_id", some (.str artifact.sourceId.value)), ("type", some (.str artifact.identity.kind.value)),
    ("name", some (.str artifact.identity.name.value)), ("version", some (.str artifact.version.str)),
    ("summary", some (.str artifact.summary)), ("manifest_digest", some (.str artifact.manifestDigest.str)),
    ("payload_digest", some (.str artifact.payloadDigest.str)),
    ("object_digest", some (.str artifact.objectDigest.str)),
    ("compatibility", some (jsonObject (compatibilityTable artifact.compatibility))),
    ("install", some (jsonObject (installTable artifact.install))),
    ("setup", some (orNull (fun setup => jsonObject (setupTable setup)) artifact.setup)),
    ("review", some (orNull reviewToJson artifact.review)),
    ("provenance", some (orNull (fun provenance => jsonObject (provenanceTable provenance)) artifact.provenance)),
    ("collections", some (stringArray artifact.collections)), ("requires_aart", optionalBounds artifact.requiresAart),
    ("requires", optionalArray selectorToJson artifact.requires)]

def indexArtifactToJson (artifact : Registry.IndexArtifact) : Json := jsonObject (indexArtifactTable artifact)

def indexCollectionTable (collection : Native.CollectionManifest) : Fields :=
  [("name", some (.str collection.name.value)), ("summary", some (.str collection.summary)),
    ("artifacts", some (.arr (collection.artifacts.map selectorToJson))),
    ("collections", some (stringArray (collection.collections.map Slug.value)))]

def indexCollectionToJson (collection : Native.CollectionManifest) : Json :=
  documentJson (indexCollectionTable collection) collection.extensions

def indexTable (index : RegistryIndex) : Fields :=
  [("schema_version", some (.int index.schemaVersion)), ("protocol_version", some (.int index.protocolVersion)),
    ("registry_id", some (.str index.registryId.value)),
    ("registry_inputs_digest", some (.str index.registryInputsDigest.str)),
    ("artifacts", some (.arr (index.artifacts.map indexArtifactToJson))),
    ("collections", some (.arr (index.collections.map indexCollectionToJson))),
    ("services", some (servicesToJson index.services))]

def registryIndexToJson (index : RegistryIndex) : Json := jsonObject (indexTable index)

end AgentArtifacts.RegistrySchema
