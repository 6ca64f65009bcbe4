import AgentArtifacts.Protocol.Schema

/-!
# Registry documents

The strict parsers and the writers of the documents a registry keeps: its manifest,
its entries and its lock.
-/

namespace AgentArtifacts.RegistrySchema

open Manifest (Fields jsonObject requiredField optionalField)
open Registry (Capability ReviewRecord sortedBy)
open Schema

/-! ## Documents -/

structure ServiceAdvertisement where
  name : String
  kind : String
  repository : Option String := none
deriving DecidableEq

structure RegistryManifest where
  schemaVersion : Int
  protocolVersion : Int
  registryId : SourceId
  displayName : String
  requiresAart : VersionBounds
  requiredCapabilities : List Capability
  defaultChannel : String
  services : List ServiceAdvertisement := []
  extensions : Dict := []
deriving DecidableEq

structure GitArtifactReference where
  kind : String
  url : String
  ref : String
  path : SafeRelativePath
deriving DecidableEq

structure RegistryEntry where
  schemaVersion : Int
  identity : ArtifactIdentity
  source : GitArtifactReference
  review : ReviewRecord
  extensions : Dict := []
deriving DecidableEq

structure LockedArtifact where
  originUrl : String
  requestedRef : String
  resolvedCommit : String
  path : SafeRelativePath
  manifestDigest : ObjectDigest
  payloadDigest : ObjectDigest
  objectDigest : ObjectDigest
  artifactVersion : SemVer
  review : ReviewRecord
  provenanceDigest : Option ObjectDigest := none
deriving DecidableEq

structure RegistryLock where
  schemaVersion : Int
  registryInputsDigest : ObjectDigest
  entries : List (ArtifactIdentity × LockedArtifact)
deriving DecidableEq

/-! ## Codes -/

def registryInvalid : DiagnosticCode := ⟨"registry-invalid"⟩

def registryEntryInvalid : DiagnosticCode := ⟨"registry-entry-invalid"⟩

def registryLockInvalid : DiagnosticCode := ⟨"registry-lock-invalid"⟩

/-! ## Texts -/

/-- Lowercase words joined by underscores, the first of which starts with a letter. -/
def isServiceName (name : String) : Bool :=
  match splitChar '_' name with
  | [] => false
  | first :: rest =>
      first.toList.head?.any isLowerLetter && first.toList.all isLowerAlphanumeric &&
        rest.all fun word => word != "" && word.toList.all isLowerAlphanumeric

def isRepositoryPart (part : String) : Bool :=
  part != "" && part.toList.all fun c => c.isAlphanum || c == '_' || c == '.' || c == '-'

/-- `owner/name`. -/
def isRepository (raw : String) : Bool :=
  match splitChar '/' raw with
  | [owner, name] => isRepositoryPart owner && isRepositoryPart name
  | _ => false

def forbiddenInRef : List String := ["..", "@\x7b", "\\", "~", "^", ":", "?", "*", "["]

/-- A Git ref that no Git command takes for anything else. -/
def safeRef (raw : String) : Bool :=
  raw != "" && raw != "@" && !startsWith "-" raw && !startsWith "/" raw && !endsWith "/" raw && !endsWith "." raw &&
    !pyIn "//" raw &&
    !(splitChar '/' raw).any (fun component => startsWith "." component || endsWith ".lock" component) &&
    !forbiddenInRef.any (fun item => pyIn item raw) &&
    !raw.toList.any fun c => isSpace c || c.toNat < 32 || c.toNat == 127

/-! ## Services and reviews -/

def serviceRepository (code : DiagnosticCode) (value : Json) : Result String := do
  let raw ← stringField code "service repository" true value
  refuse (!isRepository raw) code "service repository must be an owner/name coordinate"
  return raw

def serviceBody (code : DiagnosticCode) (name : String) (fields : Dict) : Result ServiceAdvertisement := do
  let kind ← requiredField fields "kind" (stringField code "service kind" true)
  refuse (!isSlug kind) code "service kind must be a lowercase slug"
  let repository ← optionalField fields "repository" (serviceRepository code)
  refuse (kind == "github-issues" && repository.isNone) code "github-issues service requires repository"
  return ⟨name, kind, repository⟩

def service (code : DiagnosticCode) (name : String) (value : Json) : Result ServiceAdvertisement := do
  refuse (!isServiceName name) code ("invalid service name: " ++ pyRepr name)
  objectOf code ("service " ++ name) false ["kind"] ["repository"] (serviceBody code name) value

def services (code : DiagnosticCode) (value : Json) : Result (List ServiceAdvertisement) := do
  let entries ← asObject code "services" value
  let found ← entries.mapM fun entry => service code entry.1 entry.2
  return sortedBy ServiceAdvertisement.name found

def reviewStatuses : List String := ["approved", "pending", "rejected"]

def reviewBody (code : DiagnosticCode) (fields : Dict) : Result ReviewRecord := do
  let status ← requiredField fields "status" (stringField code "review.status" true)
  let policy ← requiredField fields "policy" (stringField code "review.policy" true)
  refuse (decide (status ∉ reviewStatuses) || !isSlug policy) code "review record is invalid"
  return ⟨status, policy⟩

def review (code : DiagnosticCode) : Json → Result ReviewRecord :=
  objectOf code "review" false ["status", "policy"] [] (reviewBody code)

/-! ## Identities -/

def artifactIdentity (fields : Dict) : Result ArtifactIdentity := do
  let kind ← requiredField fields "type" (stringField registryEntryInvalid "type" true)
  let name ← requiredField fields "name" (stringField registryEntryInvalid "name" true)
  identityOf registryEntryInvalid "artifact identity is invalid" kind name

def identityKey (raw : String) (code : DiagnosticCode) : Result ArtifactIdentity :=
  match splitChar '/' raw with
  | [kind, name] => identityOf code ("invalid artifact identity key: " ++ pyRepr raw) kind name
  | _ => error code ("invalid artifact identity key: " ++ pyRepr raw)

/-- Whether a path ends with the kind and the name of the artifact it leads to. -/
def endsWithIdentity (path : SafeRelativePath) (identity : ArtifactIdentity) : Bool :=
  path.parts.drop (path.parts.length - 2) == [identity.kind.value, identity.name.value]

variable [StandardLibrary]

/-! ## The registry manifest -/

def registryRequired : List String :=
  ["schema_version", "protocol_version", "registry_id", "display_name", "requires_aart", "required_capabilities",
    "default_channel", "services"]

def registryBody (fields : Dict) : Result RegistryManifest := do
  let schemaVersion ← requiredField fields "schema_version" (schemaVersion registryInvalid)
  let protocolVersion ← requiredField fields "protocol_version" (integerField registryInvalid "protocol_version")
  let rawId ← requiredField fields "registry_id" (stringField registryInvalid "registry_id" true)
  let displayName ← requiredField fields "display_name" (stringField registryInvalid "display_name" true)
  let requiresAart ← requiredField fields "requires_aart" (boundsField registryInvalid true)
  let names ← requiredField fields "required_capabilities" (stringsField registryInvalid "required_capabilities" true)
  let channel ← requiredField fields "default_channel" (stringField registryInvalid "default_channel" true)
  let services ← requiredField fields "services" (services registryInvalid)
  refuse (protocolVersion != 1) registryInvalid ("unsupported protocol_version " ++ toString protocolVersion)
  let registryId ← slug registryInvalid "registry_id must be a lowercase slug" rawId
  refuse (!safeRef channel) registryInvalid "default_channel must be a safe Git ref"
  let capabilities ← names.mapM parseCapability
  return { schemaVersion, protocolVersion, registryId, displayName, requiresAart,
           requiredCapabilities := sortedBy Capability.value capabilities.dedup, defaultChannel := channel, services,
           extensions := extensionsOf registryRequired fields }

def registryManifestOf : Json → Result RegistryManifest :=
  objectOf registryInvalid "protocol document" true registryRequired [] registryBody

def parseRegistryManifest (data : Bytes) : Result RegistryManifest := do
  let value ← parseJson data
  registryManifestOf value

/-! ## Registry entries -/

def sourceFields : List String := ["kind", "url", "ref", "path"]

def sourceBody (identity : ArtifactIdentity) (fields : Dict) : Result GitArtifactReference := do
  let kind ← requiredField fields "kind" (stringField registryEntryInvalid "source.kind" true)
  let url ← requiredField fields "url" (stringField registryEntryInvalid "source.url" true)
  let ref ← requiredField fields "ref" (stringField registryEntryInvalid "source.ref" true)
  let rawPath ← requiredField fields "path" (stringField registryEntryInvalid "source.path" true)
  refuse (kind != "git" || !safeGitUrl url) registryEntryInvalid "entry source must be a credential-free Git URL"
  refuse (!safeRef ref) registryEntryInvalid "entry source ref is unsafe"
  let path ← parseRelativePath rawPath
  refuse (!endsWithIdentity path identity) registryEntryInvalid
    "entry source path must end with its artifact type/name identity"
  return ⟨"git", url, ref, path⟩

/-- The members of the source, which is known to be an object. -/
def sourceReference (identity : ArtifactIdentity) (entries : Dict) : Result GitArtifactReference := do
  let fields ← validateObjectFields false sourceFields [] entries
  sourceBody identity fields

def entryRequired : List String := ["schema_version", "type", "name", "source", "review"]

/-- The review is read before the members of the source are. -/
def entryBody (fields : Dict) : Result RegistryEntry := do
  let schemaVersion ← requiredField fields "schema_version" (schemaVersion registryEntryInvalid)
  let identity ← artifactIdentity fields
  let entries ← requiredField fields "source" (asObject registryEntryInvalid "source")
  let review ← requiredField fields "review" (review registryEntryInvalid)
  let source ← sourceReference identity entries
  return ⟨schemaVersion, identity, source, review, extensionsOf entryRequired fields⟩

def registryEntryOf : Json → Result RegistryEntry :=
  objectOf registryEntryInvalid "protocol document" true entryRequired [] entryBody

def parseRegistryEntry (data : Bytes) : Result RegistryEntry := do
  let value ← parseJson data
  registryEntryOf value

/-! ## The registry lock -/

def lockedRequired : List String :=
  ["origin_url", "requested_ref", "resolved_commit", "path", "manifest_digest", "payload_digest", "object_digest",
    "artifact_version", "review"]

def lockedOptional : List String := ["provenance_digest"]

def lockedBody (identity : ArtifactIdentity) (fields : Dict) : Result LockedArtifact := do
  let origin ← requiredField fields "origin_url" (stringField registryLockInvalid "origin_url" true)
  let requestedRef ← requiredField fields "requested_ref" (stringField registryLockInvalid "requested_ref" true)
  let commit ← requiredField fields "resolved_commit" (stringField registryLockInvalid "resolved_commit" true)
  let rawPath ← requiredField fields "path" (stringField registryLockInvalid "path" true)
  let manifestDigest ← requiredField fields "manifest_digest" (digestField registryLockInvalid "manifest_digest" true)
  let payloadDigest ← requiredField fields "payload_digest" (digestField registryLockInvalid "payload_digest" true)
  let objectDigest ← requiredField fields "object_digest" (digestField registryLockInvalid "object_digest" true)
  let rawVersion ← requiredField fields "artifact_version" (stringField registryLockInvalid "artifact_version" true)
  let review ← requiredField fields "review" (review registryLockInvalid)
  refuse (!safeGitUrl origin || !safeRef requestedRef) registryLockInvalid "locked source is unsafe"
  refuse (!isCommit commit) registryLockInvalid "resolved_commit must be 40 lowercase hex"
  let path ← parseRelativePath rawPath
  refuse (!endsWithIdentity path identity) registryLockInvalid "locked path identity mismatch"
  let version ← insteadOf (parseSemver rawVersion) registryLockInvalid "artifact_version must be SemVer"
  let provenanceDigest ← optionalField fields "provenance_digest"
    (digestField registryLockInvalid "provenance_digest" true)
  return ⟨origin, requestedRef, commit, path, manifestDigest, payloadDigest, objectDigest, version, review,
    provenanceDigest⟩

def lockedArtifact (identity : ArtifactIdentity) : Json → Result LockedArtifact :=
  objectOf registryLockInvalid "locked entry" false lockedRequired lockedOptional (lockedBody identity)

def lockedEntry (raw : String) (value : Json) : Result (ArtifactIdentity × LockedArtifact) := do
  let identity ← identityKey raw registryLockInvalid
  let locked ← lockedArtifact identity value
  return (identity, locked)

def lockedEntries (value : Json) : Result (List (ArtifactIdentity × LockedArtifact)) := do
  let entries ← asObject registryLockInvalid "entries" value
  let found ← entries.mapM fun entry => lockedEntry entry.1 entry.2
  return sortedBy (fun entry => entry.1.str) found

def lockRequired : List String := ["schema_version", "registry_inputs_digest", "entries"]

def lockBody (fields : Dict) : Result RegistryLock := do
  let schemaVersion ← requiredField fields "schema_version" (schemaVersion registryLockInvalid)
  let inputsDigest ← requiredField fields "registry_inputs_digest"
    (digestField registryLockInvalid "registry_inputs_digest" true)
  let entries ← requiredField fields "entries" lockedEntries
  return ⟨schemaVersion, inputsDigest, entries⟩

def registryLockOf : Json → Result RegistryLock :=
  objectOf registryLockInvalid "protocol document" false lockRequired [] lockBody

def parseRegistryLock (data : Bytes) : Result RegistryLock := do
  let value ← parseJson data
  registryLockOf value

/-! ## Writing -/

omit [StandardLibrary]

def serviceTable (service : ServiceAdvertisement) : Fields :=
  [("kind", some (.str service.kind)), ("repository", service.repository.map .str)]

def servicesToJson (services : List ServiceAdvertisement) : Json :=
  .obj (sortEntries (services.map fun service => (service.name, jsonObject (serviceTable service))))

def reviewTable (review : ReviewRecord) : Fields :=
  [("status", some (.str review.status)), ("policy", some (.str review.policy))]

def reviewToJson (review : ReviewRecord) : Json := jsonObject (reviewTable review)

def registryTable (manifest : RegistryManifest) : Fields :=
  [("schema_version", some (.int manifest.schemaVersion)), ("protocol_version", some (.int manifest.protocolVersion)),
    ("registry_id", some (.str manifest.registryId.value)), ("display_name", some (.str manifest.displayName)),
    ("requires_aart", some (boundsToJson manifest.requiresAart)),
    ("required_capabilities", some (stringArray (manifest.requiredCapabilities.map Capability.value))),
    ("default_channel", some (.str manifest.defaultChannel)), ("services", some (servicesToJson manifest.services))]

def registryManifestToJson (manifest : RegistryManifest) : Json :=
  documentJson (registryTable manifest) manifest.extensions

def referenceTable (source : GitArtifactReference) : Fields :=
  [("kind", some (.str source.kind)), ("url", some (.str source.url)), ("ref", some (.str source.ref)),
    ("path", some (.str source.path.str))]

def entryTable (entry : RegistryEntry) : Fields :=
  [("schema_version", some (.int entry.schemaVersion)), ("type", some (.str entry.identity.kind.value)),
    ("name", some (.str entry.identity.name.value)), ("source", some (jsonObject (referenceTable entry.source))),
    ("review", some (reviewToJson entry.review))]

def registryEntryToJson (entry : RegistryEntry) : Json := documentJson (entryTable entry) entry.extensions

def lockedTable (locked : LockedArtifact) : Fields :=
  [("origin_url", some (.str locked.originUrl)), ("requested_ref", some (.str locked.requestedRef)),
    ("resolved_commit", some (.str locked.resolvedCommit)), ("path", some (.str locked.path.str)),
    ("manifest_digest", some (.str locked.manifestDigest.str)),
    ("payload_digest", some (.str locked.payloadDigest.str)), ("object_digest", some (.str locked.objectDigest.str)),
    ("artifact_version", some (.str locked.artifactVersion.str)), ("review", some (reviewToJson locked.review)),
    ("provenance_digest", locked.provenanceDigest.map fun digest => .str digest.str)]

def lockedEntriesToJson (entries : List (ArtifactIdentity × LockedArtifact)) : Json :=
  .obj (sortEntries (entries.map fun entry => (entry.1.str, jsonObject (lockedTable entry.2))))

def lockTable (lock : RegistryLock) : Fields :=
  [("schema_version", some (.int lock.schemaVersion)),
    ("registry_inputs_digest", some (.str lock.registryInputsDigest.str)),
    ("entries", some (lockedEntriesToJson lock.entries))]

def registryLockToJson (lock : RegistryLock) : Json := jsonObject (lockTable lock)

end AgentArtifacts.RegistrySchema
