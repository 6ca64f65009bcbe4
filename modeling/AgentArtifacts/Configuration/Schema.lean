import AgentArtifacts.Configuration.Model

/-!
# Configuration documents

The strict readers and the writers of the user configuration and of the organization
policy.
-/

namespace AgentArtifacts.Configuration

open Manifest (Fields jsonObject requiredField optionalField choiceOf slugOf sourceKinds)
open Registry (Capability sortedBy sortedSet)
open Schema (refuse asArray asObject objectOf validateObjectFields defaultedField integerField schemaVersion
  parseCapability stringArray)

def configInvalid : DiagnosticCode := ⟨"config-invalid"⟩

/-! ## Fields -/

def stringField (code : DiagnosticCode) (label : String) : Json → Result String
  | .str value =>
      if value = "" ∨ value ≠ pyStrip value then
        error code (label ++ " must be a non-empty string without outer whitespace")
      else if pyIn "\n" value || pyIn "\r" value then error code (label ++ " must be one line")
      else .ok value
  | _ => error code (label ++ " must be a non-empty string without outer whitespace")

def booleanField (code : DiagnosticCode) (label : String) : Json → Result Bool
  | .bool value => .ok value
  | _ => error code (label ++ " must be a boolean")

/-- A text that `read` takes. -/
def textField {α : Type} (code : DiagnosticCode) (label : String) (read : String → Result α) (value : Json) :
    Result α := do
  let raw ← stringField code label value
  read raw

/-- A member of an enumeration. -/
def choice {α : Type} (all : List α) (text : α → String) (code : DiagnosticCode) (message raw : String) : Result α :=
  match choiceOf all text raw with
  | some found => .ok found
  | none => error code message

def enumField {α : Type} (all : List α) (text : α → String) (code : DiagnosticCode) (label : String) :
    Json → Result α :=
  textField code label (choice all text code (label ++ " has an unsupported value"))

def aliasField (code : DiagnosticCode) (label : String) : Json → Result SourceAlias :=
  textField code label (Schema.slug code (label ++ " must be a lowercase slug"))

def aliasArray (code : DiagnosticCode) (label : String) (value : Json) : Result (List SourceAlias) := do
  let items ← asArray code (label ++ " must be an array") value
  let aliases ← items.mapM (aliasField code (label ++ " item"))
  refuse (decide (¬ aliases.Nodup)) code (label ++ " must not contain duplicate aliases")
  return sortedBy Slug.value aliases

def forbiddenInRef : List String := ["..", "@\x7b", "\\", "~", "^", ":", "?", "*", "["]

/-- `_safe_ref`. -/
def safeRef (raw : String) : Bool :=
  raw != "@" && !startsWith "-" raw && !startsWith "/" raw && !endsWith "/" raw && !endsWith "." raw &&
    !pyIn "//" raw &&
    !(splitChar '/' raw).any (fun part => startsWith "." part || endsWith ".lock" part) &&
    !forbiddenInRef.any (fun item => pyIn item raw) && !raw.toList.any fun c => isSpace c || c.toNat < 32

/-! ## The user configuration -/

section Sources

variable [TextRuntime]

/-- A source as it is entered: its location and its ref are checked, and it is enabled. -/
def configuredSourceFromInput (rawAlias : String) (kind : SourceKind) (location : String) (ref : Option String) :
    Result ConfiguredSource := do
  let sourceAlias ← aliasField configInvalid "source alias" (.str rawAlias)
  match kind with
  | .sourceLocal =>
      refuse ref.isSome configInvalid "local sources do not have Git refs"
      let path ← stringField configInvalid "source path" (.str location)
      refuse (!isAbs path || normPath path != path) configInvalid "local source path must be normalized and absolute"
      return ⟨sourceAlias, kind, path, none, true⟩
  | kind =>
      let url ← stringField configInvalid "source URL" (.str location)
      let ref ← stringField configInvalid "source ref" (.str (ref.getD "main"))
      refuse (gitLocationParts url).isNone configInvalid "source URL must be a safe credential-free Git location"
      refuse (!safeRef ref) configInvalid "source ref is unsafe"
      return ⟨sourceAlias, kind, url, some ref, true⟩

def validateConfiguredSource (source : ConfiguredSource) : Result ConfiguredSource := do
  refuse (source.kind != .sourceLocal && source.ref.isNone) configInvalid "Git sources require a ref"
  let parsed ← configuredSourceFromInput source.sourceAlias.value source.kind source.location source.ref
  return { parsed with enabled := source.enabled }

def localSourceFields : List String := ["alias", "kind", "path", "enabled"]

def localSourceBody (fields : Dict) : Result ConfiguredSource := do
  let sourceAlias ← requiredField fields "alias" (aliasField configInvalid "source alias")
  let enabled ← requiredField fields "enabled" (booleanField configInvalid "source enabled")
  let location ← requiredField fields "path" (stringField configInvalid "source path")
  validateConfiguredSource ⟨sourceAlias, .sourceLocal, location, none, enabled⟩

def gitSourceFields : List String := ["alias", "kind", "url", "enabled"]

/-- A source without a ref is at `main`. -/
def gitSourceBody (kind : SourceKind) (fields : Dict) : Result ConfiguredSource := do
  let sourceAlias ← requiredField fields "alias" (aliasField configInvalid "source alias")
  let enabled ← requiredField fields "enabled" (booleanField configInvalid "source enabled")
  let location ← requiredField fields "url" (stringField configInvalid "source URL")
  let ref ← defaultedField fields "ref" "main" (stringField configInvalid "source ref")
  validateConfiguredSource ⟨sourceAlias, kind, location, some ref, enabled⟩

/-- The kind decides which fields the source has. -/
def source (value : Json) : Result ConfiguredSource := do
  let entries ← asObject configInvalid "source" value
  let kind ← requiredField entries "kind" (enumField sourceKinds SourceKind.value configInvalid "source kind")
  match kind with
  | .sourceLocal => objectOf configInvalid "source" false localSourceFields [] localSourceBody value
  | kind => objectOf configInvalid "source" false gitSourceFields ["ref"] (gitSourceBody kind) value

def checkSources (sources : List ConfiguredSource) : Result Unit := do
  refuse (decide (¬ (sources.map (·.sourceAlias)).Nodup)) configInvalid "source aliases must be unique"
  refuse (decide (¬ ((sources.filter isGit).map originKey).Nodup)) configInvalid
    "each Git source origin and ref pair must be unique"

def sources (value : Json) : Result (List ConfiguredSource) := do
  let items ← asArray configInvalid "sources must be an array" value
  let found ← items.mapM source
  checkSources found
  return found

end Sources

def syncBody (fields : Dict) : Result SyncSettings := do
  let mode ← defaultedField fields "mode" .auto
    (enumField [.auto, .manual] SyncMode.value configInvalid "sync mode")
  let age ← defaultedField fields "max_age_seconds" 900 (integerField configInvalid "sync max age")
  refuse (decide (¬ (0 ≤ age ∧ age ≤ 2 ^ 31 - 1))) configInvalid "sync settings are invalid"
  return ⟨mode, age⟩

def sync : Json → Result SyncSettings :=
  objectOf configInvalid "sync" false [] ["mode", "max_age_seconds"] syncBody

def reportingModes : List ReportingMode := [.disabled, .prompt, .automatic]

def reportingBody (fields : Dict) : Result ReportingSettings := do
  let mode ← defaultedField fields "mode" .prompt
    (enumField reportingModes ReportingMode.value configInvalid "reporting mode")
  let destination ← optionalField fields "destination" (aliasField configInvalid "reporting destination")
  refuse (mode == .automatic && destination.isNone) configInvalid
    "automatic reporting requires an explicit destination"
  return ⟨mode, destination⟩

def reporting : Json → Result ReportingSettings :=
  objectOf configInvalid "reporting" false [] ["mode", "destination"] reportingBody

/-- A registry that is configured and enabled. -/
def isEnabledRegistry (sources : List ConfiguredSource) (sourceAlias : SourceAlias) : Bool :=
  (sources.find? fun source => source.sourceAlias == sourceAlias).any fun source => source.enabled && isRegistry source

/-- A default that is null is no default. -/
def defaultRegistryField (fields : Dict) : Result (Option SourceAlias) :=
  match fields.get? "default_registry" with
  | none => .ok none
  | some .null => .ok none
  | some value => (aliasField configInvalid "default registry" value).map some

def configurationOptional : List String := ["sources", "default_registry", "sync", "reporting"]

section Documents

variable [TextRuntime]

def userConfigurationBody (fields : Dict) : Result UserConfiguration := do
  let _ ← requiredField fields "schema_version" (schemaVersion configInvalid)
  let sources ← defaultedField fields "sources" [] sources
  let sync ← defaultedField fields "sync" {} sync
  let reporting ← defaultedField fields "reporting" {} reporting
  let defaultRegistry ← defaultRegistryField fields
  refuse (defaultRegistry.any fun name => !isEnabledRegistry sources name) configInvalid
    "default registry must name an enabled registry source"
  refuse (reporting.destination.any fun name => !isEnabledRegistry sources name) configInvalid
    "reporting destination must name an enabled registry"
  return userConfiguration sources defaultRegistry sync reporting

/-- A document is an object with the fields it has. -/
def documentOf {α : Type} (code : DiagnosticCode) (required optional : List String) (body : Dict → Result α)
    (value : Json) : Result α :=
  match value with
  | .obj entries => do
      let fields ← validateObjectFields false required optional entries
      body fields
  | _ => error code "configuration document must be a JSON object"

def userConfigurationOf : Json → Result UserConfiguration :=
  documentOf configInvalid ["schema_version"] configurationOptional userConfigurationBody

def parseUserConfiguration [StandardLibrary] (data : Bytes) : Result UserConfiguration := do
  let value ← parseJson data
  userConfigurationOf value

end Documents

/-! ## Writing the user configuration -/

def localSourceTable (source : ConfiguredSource) : Fields :=
  [("alias", some (.str source.sourceAlias.value)), ("enabled", some (.bool source.enabled)),
    ("kind", some (.str source.kind.value)), ("path", some (.str source.location))]

def gitSourceTable (source : ConfiguredSource) : Fields :=
  [("alias", some (.str source.sourceAlias.value)), ("enabled", some (.bool source.enabled)),
    ("kind", some (.str source.kind.value)), ("ref", source.ref.map .str), ("url", some (.str source.location))]

def sourceJson (source : ConfiguredSource) : Json :=
  if source.kind = .sourceLocal then jsonObject (localSourceTable source) else jsonObject (gitSourceTable source)

def syncTable (sync : SyncSettings) : Fields :=
  [("max_age_seconds", some (.int sync.maxAgeSeconds)), ("mode", some (.str sync.mode.value))]

def reportingTable (reporting : ReportingSettings) : Fields :=
  [("mode", some (.str reporting.mode.value)), ("destination", reporting.destination.map fun name => .str name.value)]

def userConfigurationTable (configuration : UserConfiguration) : Fields :=
  [("reporting", some (jsonObject (reportingTable configuration.reporting))), ("schema_version", some (.int 1)),
    ("sources", some (.arr (configuration.sources.map sourceJson))),
    ("sync", some (jsonObject (syncTable configuration.sync))),
    ("default_registry", configuration.defaultRegistry.map fun name => .str name.value)]

def userConfigurationJson (configuration : UserConfiguration) : Json := jsonObject (userConfigurationTable configuration)

def userConfigurationBytes [StandardLibrary] (configuration : UserConfiguration) : Bytes :=
  canonicalJsonBytes (userConfigurationJson configuration)

/-! ## The organization policy -/

/-- The items of a set of texts, each normalized and checked. -/
def optionalStrings (fields : Dict) (name : String) (normalize : String → String) (valid : String → Bool) :
    Result (Option (List String)) :=
  optionalField fields name fun value => do
    let items ← asArray policyInvalid (name ++ " must be an array") value
    let texts ← items.mapM fun item => do
      let raw ← stringField policyInvalid (name ++ " item") item
      refuse (!valid (normalize raw)) policyInvalid (name ++ " contains an unsafe value")
      return normalize raw
    return sortedSet texts

def isRepositoryPrefix (raw : String) : Bool :=
  let path := removeSuffix "/" raw
  endsWith "/" raw && !startsWith "/" raw && normPath path == path &&
    (splitChar '/' path).all fun part => part ∉ ["", ".", ".."]

def policyReportingBody (fields : Dict) : Result ReportingPolicy := do
  let mode ← optionalField fields "mode"
    (enumField reportingModes ReportingMode.value policyInvalid "policy reporting mode")
  let destination ← optionalField fields "destination" (aliasField policyInvalid "policy reporting destination")
  let deny ← defaultedField fields "deny_public_destinations" false
    (booleanField policyInvalid "deny_public_destinations")
  return ⟨mode, destination, deny⟩

def policyReporting : Json → Result ReportingPolicy :=
  objectOf policyInvalid "policy reporting" false [] ["mode", "destination", "deny_public_destinations"]
    policyReportingBody

def trustClasses : List TrustClass := [.unverified, .localTrust, .directSource, .registryReviewed, .companyReviewed]

/-- The capabilities that a policy allows, in order and each once. -/
def allowedCapabilities (value : Json) : Result (List Capability) := do
  let items ← asArray policyInvalid "allowed_setup_capabilities must be an array" value
  let capabilities ← items.mapM (textField policyInvalid "allowed setup capability" parseCapability)
  return sortedBy Capability.value capabilities.dedup

def policyOptional : List String :=
  ["recommended_sources", "required_sources", "allowed_git_hosts", "allowed_repository_prefixes",
    "allow_direct_sources", "minimum_trust_for_user_scope", "allowed_setup_capabilities",
    "allow_custom_setup_entrypoints", "company_reviewed_sources", "reporting"]

section Policy

variable [TextRuntime]

def companySourceBody (fields : Dict) : Result CompanyReviewedSource := do
  let sourceId ← requiredField fields "source_id" (stringField policyInvalid "company source ID")
  let host ← requiredField fields "git_host" (stringField policyInvalid "company Git host")
  let repository ← requiredField fields "repository" (stringField policyInvalid "company repository")
  companyReviewedSource sourceId host repository

def companySource : Json → Result CompanyReviewedSource :=
  objectOf policyInvalid "company-reviewed source" false ["source_id", "git_host", "repository"] [] companySourceBody

def companySources (value : Json) : Result (List CompanyReviewedSource) := do
  let items ← asArray policyInvalid "company_reviewed_sources must be an array" value
  let found ← items.mapM companySource
  refuse (decide (¬ found.Nodup)) policyInvalid "company_reviewed_sources must not contain duplicates"
  return sortedBy CompanyReviewedSource.key found

def organizationPolicyBody (fields : Dict) : Result OrganizationPolicy := do
  let _ ← requiredField fields "schema_version" (schemaVersion policyInvalid)
  let recommended ← defaultedField fields "recommended_sources" [] (aliasArray policyInvalid "recommended_sources")
  let required ← defaultedField fields "required_sources" [] (aliasArray policyInvalid "required_sources")
  let hosts ← optionalStrings fields "allowed_git_hosts" TextRuntime.casefold isGitHost
  let prefixes ← optionalStrings fields "allowed_repository_prefixes" id isRepositoryPrefix
  let company ← defaultedField fields "company_reviewed_sources" [] companySources
  let allowDirect ← optionalField fields "allow_direct_sources" (booleanField policyInvalid "allow_direct_sources")
  let allowCustom ← optionalField fields "allow_custom_setup_entrypoints"
    (booleanField policyInvalid "allow_custom_setup_entrypoints")
  let trust ← optionalField fields "minimum_trust_for_user_scope"
    (textField policyInvalid "minimum_trust_for_user_scope"
      (choice trustClasses TrustClass.value policyInvalid "minimum trust value is unsupported"))
  let capabilities ← optionalField fields "allowed_setup_capabilities" allowedCapabilities
  let reporting ← defaultedField fields "reporting" {} policyReporting
  refuse (recommended.any (· ∈ required)) policyInvalid "recommended and required sources must not overlap"
  return { schemaVersion := 1, recommendedSources := recommended, requiredSources := required, allowedGitHosts := hosts,
           allowedRepositoryPrefixes := prefixes, allowDirectSources := allowDirect, minimumTrustForUserScope := trust,
           allowedSetupCapabilities := capabilities, allowCustomSetupEntrypoints := allowCustom, reporting,
           companyReviewedSources := company }

def organizationPolicyOf : Json → Result OrganizationPolicy :=
  documentOf policyInvalid ["schema_version"] policyOptional organizationPolicyBody

def parseOrganizationPolicy [StandardLibrary] (data : Bytes) : Result OrganizationPolicy := do
  let value ← parseJson data
  organizationPolicyOf value

end Policy

/-! ## Writing the organization policy -/

def companySourceTable (source : CompanyReviewedSource) : Fields :=
  [("git_host", some (.str source.gitHost)), ("repository", some (.str source.repository)),
    ("source_id", some (.str source.sourceId.value))]

def companySourceJson (source : CompanyReviewedSource) : Json := jsonObject (companySourceTable source)

def policyReportingTable (reporting : ReportingPolicy) : Fields :=
  [("deny_public_destinations", some (.bool reporting.denyPublicDestinations)),
    ("mode", reporting.mode.map fun mode => .str mode.value),
    ("destination", reporting.destination.map fun name => .str name.value)]

def organizationPolicyTable (policy : OrganizationPolicy) : Fields :=
  [("company_reviewed_sources", some (.arr (policy.companyReviewedSources.map companySourceJson))),
    ("recommended_sources", some (stringArray (policy.recommendedSources.map Slug.value))),
    ("required_sources", some (stringArray (policy.requiredSources.map Slug.value))), ("schema_version", some (.int 1)),
    ("allowed_git_hosts", policy.allowedGitHosts.map stringArray),
    ("allowed_repository_prefixes", policy.allowedRepositoryPrefixes.map stringArray),
    ("allowed_setup_capabilities",
      policy.allowedSetupCapabilities.map fun capabilities => stringArray (capabilities.map Capability.value)),
    ("allow_direct_sources", policy.allowDirectSources.map .bool),
    ("minimum_trust_for_user_scope", policy.minimumTrustForUserScope.map fun trust => .str trust.value),
    ("allow_custom_setup_entrypoints", policy.allowCustomSetupEntrypoints.map .bool),
    ("reporting", some (jsonObject (policyReportingTable policy.reporting)))]

def organizationPolicyJson (policy : OrganizationPolicy) : Json := jsonObject (organizationPolicyTable policy)

def organizationPolicyBytes [StandardLibrary] (policy : OrganizationPolicy) : Bytes :=
  canonicalJsonBytes (organizationPolicyJson policy)

end AgentArtifacts.Configuration
