import AgentArtifacts.Marketplace
import AgentArtifacts.Protocol.Schema

/-!
# Configuration and policy

The values of the user configuration and of the organization policy, and the texts by
which they identify a Git origin. The text functions of the runtime that depend on
Unicode tables or on the grammar of URLs are parameters.
-/

namespace AgentArtifacts.Configuration

open Manifest (slugOf)
open Registry (Capability sortedBy)

/-! ## The runtime -/

/-- What `urlsplit` tells about a location. -/
structure SplitUrl where
  scheme : String
  hostname : Option String
  username : Option String
  password : Option String
  path : String
  query : String
  fragment : String
deriving DecidableEq

/-- `str.casefold` and `urlsplit`; a location that `urlsplit` refuses has no parts. -/
class TextRuntime where
  casefold : String → String
  urlsplit : String → Option SplitUrl

def isHostLetter (c : Char) : Bool := isLowerAlphanumeric c || c == '.' || c == '-'

/-- `[a-z0-9](?:[a-z0-9.-]*[a-z0-9])?`. -/
def isGitHost (host : String) : Bool :=
  host.toList.head?.any isLowerAlphanumeric && host.toList.getLast?.any isLowerAlphanumeric &&
    host.toList.all isHostLetter

/-- Lower-case letters, digits, dots and hyphens are folded to themselves. -/
def FoldsHosts [TextRuntime] : Prop :=
  ∀ text : String, text.toList.all isHostLetter = true → TextRuntime.casefold text = text

/-! ## Settings -/

inductive SyncMode where
  | auto
  | manual
deriving DecidableEq

def SyncMode.value : SyncMode → String
  | .auto => "auto"
  | .manual => "manual"

inductive ReportingMode where
  | disabled
  | prompt
  | automatic
deriving DecidableEq

def ReportingMode.value : ReportingMode → String
  | .disabled => "disabled"
  | .prompt => "prompt"
  | .automatic => "automatic"

structure SyncSettings where
  mode : SyncMode := .auto
  maxAgeSeconds : Int := 900
deriving DecidableEq

structure ReportingSettings where
  mode : ReportingMode := .prompt
  destination : Option SourceAlias := none
deriving DecidableEq

structure UserConfiguration where
  schemaVersion : Int
  sources : List ConfiguredSource
  defaultRegistry : Option SourceAlias
  sync : SyncSettings
  reporting : ReportingSettings
deriving DecidableEq

structure ReportingPolicy where
  mode : Option ReportingMode := none
  destination : Option SourceAlias := none
  denyPublicDestinations : Bool := false
deriving DecidableEq

/-! ## Git locations -/

/-- `str.removesuffix`. -/
def removeSuffix (tail text : String) : String :=
  if endsWith tail text then String.ofList (text.toList.take (text.toList.length - tail.toList.length)) else text

/-- `str.lstrip`. -/
def pyLstrip (c : Char) (text : String) : String := String.ofList (text.toList.dropWhile (· == c))

/-- The check of `_valid_repository_path`, after the suffix is gone. -/
def isRepositoryPath (path : String) : Bool :=
  path != "" && !endsWith "/" path && !(splitChar '/' path).any (fun part => part ∈ ["", ".", ".."]) &&
    !path.toList.any (fun c => c == '\\' || c == '%') && !path.toList.any fun c => isSpace c || c.toNat < 32

/-- `_valid_repository_path`. -/
def validRepositoryPath (raw : String) : Option String :=
  let path := removeSuffix ".git" (pyLstrip '/' raw)
  if isRepositoryPath path then some path else none

/-- `git@host:path`, with a host of letters, digits, dots and hyphens. -/
def scpParts (location : String) : Option (String × String) :=
  if startsWith "git@" location then
    let rest := (removePrefix "git@" location).toList
    let host := rest.takeWhile Schema.isHostChar
    match rest.dropWhile Schema.isHostChar with
    | ':' :: path =>
        if host.isEmpty || path.isEmpty || path.any fun c => isSpace c || c == '?' || c == '#' then none
        else some (String.ofList host, String.ofList path)
    | _ => none
  else none

section Runtime

variable [TextRuntime]

open TextRuntime (casefold urlsplit)

/-- Host and path of a URL without credentials, a query or a fragment. -/
def urlParts (parsed : SplitUrl) : Option (String × String) :=
  match parsed.hostname with
  | none => none
  | some hostname =>
      if parsed.scheme ∉ ["https", "ssh"] || hostname == "" then none
      else if parsed.password.isSome || parsed.query != "" || parsed.fragment != "" then none
      else if parsed.scheme == "https" && parsed.username.isSome then none
      else if parsed.scheme == "ssh" && decide (parsed.username ∉ [none, some "git"]) then none
      else (validRepositoryPath parsed.path).map fun path => (casefold hostname, path)

/-- `git_location_parts`. -/
def gitLocationParts (location : String) : Option (String × String) :=
  match scpParts location with
  | some (host, raw) => (validRepositoryPath raw).map fun path => (casefold host, path)
  | none => (urlsplit location).bind urlParts

/-- `git_origin_key`. -/
def gitOriginKey (kind : SourceKind) (location : String) : List String :=
  match gitLocationParts location with
  | some (host, path) => [kind.value, host, path]
  | none => [kind.value, location]

/-- What no two configured Git sources share. -/
def originKey (source : ConfiguredSource) : List String :=
  gitOriginKey source.kind source.location ++ [source.ref.getD ""]

end Runtime

def isGit (source : ConfiguredSource) : Bool := source.kind != .sourceLocal

def isRegistry (source : ConfiguredSource) : Bool := source.kind == .registryGit

/-- The constructor of the configuration orders the sources; what else it checks its
reader has checked. -/
def userConfiguration (sources : List ConfiguredSource) (defaultRegistry : Option SourceAlias) (sync : SyncSettings)
    (reporting : ReportingSettings) : UserConfiguration :=
  ⟨1, sortedBy (fun source => source.sourceAlias.value) sources, defaultRegistry, sync, reporting⟩

/-! ## Policy -/

/-- The registry that an organization designates, under whatever alias it is configured. -/
structure CompanyReviewedSource where
  sourceId : SourceId
  gitHost : String
  repository : String
  host_valid : isGitHost gitHost = true
  repository_valid : isRepositoryPath repository = true
deriving DecidableEq

/-- The order of the fields. -/
def CompanyReviewedSource.key (source : CompanyReviewedSource) : List String :=
  [source.sourceId.value, source.gitHost, source.repository]

def policyInvalid : DiagnosticCode := ⟨"policy-invalid"⟩

/-- The constructor folds the host and takes one suffix off the repository. -/
def companyReviewedSource [TextRuntime] (rawId rawHost rawRepository : String) : Result CompanyReviewedSource :=
  let refused := error policyInvalid "company-reviewed source identity is invalid"
  if startsWith "/" rawRepository || rawRepository.toList.any fun c => c == '?' || c == '#' then refused
  else
    let host := TextRuntime.casefold rawHost
    let repository := removeSuffix ".git" (pyLstrip '/' rawRepository)
    match slugOf rawId with
    | none => refused
    | some sourceId =>
        if h : isGitHost host = true ∧ isRepositoryPath repository = true then
          .ok ⟨sourceId, host, repository, h.1, h.2⟩
        else refused

structure OrganizationPolicy where
  schemaVersion : Int
  recommendedSources : List SourceAlias := []
  requiredSources : List SourceAlias := []
  allowedGitHosts : Option (List String) := none
  allowedRepositoryPrefixes : Option (List String) := none
  allowDirectSources : Option Bool := none
  minimumTrustForUserScope : Option TrustClass := none
  allowedSetupCapabilities : Option (List Capability) := none
  allowCustomSetupEntrypoints : Option Bool := none
  reporting : ReportingPolicy := {}
  companyReviewedSources : List CompanyReviewedSource := []
deriving DecidableEq

end AgentArtifacts.Configuration
