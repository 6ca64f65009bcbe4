import AgentArtifacts.InstallState.Model

/-!
# The marketplace a plan is resolved from

The catalog holds at most one item for each source and artifact, so a query
that names both resolves to the one item a plan was prepared from. The fields
of an indexed artifact that only gate a plan (its compatibility statement, its
setup description) are left to `PlanningServices`.
-/

namespace AgentArtifacts

inductive TrustClass where
  | unverified
  | localTrust
  | directSource
  | registryReviewed
  | companyReviewed
deriving DecidableEq

def TrustClass.value : TrustClass → String
  | .unverified => "unverified"
  | .localTrust => "local"
  | .directSource => "direct-source"
  | .registryReviewed => "registry-reviewed"
  | .companyReviewed => "company-reviewed"

def TrustClass.rank : TrustClass → Nat
  | .unverified => 0
  | .localTrust => 1
  | .directSource => 2
  | .registryReviewed => 3
  | .companyReviewed => 4

inductive HealthStatus where
  | missing
  | healthy
  | stale
  | notSynchronized
  | checkUnavailable
  | degraded
deriving DecidableEq

inductive ArtifactLifecycle where
  | available
  | removed
deriving DecidableEq

/-! ## Items -/

structure IndexProvenance where
  originUrl : String
  resolvedCommit : String
  path : SafeRelativePath
deriving DecidableEq

structure IndexArtifact where
  identity : ArtifactIdentity
  version : String
  manifestDigest : ObjectDigest
  payloadDigest : ObjectDigest
  objectDigest : ObjectDigest
  provenance : Option IndexProvenance := none
deriving DecidableEq

structure MarketplaceSourceView where
  sourceAlias : SourceAlias
  kind : SourceKind
  sourceId : Option SourceId
  origin : String
  resolvedRevision : Option String
  snapshotDigest : Option ObjectDigest
  health : HealthStatus
  ageSeconds : Option Nat
deriving DecidableEq

structure TrustDecision where
  kind : TrustClass
  evidenceDigest : ObjectDigest
deriving DecidableEq

/-- An indexed artifact of one source; the alias of the item is that of its source. -/
structure MarketplaceItem where
  artifact : IndexArtifact
  lifecycle : ArtifactLifecycle := .available
  source : MarketplaceSourceView
  trust : TrustDecision
deriving DecidableEq

def MarketplaceItem.coordinate (item : MarketplaceItem) : ArtifactCoordinate :=
  ⟨item.source.sourceAlias, item.artifact.identity, some item.artifact.version⟩

structure MarketplaceCatalog where
  sources : List MarketplaceSourceView
  items : List MarketplaceItem
  itemsQualified :
    (items.map fun item => (item.source.sourceAlias, item.artifact.identity)).Nodup

/-! ## Configuration -/

structure ConfiguredSource where
  sourceAlias : SourceAlias
  kind : SourceKind
  location : String
  ref : Option String
  enabled : Bool
deriving DecidableEq

structure OrganizationPolicy where
  minimumTrustForUserScope : Option TrustClass := none
deriving DecidableEq

structure EffectiveConfiguration where
  sources : List ConfiguredSource
  policy : OrganizationPolicy
deriving DecidableEq

def configuredSource (effective : EffectiveConfiguration) (sourceAlias : SourceAlias) :
    Option ConfiguredSource :=
  effective.sources.find? fun source => source.sourceAlias == sourceAlias && source.enabled

/-! ## Resolution -/

structure ArtifactQuery where
  identity : ArtifactIdentity
  source : Option SourceAlias := none
  version : Option String := none
deriving DecidableEq

def sourceUnavailable : DiagnosticCode := ⟨"source-unavailable"⟩

def sourceNotSynchronized : DiagnosticCode := ⟨"source-not-synchronized"⟩

def artifactNotFound : DiagnosticCode := ⟨"artifact-not-found"⟩

def artifactAmbiguous : DiagnosticCode := ⟨"artifact-ambiguous"⟩

def resolutionFailure (catalog : MarketplaceCatalog) (query : ArtifactQuery) (offline : Bool) :
    Diagnostic :=
  let scope := match query.source with
    | none => catalog.sources
    | some sourceAlias => catalog.sources.filter fun source => source.sourceAlias == sourceAlias
  let aliases := String.intercalate ", " (scope.map (·.sourceAlias.value))
  if scope.isEmpty then
    ⟨sourceUnavailable, match query.source with
      | none => "no source is configured to resolve " ++ query.identity.str ++ " from"
      | some sourceAlias => "source " ++ sourceAlias.value ++ " is not configured, so " ++
          query.identity.str ++ " cannot be resolved"⟩
  else if scope.all (·.snapshotDigest.isNone) then
    ⟨sourceNotSynchronized,
      if offline then "nothing is cached for " ++ aliases ++ ", and --offline forbids fetching it"
      else "no snapshot has been synchronized from " ++ aliases⟩
  else
    ⟨artifactNotFound, "artifact " ++ query.identity.str ++ (match query.source with
      | none => ""
      | some sourceAlias => " in source " ++ sourceAlias.value) ++ " was not found"⟩

def ArtifactQuery.accepts (query : ArtifactQuery) (item : MarketplaceItem) : Bool :=
  item.lifecycle == .available && item.artifact.identity == query.identity &&
    (match query.source with
      | none => true
      | some sourceAlias => item.source.sourceAlias == sourceAlias) &&
    (match query.version with
      | none => true
      | some version => item.artifact.version == version)

def resolveArtifact (catalog : MarketplaceCatalog) (query : ArtifactQuery) (offline : Bool) :
    Result MarketplaceItem :=
  match catalog.items.filter query.accepts with
  | [] => .error [resolutionFailure catalog query offline]
  | [item] => .ok item
  | items => error artifactAmbiguous ("artifact " ++ query.identity.str ++
      " is ambiguous; valid coordinates: " ++ String.intercalate ", "
        ((items.map (·.coordinate.str)).insertionSort (· ≤ ·)))

theorem resolveArtifact_eq_ok {catalog : MarketplaceCatalog} {query : ArtifactQuery}
    {offline : Bool} {item : MarketplaceItem} (h : resolveArtifact catalog query offline = .ok item) :
    item ∈ catalog.items ∧ query.accepts item = true := by
  unfold resolveArtifact at h
  split at h
  · exact absurd h (by simp)
  · rename_i found hfilter
    have hmem : found ∈ catalog.items.filter query.accepts := by simp [hfilter]
    rw [← Except.ok.inj h]
    exact ⟨List.mem_of_mem_filter hmem, (List.mem_filter.mp hmem).2⟩
  · exact absurd h (by simp [error])

end AgentArtifacts
