import AgentArtifacts.Consumer.Resolution
import AgentArtifacts.Lifecycle.Prepare
import AgentArtifacts.Sources.Model
import Mathlib.Data.Prod.Lex

/-!
# The catalog of a compiled graph

The compiled graph is overlaid with what is known of every enabled source when the catalog is
built. An artifact of the graph needs a source of its alias that still declares its source id.
-/

namespace AgentArtifacts.Consumer

open Registry (ArtifactKey MarketplaceArtifact MarketplaceCollection MarketplaceGraph artifactSortKey lastKeyed? sortedBy)

def marketplaceInvalid : DiagnosticCode := ⟨"marketplace-invalid"⟩

def maxSources : Nat := 1000

def maxItems : Nat := 100000

section Building

variable [StandardLibrary]

/-! ## Sources -/

/-- Health that a state can have: a current source has an age, and what is missing has none. -/
def consistentHealth (health : SourceHealth) : Bool :=
  !(health.status == .missing && health.current.isSome) &&
    !((health.status == .healthy || health.status == .stale || health.status == .notSynchronized) &&
      health.current.isNone) &&
    health.current.isSome == health.ageSeconds.isSome

/-- An enabled source and its health; its current source is the one of its configuration. -/
structure MarketplaceSourceState where
  configured : ConfiguredSource
  health : SourceHealth
  displayOrder : Nat
  enabled : configured.enabled = true
  consistent : consistentHealth health = true
  bound : ∀ current, health.current = some current → current.candidate.sourceAlias = configured.sourceAlias ∧
    sourceInstanceId configured = .ok current.candidate.instanceId

def MarketplaceSourceState.sourceAlias (state : MarketplaceSourceState) : SourceAlias := state.configured.sourceAlias

/-- `_source_view`; where the location of a Git source has no parts, or the origin is no line, it raises. -/
def sourceView (services : PlanningServices) (state : MarketplaceSourceState) : Raising MarketplaceSourceView :=
  match configuredOrigin services state.configured with
  | none => .error "effective Git source location must already be valid"
  | some origin =>
      checked (isRevision origin) "marketplace source view is invalid"
        { sourceAlias := state.configured.sourceAlias
          kind := state.configured.kind
          sourceId := state.health.current.map (·.declaredSourceId)
          origin
          resolvedRevision := state.health.current.map (·.candidate.resolvedRevision)
          snapshotDigest := state.health.current.map (·.candidate.snapshotDigest)
          health := state.health.status
          ageSeconds := state.health.ageSeconds }

/-- The default registry comes first, then the display order. -/
def sourceRank (defaultRegistry : Option SourceAlias) (state : MarketplaceSourceState) : Nat ×ₗ Nat ×ₗ String :=
  toLex (if defaultRegistry = some state.sourceAlias then 0 else 1,
    toLex (state.displayOrder, state.sourceAlias.value))

/-- The states of enabled sources, one for each alias, and what is wrong with the others. -/
def acceptStates (enabled : List (SourceAlias × ConfiguredSource)) :
    List MarketplaceSourceState → List MarketplaceSourceState → List MarketplaceSourceState × List Diagnostic
  | accepted, [] => (accepted, [])
  | accepted, state :: rest =>
      if state.sourceAlias ∈ accepted.map (·.sourceAlias) then
        let (all, diagnostics) := acceptStates enabled accepted rest
        (all, ⟨marketplaceInvalid, "duplicate runtime source state: " ++ state.sourceAlias.value⟩ :: diagnostics)
      else if lastKeyed? enabled state.sourceAlias ≠ some state.configured then
        let (all, diagnostics) := acceptStates enabled accepted rest
        (all, ⟨marketplaceInvalid, "runtime source state does not match enabled configuration: " ++
          state.sourceAlias.value⟩ :: diagnostics)
      else acceptStates enabled (accepted ++ [state]) rest

/-! ## Items -/

/-- The item of an artifact of the graph, with the source of its alias. -/
def catalogItem (views : List MarketplaceSourceView) (trust : MarketplaceArtifact → MarketplaceSourceView → TrustDecision)
    (artifact : MarketplaceArtifact) : Except Diagnostic MarketplaceItem :=
  match views.find? fun view => view.sourceAlias == artifact.sourceAlias with
  | none => .error ⟨marketplaceInvalid, "compiled artifact has no enabled runtime source: " ++ artifact.coordinate.str⟩
  | some view =>
      if h : artifact.sourceAlias = view.sourceAlias ∧ view.sourceId = some artifact.artifact.sourceId then
        .ok ⟨artifact, view, trust artifact view, h.1, h.2⟩
      else
        .error ⟨marketplaceInvalid, "compiled source ID does not match current source for " ++ artifact.coordinate.str⟩

/-- The items of every source, in the order of the sources. -/
def orderedItems (views : List MarketplaceSourceView) (items : List MarketplaceItem) : List MarketplaceItem :=
  views.flatMap fun view => sortedBy (fun item => artifactSortKey item.coordinate)
    (items.filter fun item => item.source.sourceAlias == view.sourceAlias)

/-- The constructor of a catalog. -/
def marketplaceCatalog (sources : List MarketplaceSourceView) (items : List MarketplaceItem)
    (collections : List MarketplaceCollection) : Result MarketplaceCatalog :=
  if haliases : (sources.map (·.sourceAlias)).Nodup then
    if hitems : (items.map (·.key)).Nodup ∧ ∀ item ∈ items, item.source ∈ sources then
      if hcollections : (collections.map (·.coordinate)).Nodup ∧
          (∀ collection ∈ collections, collection.coordinate.source ∈ sources.map (·.sourceAlias)) ∧
          ∀ collection ∈ collections, ∀ member ∈ collection.members, ∃ item ∈ items, item.coordinate = member then
        .ok ⟨sources, items, collections, haliases, hitems.1, hitems.2, hcollections.1, hcollections.2.1,
          hcollections.2.2⟩
      else raised "marketplace catalog collections must be source-bound"
    else raised "marketplace catalog items must be qualified and source-bound"
  else raised "marketplace catalog source aliases must be unique"

/-- `build_marketplace`; the trust of an item is a parameter. -/
def buildMarketplace (services : PlanningServices) (trust : MarketplaceArtifact → MarketplaceSourceView → TrustDecision)
    (graph : MarketplaceGraph) (effective : EffectiveConfiguration) (defaultRegistry : Option SourceAlias)
    (states : List MarketplaceSourceState) : Result MarketplaceCatalog :=
  let enabled := (effective.sources.filter (·.enabled)).map fun source => (source.sourceAlias, source)
  let aliases := (enabled.map Prod.fst).dedup
  if maxSources < aliases.length ∨ maxSources < states.length then
    error marketplaceInvalid "marketplace exceeds the configured source bound"
  else if maxItems < graph.artifacts.length ∨ maxItems < graph.collections.length then
    error marketplaceInvalid "compiled marketplace exceeds the item bound"
  else
    let (accepted, refused) := acceptStates enabled [] states
    let absent := sortedBy (·.value) (aliases.filter fun source => source ∉ accepted.map (·.sourceAlias))
    match (accepted.insertionSort fun a b => sourceRank defaultRegistry a ≤ sourceRank defaultRegistry b).mapM
        (sourceView services) with
    | .error message => raised message
    | .ok views =>
        let found := graph.artifacts.map (catalogItem views trust)
        let diagnostics := refused ++
          absent.map (fun source => ⟨marketplaceInvalid, "enabled source has no runtime state: " ++ source.value⟩) ++
          found.filterMap fun item => match item with
            | .ok _ => none
            | .error diagnostic => some diagnostic
        if diagnostics ≠ [] then .error diagnostics
        else
          marketplaceCatalog views (orderedItems views (found.filterMap (·.toOption)))
            (sortedBy (fun collection => [collection.coordinate.source.value, collection.coordinate.name.value])
              graph.collections)

end Building

end AgentArtifacts.Consumer
