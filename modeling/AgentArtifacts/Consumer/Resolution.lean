import AgentArtifacts.InstallState.ManifestBytes
import AgentArtifacts.Library.Exploration
import AgentArtifacts.Registry.Graph

/-!
# Selectors and what they require

An agent names artifacts and collections; the consumer binds the names to
coordinates of the compiled catalog and expands what these require inside their
own source. The expansion is a search with one dictionary whose failures are
collected, so that a partial catalog cannot turn a selection into a partial
installation.
-/

namespace AgentArtifacts.Consumer

open Registry (ArtifactKey ArtifactSelector CollectionCoordinate MarketplaceArtifact MarketplaceCollection lastKeyed?
  mem_of_lastKeyed? lastKeyed?_eq_none lastKeyed?_of_mem sortedBy perm_sortedBy mem_sortedBy)
open Manifest (identity_str_injective slug_eq_of_value)

/-! ## The catalog -/

/-- An item with the whole artifact of its graph; alias and source id are those of its source. -/
structure MarketplaceItem where
  artifact : MarketplaceArtifact
  source : MarketplaceSourceView
  trust : TrustDecision
  aliasBound : artifact.sourceAlias = source.sourceAlias
  sourceBound : source.sourceId = some artifact.artifact.sourceId

def MarketplaceItem.coordinate (item : MarketplaceItem) : ArtifactCoordinate := item.artifact.coordinate

def MarketplaceItem.key (item : MarketplaceItem) : ArtifactKey := item.artifact.key

def MarketplaceItem.requires (item : MarketplaceItem) : List ArtifactSelector := item.artifact.artifact.requires

/-- Items and collections are qualified, and collections list coordinates of items. -/
structure MarketplaceCatalog where
  sources : List MarketplaceSourceView
  items : List MarketplaceItem
  collections : List MarketplaceCollection
  aliasesUnique : (sources.map (·.sourceAlias)).Nodup
  itemsQualified : (items.map (·.key)).Nodup
  itemsBound : ∀ item ∈ items, item.source ∈ sources
  collectionsQualified : (collections.map (·.coordinate)).Nodup
  collectionsBound : ∀ collection ∈ collections, collection.coordinate.source ∈ sources.map (·.sourceAlias)
  membersListed : ∀ collection ∈ collections, ∀ member ∈ collection.members, ∃ item ∈ items, item.coordinate = member

/-- The part of an item that resolution of a query looks at. -/
def MarketplaceItem.summary (item : MarketplaceItem) : AgentArtifacts.MarketplaceItem where
  artifact :=
    { identity := item.artifact.artifact.identity
      version := item.artifact.artifact.version.str
      manifestDigest := item.artifact.artifact.manifestDigest
      payloadDigest := item.artifact.artifact.payloadDigest
      objectDigest := item.artifact.artifact.objectDigest
      provenance := item.artifact.artifact.provenance }
  lifecycle := item.artifact.lifecycle
  source := item.source
  trust := item.trust

def MarketplaceCatalog.summary (catalog : MarketplaceCatalog) : AgentArtifacts.MarketplaceCatalog where
  sources := catalog.sources
  items := catalog.items.map (·.summary)
  itemsQualified := by
    have hkeys : (catalog.items.map (·.summary)).map
        (fun item => (item.source.sourceAlias, item.artifact.identity)) = catalog.items.map (·.key) := by
      rw [List.map_map]
      refine List.map_congr_left fun item _ => ?_
      rw [MarketplaceItem.key, Registry.MarketplaceArtifact.key, item.aliasBound]
      rfl
    rw [hkeys]
    exact catalog.itemsQualified

/-! ## Selectors -/

inductive SelectableKind where
  | artifact (kind : ArtifactKind)
  | collection
deriving DecidableEq

/-- One requested artifact or collection; the source is deliberately optional. -/
structure RequestedSelector where
  kind : SelectableKind
  name : Slug
  source : Option SourceAlias := none
  version : Option String := none
deriving DecidableEq

def collectionNotFound : DiagnosticCode := ⟨"collection-not-found"⟩

def collectionAmbiguous : DiagnosticCode := ⟨"collection-ambiguous"⟩

def dependencyUnavailable : DiagnosticCode := ⟨"dependency-unavailable"⟩

def resolveCollection (catalog : MarketplaceCatalog) (selector : RequestedSelector) : Result (List ArtifactCoordinate) :=
  let found := catalog.collections.filter fun collection =>
    collection.coordinate.name == selector.name &&
      selector.source.all fun source => collection.coordinate.source == source
  match found with
  | [] =>
      let qualification := match selector.source with
        | none => ""
        | some source => " in source " ++ source.value
      error collectionNotFound ("collection " ++ selector.name.value ++ qualification ++ " was not found")
  | [collection] => .ok collection.members
  | collections =>
      let coordinates := sortedBy id (collections.map (·.coordinate.str))
      error collectionAmbiguous ("collection " ++ selector.name.value ++ " is ambiguous; valid coordinates: " ++
        String.intercalate ", " coordinates)

def resolveRequested (catalog : MarketplaceCatalog) (offline : Bool) (selector : RequestedSelector) :
    Result (List ArtifactCoordinate) :=
  match selector.kind with
  | .collection => resolveCollection catalog selector
  | .artifact kind => do
      let item ← resolveArtifact catalog.summary ⟨⟨kind, selector.name⟩, selector.source, selector.version⟩ offline
      return [item.coordinate]

/-! ## The dependency closure -/

def records (catalog : MarketplaceCatalog) : List (ArtifactKey × MarketplaceItem) :=
  catalog.items.map fun item => (item.key, item)

/-- The dependency of an item that a selector names, in the item's own source. -/
def requiredCoordinate (catalog : MarketplaceCatalog) (item : MarketplaceItem) (selector : ArtifactSelector) :
    Except Diagnostic ArtifactCoordinate :=
  let unavailable : Diagnostic := ⟨dependencyUnavailable, item.coordinate.str ++ " requires unavailable dependency " ++
    item.coordinate.source.value ++ "/" ++ selector.identity.str⟩
  match lastKeyed? (records catalog) (item.coordinate.source, selector.identity) with
  | none => .error unavailable
  | some dependency =>
      if selector.allows dependency.artifact.artifact.version then .ok dependency.coordinate else .error unavailable

def includeCoordinate (catalog : MarketplaceCatalog) (coordinate : ArtifactCoordinate) :
    Except Diagnostic (ArtifactCoordinate × List (Except Diagnostic ArtifactCoordinate)) :=
  match lastKeyed? (records catalog) (coordinate.source, coordinate.artifact) with
  | none => .error ⟨dependencyUnavailable, "required artifact is unavailable: " ++ coordinate.str⟩
  | some item =>
      if coordinate.version.all fun version => version == item.artifact.artifact.version.str then
        .ok (item.coordinate, item.requires.map (requiredCoordinate catalog item))
      else .error ⟨dependencyUnavailable, "required artifact version is unavailable: " ++ coordinate.str⟩

/-- A coordinate is looked up by source and artifact; it names the item's version or none. -/
def closureExplorer (catalog : MarketplaceCatalog) :
    Search.Explorer ArtifactCoordinate ArtifactKey ArtifactCoordinate Diagnostic where
  nodes := catalog.items.flatMap fun item => [item.coordinate, { item.coordinate with version := none }]
  key coordinate := (coordinate.source, coordinate.artifact)
  expand := includeCoordinate catalog
  expand_mem := by
    intro coordinate value next h
    unfold includeCoordinate at h
    split at h
    · exact absurd h (by simp)
    · rename_i item hfound
      split at h
      · rename_i hversion
        obtain ⟨other, hitem, hentry⟩ := List.mem_map.mp (mem_of_lastKeyed? hfound)
        obtain ⟨hkey, rfl⟩ := Prod.mk.inj hentry
        obtain ⟨hsource, hartifact⟩ := Prod.mk.inj hkey
        refine List.mem_flatMap.mpr ⟨other, hitem, ?_⟩
        obtain ⟨source, artifact, version⟩ := coordinate
        dsimp only at hsource hartifact
        subst hsource hartifact
        cases version with
        | none => exact List.mem_cons_of_mem _ List.mem_cons_self
        | some version =>
            have hsame : version = other.artifact.artifact.version.str := by simpa using hversion
            rw [hsame]
            exact List.mem_cons_self
      · exact absurd h (by simp)
  cycle trail coordinate :=
    ⟨dependencyUnavailable, "artifact dependency cycle: " ++
      String.intercalate " -> " ((trail ++ [coordinate]).map (·.str))⟩

def dependencyClosure (catalog : MarketplaceCatalog) (requested : List ArtifactCoordinate) :
    Result (List ArtifactCoordinate) :=
  let explored := (closureExplorer catalog).explore requested
  if explored.failures.isEmpty then .ok (sortedBy (·.str) (explored.found.map Prod.snd))
  else .error (sortedBy (·.message) explored.failures)

def resolveSelectors (catalog : MarketplaceCatalog) (selectors : List RequestedSelector) (offline : Bool) :
    Result (List ArtifactCoordinate) :=
  let resolved := selectors.map (resolveRequested catalog offline)
  let failures := resolved.flatMap fun result => match result with
    | .ok _ => []
    | .error diagnostics => diagnostics
  if failures.isEmpty then
    dependencyClosure catalog (sortedBy (·.str) (resolved.flatMap fun result => match result with
      | .ok coordinates => coordinates
      | .error _ => []).dedup)
  else .error failures

/-! ## What an artifact requires -/

/-- One artifact requires another of its own source, which need not be in the catalog. -/
def Requires (catalog : MarketplaceCatalog) (a b : ArtifactKey) : Prop :=
  ∃ item ∈ catalog.items, item.key = a ∧ ∃ selector ∈ item.requires, b = (a.1, selector.identity)

def Reaches (catalog : MarketplaceCatalog) (requested : List ArtifactCoordinate) (key : ArtifactKey) : Prop :=
  ∃ root ∈ requested, Relation.ReflTransGen (Requires catalog) (root.source, root.artifact) key

/-- All that a request reaches is in the catalog, in an allowed version and without a cycle. -/
structure Satisfied (catalog : MarketplaceCatalog) (requested : List ArtifactCoordinate) : Prop where
  present : ∀ key, Reaches catalog requested key → ∃ item ∈ catalog.items, item.key = key
  allowed : ∀ item ∈ catalog.items, Reaches catalog requested item.key → ∀ selector ∈ item.requires,
    ∀ other ∈ catalog.items, other.key = (item.key.1, selector.identity) →
      selector.allows other.artifact.artifact.version = true
  acyclic : ∀ key, Reaches catalog requested key → ¬ Relation.TransGen (Requires catalog) key key

section Lookup

variable {catalog : MarketplaceCatalog}

theorem item_eq_of_key {a b : MarketplaceItem} (ha : a ∈ catalog.items) (hb : b ∈ catalog.items) (h : a.key = b.key) :
    a = b :=
  List.inj_on_of_nodup_map catalog.itemsQualified ha hb h

theorem records_eq_some {key : ArtifactKey} {item : MarketplaceItem} :
    lastKeyed? (records catalog) key = some item ↔ item ∈ catalog.items ∧ item.key = key := by
  constructor
  · intro h
    obtain ⟨other, hitem, hentry⟩ := List.mem_map.mp (mem_of_lastKeyed? h)
    obtain ⟨hkey, rfl⟩ := Prod.mk.inj hentry
    exact ⟨hitem, hkey⟩
  · rintro ⟨hitem, rfl⟩
    refine lastKeyed?_of_mem ?_ (List.mem_map.mpr ⟨item, hitem, rfl⟩)
    rw [records, List.map_map]
    exact catalog.itemsQualified

theorem records_eq_none {key : ArtifactKey} (h : lastKeyed? (records catalog) key = none) :
    ∀ item ∈ catalog.items, item.key ≠ key := by
  rintro item hitem rfl
  rw [records_eq_some.mpr ⟨hitem, rfl⟩] at h
  exact absurd h (by simp)

theorem requiredCoordinate_eq_ok {item : MarketplaceItem} {selector : ArtifactSelector} {coordinate : ArtifactCoordinate} :
    requiredCoordinate catalog item selector = .ok coordinate ↔
      ∃ other ∈ catalog.items, other.key = (item.key.1, selector.identity) ∧
        selector.allows other.artifact.artifact.version = true ∧ other.coordinate = coordinate := by
  have hsource : item.coordinate.source = item.key.1 := rfl
  unfold requiredCoordinate
  rw [hsource]
  dsimp only
  split
  · rename_i hnone
    refine ⟨fun h => absurd h (by simp), ?_⟩
    rintro ⟨other, hother, hkey, _⟩
    exact absurd hkey (records_eq_none hnone other hother)
  · rename_i found hfound
    obtain ⟨hmem, hkey⟩ := records_eq_some.mp hfound
    split
    · rename_i hallows
      constructor
      · intro h
        exact ⟨found, hmem, hkey, hallows, Except.ok.inj h⟩
      · rintro ⟨other, hother, hsame, _, rfl⟩
        rw [item_eq_of_key hmem hother (hkey.trans hsame.symm)]
    · rename_i hallows
      refine ⟨fun h => absurd h (by simp), ?_⟩
      rintro ⟨other, hother, hsame, hallowed, _⟩
      rw [item_eq_of_key hmem hother (hkey.trans hsame.symm)] at hallows
      exact absurd hallowed hallows

/-- The coordinate of an item leads to what the item requires. -/
theorem includeCoordinate_item {item : MarketplaceItem} (hitem : item ∈ catalog.items) :
    includeCoordinate catalog item.coordinate =
      .ok (item.coordinate, item.requires.map (requiredCoordinate catalog item)) := by
  have hfound : lastKeyed? (records catalog) (item.coordinate.source, item.coordinate.artifact) = some item :=
    records_eq_some.mpr ⟨hitem, rfl⟩
  unfold includeCoordinate
  rw [hfound]
  simp [MarketplaceItem.coordinate, Registry.MarketplaceArtifact.coordinate]

end Lookup

end AgentArtifacts.Consumer
