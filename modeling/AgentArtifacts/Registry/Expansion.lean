import AgentArtifacts.Registry.History

/-!
# The two expansions of collections

The index of a registry and the graph of the marketplace expand the collections of
one source alike: they accept the same collections, and an artifact is a member of
a collection in the graph exactly when the index derives the collection's name for
it, which is when the collection contains it.
-/

namespace AgentArtifacts.Registry

/-! ## Lookups -/

section Lookups

variable {α β : Type} [DecidableEq α]

theorem mem_of_mem_entryValues {entries : List (α × β)} {value : β} (h : value ∈ entryValues entries) :
    ∃ key, (key, value) ∈ entries := by
  obtain ⟨key, _, hkey⟩ := List.mem_filterMap.mp h
  exact ⟨key, mem_of_lastKeyed? hkey⟩

/-- Where entries of one key agree, none of their values is lost. -/
theorem mem_entryValues {entries : List (α × β)} {key : α} {value : β} (hmem : (key, value) ∈ entries)
    (hagree : ∀ other, (key, other) ∈ entries → other = value) : value ∈ entryValues entries := by
  refine List.mem_filterMap.mpr ⟨key, List.mem_dedup.mpr (List.mem_map.mpr ⟨_, hmem, rfl⟩), ?_⟩
  cases hfound : lastKeyed? entries key with
  | none => exact absurd hmem (lastKeyed?_eq_none hfound)
  | some other => rw [hagree other (mem_of_lastKeyed? hfound)]

end Lookups

theorem repeatedItems_eq_nil {α κ : Type} [DecidableEq κ] {key : α → κ} {seen : List κ} {items : List α}
    (hnew : ∀ item ∈ items, key item ∉ seen) (hkeys : (items.map key).Nodup) : repeatedItems key seen items = [] := by
  induction items generalizing seen with
  | nil => rfl
  | cons item rest ih =>
      obtain ⟨hfresh, hrest⟩ := List.nodup_cons.mp hkeys
      rw [repeatedItems, if_neg (hnew item List.mem_cons_self)]
      refine ih (fun other hother hmem => ?_) hrest
      rcases List.mem_cons.mp hmem with heq | hmem
      · exact hfresh (List.mem_map.mpr ⟨other, hother, heq⟩)
      · exact hnew other (List.mem_cons_of_mem _ hother) hmem

/-! ## The members of a marketplace collection -/

section Members

variable {sources : List GraphSource} {entries : List (ArtifactKey × MarketplaceArtifact)}

/-- The own members of a collection are the coordinates of what it selects. -/
theorem graph_own_members {coordinate : CollectionCoordinate} {manifest : CollectionManifest}
    {own : List (ArtifactKey × ArtifactCoordinate)}
    (h : manifest.artifacts.mapM ((graphCollections sources entries).select coordinate) = .ok own)
    (member : ArtifactKey × ArtifactCoordinate) :
    member ∈ own ↔ ∃ selector ∈ manifest.artifacts, ∃ item,
      lastKeyed? entries (coordinate.source, selector.identity) = some item ∧
        member = ((coordinate.source, selector.identity), item.coordinate) := by
  constructor
  · intro hmem
    obtain ⟨selector, hselector, hok⟩ := exists_of_forall₂_mem (Result.forall₂_of_mapM_ok h) hmem
    obtain ⟨item, hitem, _, heq⟩ := CollectionSpec.select_ok_iff.mp hok
    exact ⟨selector, hselector, item, hitem, heq.symm⟩
  · rintro ⟨selector, hselector, item, hitem, rfl⟩
    obtain ⟨member, hmember, hok⟩ := Result.ok_of_mapM_ok h hselector
    obtain ⟨other, hother, _, heq⟩ := CollectionSpec.select_ok_iff.mp hok
    have hsame : some other = some item := hother.symm.trans hitem
    obtain rfl := Option.some.inj hsame
    rw [← heq] at hmember
    exact hmember

/-- The coordinates of the artifacts that a collection contains. -/
def IsMember (sources : List GraphSource) (entries : List (ArtifactKey × MarketplaceArtifact))
    (coordinate : CollectionCoordinate) (member : ArtifactCoordinate) : Prop :=
  ∃ identity item, (graphCollections sources entries).Contains coordinate identity ∧
    lastKeyed? entries (coordinate.source, identity) = some item ∧ member = item.coordinate

/-- A finished collection has the coordinates of what it contains. -/
theorem graph_value_members (hkeys : ((graphCollections sources entries).manifests.map Prod.fst).Nodup)
    (hsound : EntriesSound entries) {memo : List (CollectionCoordinate × List ArtifactCoordinate)}
    (hfinished : (collectionVisitor (graphCollections sources entries)).Finished memo)
    {coordinate : CollectionCoordinate} {members : List ArtifactCoordinate} (hmem : (coordinate, members) ∈ memo)
    (member : ArtifactCoordinate) : member ∈ members ↔ IsMember sources entries coordinate member := by
  refine (hfinished.induction_on
    (P := fun coordinate members => ∀ member, member ∈ members ↔ IsMember sources entries coordinate member)
    ?_ hmem) member
  intro node own next values hexpand hvalues member
  obtain ⟨manifest, hmanifest, hown, rfl⟩ := CollectionSpec.expand_ok hexpand
  have hcontains := CollectionSpec.contains_iff hkeys hmanifest
  -- Every entry of the mapping is the coordinate that its key has among the artifacts.
  have hentry {key : ArtifactKey} {value : ArtifactCoordinate}
      (h : (key, value) ∈ own ++ values.flatten.map fun item => ((item.source, item.artifact), item)) :
      ∃ item, lastKeyed? entries key = some item ∧ value = item.coordinate ∧
        key.1 = node.source ∧ (graphCollections sources entries).Contains node key.2 := by
    rcases List.mem_append.mp h with hold | hnested
    · obtain ⟨selector, hselector, item, hitem, heq⟩ := (graph_own_members hown _).mp hold
      obtain ⟨rfl, rfl⟩ := Prod.mk.inj heq
      exact ⟨item, hitem, rfl, rfl, (hcontains _).mpr (Or.inl ⟨selector, hselector, rfl⟩)⟩
    · obtain ⟨found, hfound, heq⟩ := List.mem_map.mp hnested
      obtain ⟨rfl, rfl⟩ := Prod.mk.inj heq
      obtain ⟨part, hpart, hin⟩ := List.mem_flatten.mp hfound
      obtain ⟨inner, hinner, hequiv⟩ := exists_of_forall₂_mem hvalues hpart
      obtain ⟨name, hname, rfl⟩ := List.mem_map.mp hinner
      obtain ⟨identity, item, hinside, hitem, rfl⟩ := (hequiv found).mp hin
      have hkey : item.key = (node.source, identity) := (hsound _ (mem_of_lastKeyed? hitem)).1
      obtain ⟨hsource, hidentity⟩ := Prod.mk.inj hkey
      refine ⟨item, ?_, rfl, hsource, ?_⟩
      · show lastKeyed? entries (item.sourceAlias, item.artifact.identity) = some item
        rw [hsource, hidentity]
        exact hitem
      · show (graphCollections sources entries).Contains node item.artifact.identity
        rw [hidentity]
        exact (hcontains identity).mpr (Or.inr ⟨name, hname, hinside⟩)
  show member ∈ sortedBy artifactSortKey (entryValues _) ↔ _
  rw [mem_sortedBy]
  constructor
  · intro h
    obtain ⟨⟨source, identity⟩, hkey⟩ := mem_of_mem_entryValues h
    obtain ⟨item, hitem, hvalue, hsource, hin⟩ := hentry hkey
    obtain rfl : source = node.source := hsource
    exact ⟨identity, item, hin, hitem, hvalue⟩
  · rintro ⟨identity, item, hin, hitem, rfl⟩
    have hagree (other : ArtifactCoordinate) (hother : ((node.source, identity), other) ∈
        own ++ values.flatten.map fun item => ((item.source, item.artifact), item)) : other = item.coordinate := by
      obtain ⟨found, hfound, hvalue, _⟩ := hentry hother
      rw [hitem] at hfound
      rw [hvalue, ← Option.some.inj hfound]
    refine mem_entryValues (List.mem_append.mpr ?_) hagree
    rcases (hcontains identity).mp hin with ⟨selector, hselector, rfl⟩ | ⟨name, hname, hinner⟩
    · exact Or.inl ((graph_own_members hown _).mpr ⟨selector, hselector, item, hitem, rfl⟩)
    · refine Or.inr (List.mem_map.mpr ⟨item.coordinate, List.mem_flatten.mpr ?_, ?_⟩)
      · obtain ⟨part, hpart, hequiv⟩ := exists_of_forall₂_mem
          (List.Forall₂.flip (R := fun members coordinate => ∀ member, member ∈ members ↔
            IsMember sources entries coordinate member) hvalues)
          (List.mem_map.mpr ⟨name, hname, rfl⟩)
        exact ⟨part, hpart, (hequiv item.coordinate).mpr ⟨identity, item, hinner, hitem, rfl⟩⟩
      · have hkey : item.key = (node.source, identity) := (hsound _ (mem_of_lastKeyed? hitem)).1
        exact Prod.ext hkey rfl

end Members

/-! ## Compilation of one source -/

/-- Artifacts of a source without duplicates are entered one after the other. -/
theorem compileArtifacts_distinct {source : GraphSource} {artifacts : List IndexArtifact} {state : CompileState}
    (hsource : ∀ artifact ∈ artifacts, artifact.sourceId = source.sourceId)
    (hdistinct : (artifacts.map (·.identity)).Nodup)
    (hnew : ∀ artifact ∈ artifacts, (source.sourceAlias, artifact.identity) ∉ state.artifacts.map Prod.fst) :
    artifacts.foldl (compileArtifact source) state =
      { state with
        artifacts := state.artifacts ++ artifacts.map fun artifact =>
          ((source.sourceAlias, artifact.identity), marketplaceArtifact source artifact) } := by
  induction artifacts generalizing state with
  | nil => simp
  | cons artifact rest ih =>
      obtain ⟨hfresh, hrest⟩ := List.nodup_cons.mp hdistinct
      have hstep : compileArtifact source state artifact =
          { state with
            artifacts := state.artifacts ++
              [((source.sourceAlias, artifact.identity), marketplaceArtifact source artifact)] } := by
        unfold compileArtifact
        rw [if_neg (by simpa using hsource artifact List.mem_cons_self), if_neg (hnew artifact List.mem_cons_self)]
      rw [List.foldl_cons, hstep, ih (fun other hother => hsource other (List.mem_cons_of_mem _ hother)) hrest]
      · simp
      · intro other hother
        simp only [List.map_append, List.mem_append, not_or]
        refine ⟨hnew other (List.mem_cons_of_mem _ hother), ?_⟩
        simp only [List.map_cons, List.map_nil, List.mem_singleton, Prod.mk.injEq, true_and]
        exact fun heq => hfresh (List.mem_map.mpr ⟨other, hother, heq⟩)

/-- The entries of a source. -/
def sourceEntries (source : GraphSource) : List (ArtifactKey × MarketplaceArtifact) :=
  source.artifacts.map fun artifact => ((source.sourceAlias, artifact.identity), marketplaceArtifact source artifact)

theorem sourceEntries_sound (source : GraphSource) : EntriesSound (sourceEntries source) := by
  intro entry hentry
  obtain ⟨artifact, _, rfl⟩ := List.mem_map.mp hentry
  exact ⟨rfl, rfl⟩

theorem nodup_sourceEntries {source : GraphSource} (h : (source.artifacts.map (·.identity)).Nodup) :
    ((sourceEntries source).map Prod.fst).Nodup := by
  have hpairs := h.map (f := fun identity => (source.sourceAlias, identity))
    (fun _ _ heq => (Prod.mk.inj heq).2)
  simpa [sourceEntries, Function.comp_def] using hpairs

/-- What is asked of a source that is compiled alone. -/
structure Admissible (source : GraphSource) (available : List Capability) : Prop where
  capabilities : ∀ capability ∈ source.requiredCapabilities, capability ∈ available
  sourceIds : ∀ artifact ∈ source.artifacts, artifact.sourceId = source.sourceId
  identities : (source.artifacts.map (·.identity)).Nodup
  names : (source.collections.map (·.name)).Nodup

section SingleSource

variable {source : GraphSource} {available : List Capability}

theorem compileSource_single (h : Admissible source available) :
    (compileSource available {} source).diagnostics = [] ∧
      (compileSource available {} source).artifacts = sourceEntries source := by
  have hmissing : source.requiredCapabilities.filter (fun capability => capability ∉ available) = [] := by
    rw [List.filter_eq_nil_iff]
    intro capability hcapability
    simpa using h.capabilities capability hcapability
  have hentered : enterSource available source {} =
      { aliases := [source.sourceAlias], sourceIds := [source.sourceId] } := by
    unfold enterSource
    simp only [List.not_mem_nil, if_false, hmissing, if_true]
  unfold compileSource
  rw [hentered, compileArtifacts_distinct h.sourceIds h.identities (by simp)]
  exact ⟨rfl, rfl⟩

theorem collectionEntries_single (source : GraphSource) :
    collectionEntries [source] =
      source.collections.map fun manifest => (⟨source.sourceAlias, manifest.name⟩, manifest) := by
  simp [collectionEntries]

theorem nodup_collectionEntries (h : Admissible source available) :
    ((collectionEntries [source]).map Prod.fst).Nodup := by
  have hpairs := h.names.map (f := fun name => (⟨source.sourceAlias, name⟩ : CollectionCoordinate))
    (fun _ _ heq => (CollectionCoordinate.mk.inj heq).2)
  simpa [collectionEntries_single, Function.comp_def] using hpairs

/-- The coordinates of the collections in the order of their expansion. -/
def collectionRoots (source : GraphSource) : List CollectionCoordinate :=
  sortedBy (fun coordinate => [coordinate.source.value, coordinate.name.value])
    ((collectionEntries [source]).map Prod.fst)

theorem compileCollections_single (h : Admissible source available)
    (entries : List (ArtifactKey × MarketplaceArtifact)) :
    compileCollections [source] entries = do
      let (members, _) ← (collectionVisitor (graphCollections [source] entries)).visitAll [] []
        (collectionRoots source)
      return ((collectionRoots source).zip members).map fun entry =>
        marketplaceCollection entry.1
          (((lastKeyed? (collectionEntries [source]) entry.1).map (·.summary)).getD "") entry.2 := by
  have hnone : repeatedItems Prod.fst [] (collectionEntries [source]) = [] :=
    repeatedItems_eq_nil (by simp) (nodup_collectionEntries h)
  unfold compileCollections
  simp only [hnone]
  rfl

theorem mem_collectionRoots {entries : List (ArtifactKey × MarketplaceArtifact)} (coordinate : CollectionCoordinate) :
    coordinate ∈ collectionRoots source ↔
      coordinate ∈ (graphCollections [source] entries).manifests.map Prod.fst :=
  mem_sortedBy

theorem map_fst_zip_roots {members : List (List ArtifactCoordinate)} {related : CollectionCoordinate →
    List ArtifactCoordinate → Prop} (h : List.Forall₂ related (collectionRoots source) members) :
    ((collectionRoots source).zip members).map Prod.fst = collectionRoots source :=
  List.map_fst_zip (Nat.le_of_eq h.length_eq)

variable [StandardLibrary]

/-- Past its checks, the compilation of one source without a history is the search. -/
theorem compileMarketplaceGraph_single (h : Admissible source available) :
    compileMarketplaceGraph [source] available none =
      (compileCollections [source] (sourceEntries source)).bind fun collections =>
        marketplaceGraph ((sourceEntries source).map Prod.snd) collections [] := by
  obtain ⟨hquiet, hentries⟩ := compileSource_single h
  unfold compileMarketplaceGraph
  rw [show sortedBy (·.sourceAlias.value) [source] = [source] from rfl]
  simp only [List.foldl_cons, List.foldl_nil, hquiet, ne_eq, not_true_eq_false, if_false, hentries, history]
  rfl

theorem compileMarketplaceGraph_ok_iff (h : Admissible source available) :
    (∃ graph, compileMarketplaceGraph [source] available none = .ok graph) ↔
      (graphCollections [source] (sourceEntries source)).Closed := by
  rw [compileMarketplaceGraph_single h, compileCollections_single h,
    ← visitAll_collections_ok_iff (nodup_collectionEntries h) mem_collectionRoots]
  constructor
  · rintro ⟨graph, hgraph⟩
    obtain ⟨collections, hcollections, _⟩ := Result.of_bind_ok hgraph
    obtain ⟨result, hresult, _⟩ := Result.of_bind_ok hcollections
    exact ⟨result, hresult⟩
  · rintro ⟨⟨members, memo⟩, hresult⟩
    have hvalues := (Search.Visitor.visitAll_finished hresult).2
    have hartifacts : (((sourceEntries source).map Prod.snd).map (·.key)).Nodup := by
      have hkeys := nodup_sourceEntries h.identities
      simpa [sourceEntries, Function.comp_def] using hkeys
    have hcoordinates : ((((collectionRoots source).zip members).map fun entry =>
        marketplaceCollection entry.1
          (((lastKeyed? (collectionEntries [source]) entry.1).map (·.summary)).getD "") entry.2).map
        (·.coordinate)).Nodup := by
      have hroots : (collectionRoots source).Nodup :=
        (perm_sortedBy _ _).nodup_iff.mpr (nodup_collectionEntries h)
      rw [List.map_map]
      rw [← map_fst_zip_roots hvalues] at hroots
      exact hroots
    rw [show (collectionVisitor (graphCollections [source] (sourceEntries source))).visitAll [] []
      (collectionRoots source) = .ok (members, memo) from hresult]
    exact ⟨_, by
      show marketplaceGraph _ _ [] = _
      unfold marketplaceGraph
      rw [dif_pos hartifacts, dif_pos hcoordinates]⟩

/-- The collections of the graph are those of the source, each with the coordinates of what
it contains. -/
theorem compileMarketplaceGraph_members (h : Admissible source available) {graph : MarketplaceGraph}
    (hgraph : compileMarketplaceGraph [source] available none = .ok graph) :
    (∀ coordinate, coordinate ∈ graph.collections.map (·.coordinate) ↔ coordinate ∈ collectionRoots source) ∧
      ∀ compiled ∈ graph.collections, ∀ member,
        member ∈ compiled.members ↔ IsMember [source] (sourceEntries source) compiled.coordinate member := by
  rw [compileMarketplaceGraph_single h] at hgraph
  obtain ⟨collections, hcollections, hgraph⟩ := Result.of_bind_ok hgraph
  rw [compileCollections_single h] at hcollections
  obtain ⟨⟨members, memo⟩, hvisit, hcollections⟩ := Result.of_bind_ok hcollections
  obtain rfl := Except.ok.inj hcollections
  obtain ⟨hfinished, hvalues⟩ := Search.Visitor.visitAll_finished hvisit
  have hsame (compiled : MarketplaceCollection) : compiled ∈ graph.collections ↔
      ∃ entry ∈ (collectionRoots source).zip members,
        marketplaceCollection entry.1
          (((lastKeyed? (collectionEntries [source]) entry.1).map (·.summary)).getD "") entry.2 = compiled := by
    unfold marketplaceGraph at hgraph
    split at hgraph
    · split at hgraph
      · obtain rfl := Except.ok.inj hgraph
        rw [mem_sortedBy]
        exact List.mem_map
      · cases hgraph
    · cases hgraph
  constructor
  · intro coordinate
    rw [← map_fst_zip_roots hvalues, List.mem_map, List.mem_map]
    constructor
    · rintro ⟨compiled, hcompiled, rfl⟩
      obtain ⟨entry, hentry, rfl⟩ := (hsame compiled).mp hcompiled
      exact ⟨entry, hentry, rfl⟩
    · rintro ⟨entry, hentry, rfl⟩
      exact ⟨_, (hsame _).mpr ⟨entry, hentry, rfl⟩, rfl⟩
  · intro compiled hcompiled member
    obtain ⟨entry, hentry, rfl⟩ := (hsame compiled).mp hcompiled
    have hmemo : entry ∈ memo := (List.forall₂_iff_zip.mp hvalues).2 hentry
    show member ∈ sortedBy artifactSortKey entry.2.dedup ↔ _
    rw [mem_sortedBy, List.mem_dedup]
    have hkeys : ((graphCollections [source] (sourceEntries source)).manifests.map Prod.fst).Nodup :=
      nodup_collectionEntries h
    exact graph_value_members hkeys (sourceEntries_sound source) hfinished hmemo member

end SingleSource

/-! ## Names and coordinates -/

section Agreement

variable {sourceAlias : SourceAlias} {sourceId : SourceId} {required available : List Capability}
variable {artifacts : List IndexArtifact} {collections : List CollectionManifest}
variable {source : GraphSource}

theorem admissible_graphSource (hcapabilities : ∀ capability ∈ required, capability ∈ available)
    (hsource : ∀ artifact ∈ artifacts, artifact.sourceId = sourceId)
    (hidentities : (artifacts.map (·.identity)).Nodup) (hnames : (collections.map (·.name)).Nodup) :
    Admissible (graphSource sourceAlias sourceId required artifacts collections) available where
  capabilities capability hmem := hcapabilities capability (List.mem_dedup.mp (mem_sortedBy.mp hmem))
  sourceIds artifact hmem := hsource artifact (mem_sortedBy.mp hmem)
  identities := ((perm_sortedBy _ artifacts).map _).nodup_iff.mpr hidentities
  names := ((perm_sortedBy _ collections).map _).nodup_iff.mpr hnames

/-- A lookup by key finds what the lookup by identity finds, in its normal form. -/
theorem lastKeyed?_sourceEntries (hsame : ∀ artifact, artifact ∈ source.artifacts ↔ artifact ∈ artifacts)
    (hdistinct : (source.artifacts.map (·.identity)).Nodup) (identity : ArtifactIdentity) :
    lastKeyed? (sourceEntries source) (source.sourceAlias, identity) =
      (lastKeyed? (artifacts.map fun artifact => (artifact.identity, artifact)) identity).map
        (marketplaceArtifact source) := by
  cases hfound : lastKeyed? (artifacts.map fun artifact => (artifact.identity, artifact)) identity with
  | none =>
      cases hother : lastKeyed? (sourceEntries source) (source.sourceAlias, identity) with
      | none => rfl
      | some item =>
          obtain ⟨artifact, hartifact, heq⟩ := List.mem_map.mp (mem_of_lastKeyed? hother)
          have hidentity : artifact.identity = identity := (Prod.mk.inj (Prod.mk.inj heq).1).2
          have hmissing : (identity, artifact) ∉ artifacts.map fun artifact => (artifact.identity, artifact) :=
            lastKeyed?_eq_none hfound
          exact absurd (List.mem_map.mpr ⟨artifact, (hsame artifact).mp hartifact, by rw [hidentity]⟩) hmissing
  | some artifact =>
      obtain ⟨found, hartifact, heq⟩ := List.mem_map.mp (mem_of_lastKeyed? hfound)
      obtain ⟨rfl, rfl⟩ := Prod.mk.inj heq
      exact lastKeyed?_of_mem (nodup_sourceEntries hdistinct)
        (List.mem_map.mpr ⟨found, (hsame found).mpr hartifact, rfl⟩)

/-- The source has the artifacts and the collections of a registry. -/
structure Publishes (source : GraphSource) (artifacts : List IndexArtifact)
    (collections : List CollectionManifest) : Prop where
  artifacts : ∀ artifact, artifact ∈ source.artifacts ↔ artifact ∈ artifacts
  collections : ∀ manifest, manifest ∈ source.collections ↔ manifest ∈ collections
  identities : (source.artifacts.map (·.identity)).Nodup

theorem mem_graph_manifests (h : Publishes source artifacts collections) (coordinate : CollectionCoordinate)
    (manifest : CollectionManifest) :
    (coordinate, manifest) ∈ (graphCollections [source] (sourceEntries source)).manifests ↔
      coordinate.source = source.sourceAlias ∧
        (coordinate.name, manifest) ∈ (registryCollections artifacts collections).manifests := by
  show (coordinate, manifest) ∈ collectionEntries [source] ↔ _
  rw [collectionEntries_single]
  simp only [registryCollections, List.mem_map, Prod.mk.injEq, h.collections]
  constructor
  · rintro ⟨found, hfound, rfl, rfl⟩
    exact ⟨rfl, found, hfound, rfl, rfl⟩
  · rintro ⟨hsource, found, hfound, hname, rfl⟩
    refine ⟨found, hfound, ?_, rfl⟩
    rw [← hsource, hname]

theorem graph_nests_iff (h : Publishes source artifacts collections) (a b : CollectionCoordinate) :
    (graphCollections [source] (sourceEntries source)).Nests a b ↔
      a.source = source.sourceAlias ∧ b.source = source.sourceAlias ∧
        (registryCollections artifacts collections).Nests a.name b.name := by
  constructor
  · rintro ⟨manifest, hmem, name, hname, rfl⟩
    obtain ⟨hsource, hmem⟩ := (mem_graph_manifests h a manifest).mp hmem
    exact ⟨hsource, hsource, manifest, hmem, name, hname, rfl⟩
  · rintro ⟨ha, hb, manifest, hmem, name, hname, heq⟩
    refine ⟨manifest, (mem_graph_manifests h a manifest).mpr ⟨ha, hmem⟩, name, hname, ?_⟩
    obtain ⟨sourceName, collection⟩ := b
    obtain rfl : sourceName = source.sourceAlias := hb
    obtain rfl : name = collection := heq
    show (⟨a.source, name⟩ : CollectionCoordinate) = ⟨source.sourceAlias, name⟩
    rw [ha]

/-- A registry name is the coordinate under the alias. -/
theorem registry_nests (h : Publishes source artifacts collections) {a b : Slug}
    (hnests : (registryCollections artifacts collections).Nests a b) :
    (graphCollections [source] (sourceEntries source)).Nests ⟨source.sourceAlias, a⟩ ⟨source.sourceAlias, b⟩ :=
  (graph_nests_iff h _ _).mpr ⟨rfl, rfl, hnests⟩

theorem graph_contains_iff (h : Publishes source artifacts collections) (name : Slug) (identity : ArtifactIdentity) :
    (graphCollections [source] (sourceEntries source)).Contains ⟨source.sourceAlias, name⟩ identity ↔
      (registryCollections artifacts collections).Contains name identity := by
  constructor
  · rintro ⟨inner, hpath, manifest, hmem, hselector⟩
    refine ⟨inner.name, ?_, manifest, ((mem_graph_manifests h inner manifest).mp hmem).2, hselector⟩
    exact Relation.ReflTransGen.lift (·.name) (fun a b hnests => ((graph_nests_iff h a b).mp hnests).2.2)
      _ _ hpath
  · rintro ⟨inner, hpath, manifest, hmem, hselector⟩
    refine ⟨⟨source.sourceAlias, inner⟩, ?_, manifest,
      (mem_graph_manifests h ⟨source.sourceAlias, inner⟩ manifest).mpr ⟨rfl, hmem⟩, hselector⟩
    exact Relation.ReflTransGen.lift (fun name => (⟨source.sourceAlias, name⟩ : CollectionCoordinate))
      (fun a b hnests => registry_nests h hnests) _ _ hpath

/-- The two expanders accept the same collections. -/
theorem graph_closed_iff (h : Publishes source artifacts collections) :
    (graphCollections [source] (sourceEntries source)).Closed ↔
      (registryCollections artifacts collections).Closed := by
  have hlookup := lastKeyed?_sourceEntries h.artifacts h.identities
  constructor
  · intro hclosed
    refine ⟨?_, ?_, ?_⟩
    · intro name manifest hmem selector hselector
      obtain ⟨item, hitem, hallows⟩ := hclosed.selectors ⟨source.sourceAlias, name⟩ manifest
        ((mem_graph_manifests h _ _).mpr ⟨rfl, hmem⟩) selector hselector
      have hsome : lastKeyed? (sourceEntries source) (source.sourceAlias, selector.identity) = some item := hitem
      rw [hlookup, Option.map_eq_some_iff] at hsome
      obtain ⟨artifact, hartifact, rfl⟩ := hsome
      exact ⟨artifact, hartifact, hallows⟩
    · intro name manifest hmem nested hnested
      obtain ⟨⟨coordinate, found⟩, hfound, heq⟩ := List.mem_map.mp
        (hclosed.nested ⟨source.sourceAlias, name⟩ manifest
          ((mem_graph_manifests h _ _).mpr ⟨rfl, hmem⟩) nested hnested)
      obtain rfl : coordinate = ⟨source.sourceAlias, nested⟩ := heq
      exact List.mem_map.mpr ⟨_, ((mem_graph_manifests h _ _).mp hfound).2, rfl⟩
    · intro name hcycle
      exact hclosed.acyclic ⟨source.sourceAlias, name⟩ (Relation.TransGen.lift
        (fun name => (⟨source.sourceAlias, name⟩ : CollectionCoordinate)) (fun a b hnests => registry_nests h hnests)
        _ _ hcycle)
  · intro hclosed
    refine ⟨?_, ?_, ?_⟩
    · intro coordinate manifest hmem selector hselector
      obtain ⟨hsource, hmem⟩ := (mem_graph_manifests h coordinate manifest).mp hmem
      obtain ⟨artifact, hartifact, hallows⟩ := hclosed.selectors coordinate.name manifest hmem selector hselector
      refine ⟨marketplaceArtifact source artifact, ?_, hallows⟩
      show lastKeyed? (sourceEntries source) (coordinate.source, selector.identity) = _
      rw [hsource, hlookup]
      exact congrArg (Option.map (marketplaceArtifact source)) hartifact
    · intro coordinate manifest hmem nested hnested
      obtain ⟨hsource, hmem⟩ := (mem_graph_manifests h coordinate manifest).mp hmem
      obtain ⟨⟨name, found⟩, hfound, heq⟩ := List.mem_map.mp
        (hclosed.nested coordinate.name manifest hmem nested hnested)
      obtain rfl : name = nested := heq
      refine List.mem_map.mpr ⟨(⟨coordinate.source, name⟩, found), ?_, rfl⟩
      exact (mem_graph_manifests h ⟨coordinate.source, name⟩ found).mpr ⟨hsource, hfound⟩
    · intro coordinate hcycle
      exact hclosed.acyclic coordinate.name (Relation.TransGen.lift (fun coordinate => coordinate.name)
        (fun a b hnests => ((graph_nests_iff h a b).mp hnests).2.2) _ _ hcycle)

theorem publishes_graphSource (hidentities : (artifacts.map (·.identity)).Nodup) :
    Publishes (graphSource sourceAlias sourceId required artifacts collections) artifacts collections where
  artifacts _ := mem_sortedBy
  collections _ := mem_sortedBy
  identities := ((perm_sortedBy _ artifacts).map _).nodup_iff.mpr hidentities

/-- The coordinate of an artifact under an alias. -/
def IndexArtifact.coordinateIn (sourceAlias : SourceAlias) (artifact : IndexArtifact) : ArtifactCoordinate :=
  ⟨sourceAlias, artifact.identity, some artifact.version.str⟩

/-- The members of a collection are the coordinates of the artifacts it contains. -/
theorem isMember_iff (h : Publishes source artifacts collections) (hidentities : (artifacts.map (·.identity)).Nodup)
    (name : Slug) (member : ArtifactCoordinate) :
    IsMember [source] (sourceEntries source) ⟨source.sourceAlias, name⟩ member ↔
      ∃ artifact ∈ artifacts, (registryCollections artifacts collections).Contains name artifact.identity ∧
        member = artifact.coordinateIn source.sourceAlias := by
  have hlookup := lastKeyed?_sourceEntries h.artifacts h.identities
  have hkeys : ((artifacts.map fun artifact => (artifact.identity, artifact)).map Prod.fst).Nodup := by
    simpa [Function.comp_def] using hidentities
  constructor
  · rintro ⟨identity, item, hcontains, hitem, rfl⟩
    rw [hlookup, Option.map_eq_some_iff] at hitem
    obtain ⟨artifact, hartifact, rfl⟩ := hitem
    obtain ⟨found, hfound, heq⟩ := List.mem_map.mp (mem_of_lastKeyed? hartifact)
    obtain ⟨rfl, rfl⟩ := Prod.mk.inj heq
    exact ⟨found, hfound, (graph_contains_iff h name found.identity).mp hcontains, rfl⟩
  · rintro ⟨artifact, hartifact, hcontains, rfl⟩
    refine ⟨artifact.identity, marketplaceArtifact source artifact,
      (graph_contains_iff h name artifact.identity).mpr hcontains, ?_, rfl⟩
    rw [hlookup, lastKeyed?_of_mem hkeys (List.mem_map.mpr ⟨artifact, hartifact, rfl⟩)]
    rfl

theorem coordinateIn_inj (hidentities : (artifacts.map (·.identity)).Nodup) {a b : IndexArtifact}
    (ha : a ∈ artifacts) (hb : b ∈ artifacts) (h : a.coordinateIn sourceAlias = b.coordinateIn sourceAlias) : a = b :=
  List.inj_on_of_nodup_map hidentities ha hb (congrArg (·.artifact) h)

variable [StandardLibrary]

/-- Both expanders accept the same collections of a source, and agree with reachability on
what each collection contains. -/
theorem collection_expanders_agree (sourceAlias : SourceAlias) (sourceId : SourceId)
    (required available : List Capability) (artifacts : List IndexArtifact) (collections : List CollectionManifest)
    (hcapabilities : ∀ capability ∈ required, capability ∈ available)
    (hsource : ∀ artifact ∈ artifacts, artifact.sourceId = sourceId)
    (hidentities : (artifacts.map (·.identity)).Nodup) (hnames : (collections.map (·.name)).Nodup)
    (hdependencies : validateArtifactDependencies artifacts = .ok ()) :
    ((∃ derived, validateRegistryGraph artifacts collections = .ok derived) ↔
      ∃ graph, compileMarketplaceGraph [graphSource sourceAlias sourceId required artifacts collections] available
        none = .ok graph) ∧
    ∀ derived graph, validateRegistryGraph artifacts collections = .ok derived →
      compileMarketplaceGraph [graphSource sourceAlias sourceId required artifacts collections] available none =
        .ok graph →
      (∀ coordinate, coordinate ∈ graph.collections.map (·.coordinate) ↔
        ∃ collection ∈ collections, coordinate = ⟨sourceAlias, collection.name⟩) ∧
      ∀ compiled ∈ graph.collections, ∀ collection ∈ collections,
        compiled.coordinate = ⟨sourceAlias, collection.name⟩ →
        (∀ member ∈ compiled.members, ∃ artifact ∈ artifacts, member = artifact.coordinateIn sourceAlias) ∧
        ∀ artifact ∈ artifacts,
          (artifact.coordinateIn sourceAlias ∈ compiled.members ↔
            ∃ result ∈ derived, result.identity = artifact.identity ∧
              collection.name.value ∈ result.collections) ∧
          (artifact.coordinateIn sourceAlias ∈ compiled.members ↔
            (registryCollections artifacts collections).Contains collection.name artifact.identity) := by
  have hadmissible : Admissible (graphSource sourceAlias sourceId required artifacts collections) available :=
    admissible_graphSource hcapabilities hsource hidentities hnames
  have hpublishes : Publishes (graphSource sourceAlias sourceId required artifacts collections) artifacts
      collections := publishes_graphSource hidentities
  constructor
  · rw [validateRegistryGraph_ok_iff hidentities hnames hdependencies, compileMarketplaceGraph_ok_iff hadmissible,
      graph_closed_iff hpublishes]
  · intro derived graph hderived hgraph
    obtain ⟨hcoordinates, hmembers⟩ := compileMarketplaceGraph_members hadmissible hgraph
    constructor
    · intro coordinate
      rw [hcoordinates, collectionRoots, mem_sortedBy, collectionEntries_single]
      simp only [List.map_map, List.mem_map, hpublishes.collections]
      constructor
      · rintro ⟨collection, hcollection, rfl⟩
        exact ⟨collection, hcollection, rfl⟩
      · rintro ⟨collection, hcollection, rfl⟩
        exact ⟨collection, hcollection, rfl⟩
    · intro compiled hcompiled collection hcollection hcoordinate
      have hmember (member : ArtifactCoordinate) := hmembers compiled hcompiled member
      rw [hcoordinate] at hmember
      have hmember (member : ArtifactCoordinate) :=
        (hmember member).trans (isMember_iff hpublishes hidentities collection.name member)
      refine ⟨fun member hin => ?_, fun artifact hartifact => ?_⟩
      · obtain ⟨artifact, hartifact, _, heq⟩ := (hmember member).mp hin
        exact ⟨artifact, hartifact, heq⟩
      · have hcontains : artifact.coordinateIn sourceAlias ∈ compiled.members ↔
            (registryCollections artifacts collections).Contains collection.name artifact.identity := by
          refine (hmember _).trans ⟨?_, fun hcontains => ⟨artifact, hartifact, hcontains, rfl⟩⟩
          rintro ⟨other, hother, hcontains, heq⟩
          obtain rfl := coordinateIn_inj hidentities hartifact hother heq
          exact hcontains
        refine ⟨hcontains.trans ?_, hcontains⟩
        exact (validateRegistryGraph_memberships hidentities hnames hdependencies hderived hartifact
          hcollection).symm

end Agreement

section Samples

attribute [local instance] plainLibrary

/-- A collection with the skill, in another collection. -/
def tidyCollections : List CollectionManifest :=
  [{ name := ⟨"all", Eq.refl true⟩, summary := "", artifacts := [], collections := [⟨"base", Eq.refl true⟩] },
    { name := ⟨"base", Eq.refl true⟩, summary := "", artifacts := [⟨⟨.skill, ⟨"tidy", Eq.refl true⟩⟩, none⟩],
      collections := [] }]

theorem tidyCollections_closed : (registryCollections [tidyArtifact] tidyCollections).Closed := by
  have hnests {a b : Slug} (h : (registryCollections [tidyArtifact] tidyCollections).Nests a b) :
      a.value = "all" ∧ b.value = "base" := by
    obtain ⟨manifest, hmem, name, hname, rfl⟩ := h
    simp only [registryCollections, tidyCollections, List.map_cons, List.map_nil, List.mem_cons, List.not_mem_nil,
      or_false, Prod.mk.injEq] at hmem
    obtain ⟨rfl, rfl⟩ | ⟨rfl, rfl⟩ := hmem
    · obtain rfl := List.mem_singleton.mp hname
      exact ⟨rfl, rfl⟩
    · cases hname
  refine ⟨?_, ?_, ?_⟩
  · intro key manifest hmem selector hselector
    simp only [registryCollections, tidyCollections, List.map_cons, List.map_nil, List.mem_cons, List.not_mem_nil,
      or_false, Prod.mk.injEq] at hmem
    obtain ⟨rfl, rfl⟩ | ⟨rfl, rfl⟩ := hmem
    · cases hselector
    · obtain rfl := List.mem_singleton.mp hselector
      exact ⟨tidyArtifact, by decide, rfl⟩
  · intro key manifest hmem name hname
    obtain ⟨_, hbase⟩ : key.value = "all" ∧ name.value = "base" := hnests ⟨manifest, hmem, name, hname, rfl⟩
    obtain rfl : name = ⟨"base", by decide⟩ := by
      cases name
      simpa using hbase
    exact List.mem_map.mpr ⟨_, List.mem_cons_of_mem _ List.mem_cons_self, rfl⟩
  · intro key hcycle
    obtain ⟨_, hfirst, _⟩ := Relation.TransGen.head'_iff.mp hcycle
    obtain ⟨_, _, hlast⟩ := Relation.TransGen.tail'_iff.mp hcycle
    exact absurd ((hnests hfirst).1.symm.trans (hnests hlast).2) (by decide)

/-- The skill of a nested collection is a member of the outer one. -/
theorem collection_expanders_agree_tidy :
    ∃ graph compiled, compileMarketplaceGraph
        [graphSource ⟨"team", by decide⟩ ⟨"team", by decide⟩ [] [tidyArtifact] tidyCollections] [] none = .ok graph ∧
      compiled ∈ graph.collections ∧ compiled.coordinate = ⟨⟨"team", by decide⟩, ⟨"all", by decide⟩⟩ ∧
      tidyArtifact.coordinateIn ⟨"team", by decide⟩ ∈ compiled.members := by
  have hsingle : ([tidyArtifact].map (·.identity)).Nodup := List.nodup_singleton _
  have hrequirers : (([tidyArtifact].map (·.requirer)).map (·.identity)).Nodup := List.nodup_singleton _
  have hdependencies : validateArtifactDependencies [tidyArtifact] = .ok () :=
    (validateDependencies_ok_iff _ hrequirers).mpr (resolvable_of_requires_nothing (by decide))
  have hnames : (tidyCollections.map (·.name)).Nodup := by decide
  obtain ⟨hiff, hagree⟩ := collection_expanders_agree ⟨"team", by decide⟩ ⟨"team", by decide⟩ [] [] [tidyArtifact]
    tidyCollections (by simp) (by simp [tidyArtifact, indexArtifactFromPackage]) hsingle hnames hdependencies
  obtain ⟨derived, hderived⟩ := (validateRegistryGraph_ok_iff hsingle hnames hdependencies).mpr
    tidyCollections_closed
  obtain ⟨graph, hgraph⟩ := hiff.mp ⟨derived, hderived⟩
  obtain ⟨hcoordinates, hmembers⟩ := hagree derived graph hderived hgraph
  obtain ⟨compiled, hcompiled, hcoordinate⟩ := List.mem_map.mp
    ((hcoordinates ⟨⟨"team", by decide⟩, ⟨"all", by decide⟩⟩).mpr ⟨_, List.mem_cons_self, rfl⟩)
  refine ⟨graph, compiled, hgraph, hcompiled, hcoordinate, ?_⟩
  refine ((hmembers compiled hcompiled _ List.mem_cons_self hcoordinate).2 tidyArtifact
    (List.mem_singleton_self _)).2.mpr ?_
  refine ⟨⟨"base", by decide⟩, .single ⟨_, List.mem_cons_self, _, List.mem_singleton_self _, rfl⟩, _,
    List.mem_cons_of_mem _ List.mem_cons_self, _, List.mem_singleton_self _, rfl⟩

end Samples

end AgentArtifacts.Registry
