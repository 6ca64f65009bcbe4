import AgentArtifacts.Registry.Expansion
import AgentArtifacts.Registry.Normalization
import AgentArtifacts.Store.ObjectEnvelope

/-!
# The order of the inputs of a graph

Sources are compiled in the order of their aliases, and a source keeps its artifacts and
collections in an order of its own. So arrangements of one input compile alike, and a compilation
that knows its own result finds nothing new in it.
-/

namespace AgentArtifacts.Registry

open Arrangements (Arranged)
open Manifest (identity_str_injective slug_eq_of_value)
open Schema (sortedBy_eq_of_perm sortedBy_sortedBy)

/-- The constructor of a source puts its parts in order. -/
def GraphSource.constructed (source : GraphSource) : GraphSource :=
  graphSource source.sourceAlias source.sourceId source.requiredCapabilities source.artifacts source.collections

/-! ## Sources that compile alike -/

/-- Nothing that a compilation reads of the sources differs. -/
structure Alike (a b : GraphSource) : Prop where
  sourceAlias : a.sourceAlias = b.sourceAlias
  sourceId : a.sourceId = b.sourceId
  requiredCapabilities : a.requiredCapabilities = b.requiredCapabilities
  artifacts : List.Forall₂ (fun x y => x.sourceId = y.sourceId ∧ normalizeArtifact x = normalizeArtifact y)
    a.artifacts b.artifacts
  collections : a.collections = b.collections

section Congruence

variable {a b : GraphSource} {available : List Capability} {left right : List GraphSource}

theorem compileArtifact_alike (h : Alike a b) {x y : IndexArtifact} (hid : x.sourceId = y.sourceId)
    (hnormal : normalizeArtifact x = normalizeArtifact y) (state : CompileState) :
    compileArtifact a state x = compileArtifact b state y := by
  have hidentity : x.identity = y.identity := congrArg (fun artifact => artifact.identity) hnormal
  unfold compileArtifact marketplaceArtifact
  rw [hid, hidentity, hnormal, h.sourceAlias, h.sourceId]

theorem compileSource_alike (h : Alike a b) (state : CompileState) :
    compileSource available state a = compileSource available state b := by
  have hentered : enterSource available a state = enterSource available b state := by
    unfold enterSource
    rw [h.sourceAlias, h.sourceId, h.requiredCapabilities]
  unfold compileSource
  rw [hentered]
  have hall := h.artifacts
  generalize a.artifacts = xs, b.artifacts = ys at hall
  generalize enterSource available b state = entered
  induction hall generalizing entered with
  | nil => rfl
  | cons hxy _ ih =>
      rw [List.foldl_cons, List.foldl_cons, compileArtifact_alike h hxy.1 hxy.2]
      exact ih _

theorem compileSources_alike (h : List.Forall₂ Alike left right) (state : CompileState) :
    left.foldl (compileSource available) state = right.foldl (compileSource available) state := by
  induction h generalizing state with
  | nil => rfl
  | cons hab _ ih =>
      rw [List.foldl_cons, List.foldl_cons, compileSource_alike hab]
      exact ih _

theorem collectionEntries_alike (h : List.Forall₂ Alike left right) : collectionEntries left = collectionEntries right := by
  unfold collectionEntries
  induction h with
  | nil => rfl
  | cons hab _ ih => rw [List.flatMap_cons, List.flatMap_cons, ih, hab.sourceAlias, hab.collections]

theorem compileCollections_alike (h : List.Forall₂ Alike left right) (artifacts : List (ArtifactKey × MarketplaceArtifact)) :
    compileCollections left artifacts = compileCollections right artifacts := by
  unfold compileCollections graphCollections
  rw [collectionEntries_alike h]

end Congruence

/-! ## What a compilation without complaints asks of its sources -/

section Quiet

variable {source : GraphSource} {state : CompileState} {available : List Capability}

theorem compileArtifact_quiet {artifact : IndexArtifact} (h : (compileArtifact source state artifact).diagnostics = []) :
    (source.sourceAlias, artifact.identity) ∉ state.artifacts.map Prod.fst ∧
      (compileArtifact source state artifact).artifacts =
        state.artifacts ++ [((source.sourceAlias, artifact.identity), marketplaceArtifact source artifact)] := by
  unfold compileArtifact at h ⊢
  split at h
  · exact absurd h (by simp)
  · rename_i hid
    rw [if_neg hid]
    split at h
    · exact absurd h (by simp)
    · rename_i hnew
      rw [if_neg hnew]
      exact ⟨hnew, rfl⟩

theorem compileArtifact_aliases (artifact : IndexArtifact) :
    (compileArtifact source state artifact).aliases = state.aliases := by
  unfold compileArtifact
  split
  · rfl
  · split <;> rfl

theorem compileArtifacts_aliases (artifacts : List IndexArtifact) :
    (artifacts.foldl (compileArtifact source) state).aliases = state.aliases := by
  induction artifacts generalizing state with
  | nil => rfl
  | cons artifact rest ih => rw [List.foldl_cons, ih, compileArtifact_aliases]

theorem compileArtifacts_quiet {artifacts : List IndexArtifact}
    (h : (artifacts.foldl (compileArtifact source) state).diagnostics = []) :
    (artifacts.map (·.identity)).Nodup ∧
      ∀ artifact ∈ artifacts, (source.sourceAlias, artifact.identity) ∉ state.artifacts.map Prod.fst := by
  induction artifacts generalizing state with
  | nil => simp
  | cons artifact rest ih =>
      rw [List.foldl_cons] at h
      obtain ⟨hrest, hnew⟩ := ih h
      obtain ⟨hfresh, hentries⟩ := compileArtifact_quiet ((compileArtifacts_advances source rest _).1.quiet h)
      rw [hentries] at hnew
      refine ⟨List.nodup_cons.mpr ⟨fun hmem => ?_, hrest⟩, ?_⟩
      · obtain ⟨other, hother, hsame⟩ := List.mem_map.mp hmem
        refine hnew other hother ?_
        rw [hsame]
        simp
      · intro other hother
        rcases List.mem_cons.mp hother with rfl | hother
        · exact hfresh
        · exact fun hold => hnew other hother (by simp [List.mem_map.mp hold])

theorem enterSource_quiet_aliases (h : (enterSource available source state).diagnostics = []) :
    source.sourceAlias ∉ state.aliases ∧ (enterSource available source state).aliases = source.sourceAlias :: state.aliases := by
  unfold enterSource at h ⊢
  dsimp only at h ⊢
  by_cases halias : source.sourceAlias ∈ state.aliases
  · rw [if_pos halias] at h
    split at h <;> split at h <;> exact absurd h (by simp [CompileState.report])
  · rw [if_neg halias] at h ⊢
    refine ⟨halias, ?_⟩
    split <;> split <;> rfl

theorem compileSources_quiet {sources : List GraphSource}
    (h : (sources.foldl (compileSource available) state).diagnostics = []) :
    (sources.map (·.sourceAlias)).Nodup ∧ (∀ source ∈ sources, source.sourceAlias ∉ state.aliases) ∧
      ∀ source ∈ sources, (source.artifacts.map (·.identity)).Nodup := by
  induction sources generalizing state with
  | nil => simp
  | cons source rest ih =>
      rw [List.foldl_cons] at h
      obtain ⟨hrest, hnew, hidentities⟩ := ih h
      have hquiet : (compileSource available state source).diagnostics = [] :=
        (compileSources_spec available rest _ h).1.quiet h
      have hentered : (enterSource available source state).diagnostics = [] :=
        (compileArtifacts_advances source source.artifacts _).1.quiet hquiet
      obtain ⟨hfresh, haliases⟩ := enterSource_quiet_aliases hentered
      have hafter : (compileSource available state source).aliases = source.sourceAlias :: state.aliases := by
        unfold compileSource
        rw [compileArtifacts_aliases, haliases]
      rw [hafter] at hnew
      refine ⟨List.nodup_cons.mpr ⟨fun hmem => ?_, hrest⟩, ?_, ?_⟩
      · obtain ⟨other, hother, hsame⟩ := List.mem_map.mp hmem
        exact hnew other hother (hsame ▸ List.mem_cons_self)
      · intro other hother
        rcases List.mem_cons.mp hother with rfl | hother
        · exact hfresh
        · exact fun hold => hnew other hother (List.mem_cons_of_mem _ hold)
      · intro other hother
        rcases List.mem_cons.mp hother with rfl | hother
        · exact (compileArtifacts_quiet hquiet).1
        · exact hidentities other hother

theorem nodup_of_repeatedItems {α κ : Type} [DecidableEq κ] {key : α → κ} {seen : List κ} {items : List α}
    (h : repeatedItems key seen items = []) : (items.map key).Nodup ∧ ∀ item ∈ items, key item ∉ seen := by
  induction items generalizing seen with
  | nil => simp
  | cons item rest ih =>
      rw [repeatedItems] at h
      split at h
      · exact absurd h (List.cons_ne_nil _ _)
      · rename_i hfresh
        obtain ⟨hrest, hnew⟩ := ih h
        refine ⟨List.nodup_cons.mpr ⟨fun hmem => ?_, hrest⟩, ?_⟩
        · obtain ⟨other, hother, hsame⟩ := List.mem_map.mp hmem
          exact hnew other hother (hsame ▸ List.mem_cons_self)
        · intro other hother
          rcases List.mem_cons.mp hother with rfl | hother
          · exact hfresh
          · exact fun hold => hnew other hother (List.mem_cons_of_mem _ hold)

theorem compileCollections_quiet {sources : List GraphSource} {artifacts : List (ArtifactKey × MarketplaceArtifact)}
    {collections : List MarketplaceCollection} (h : compileCollections sources artifacts = .ok collections)
    {source : GraphSource} (hsource : source ∈ sources) : (source.collections.map (·.name)).Nodup := by
  have hnone : repeatedItems Prod.fst [] (collectionEntries sources) = [] := by
    unfold compileCollections at h
    dsimp only at h
    split at h
    · assumption
    · cases h
  have hkeys := (nodup_of_repeatedItems hnone).1
  unfold collectionEntries at hkeys
  rw [List.map_flatMap] at hkeys
  have hown := (List.nodup_flatMap.mp hkeys).1 source hsource
  rw [List.map_map] at hown
  exact List.Nodup.of_map (fun name => (⟨source.sourceAlias, name⟩ : CollectionCoordinate)) (by
    rw [List.map_map]
    exact hown)

end Quiet

/-! ## Arrangements compile alike -/

/-- What is asked of a source so that its order does not matter. -/
structure Orderless (source : GraphSource) : Prop where
  once : ∀ artifact ∈ source.artifacts, RequiresOnce artifact
  identities : (source.artifacts.map (·.identity)).Nodup
  names : (source.collections.map (·.name)).Nodup

theorem constructed_alike {a b : GraphSource} (h : SourceArranged a b) (horderless : Orderless a) :
    Alike a.constructed b.constructed where
  sourceAlias := h.sourceAlias
  sourceId := h.sourceId
  requiredCapabilities := sortedBy_eq_of_perm capability_value_injective h.requiredCapabilities.dedup
  collections := by
    refine Arrangements.sortOn_eq_of_perm ?_ h.collections
    intro x hx y hy hkey
    exact List.inj_on_of_nodup_map horderless.names hx hy (slug_eq_of_value hkey)
  artifacts := by
    have hsorted := (h.artifacts.and horderless.once).sortOn
      (fun artifact => [artifact.identity.kind.value, artifact.identity.name.value, artifact.version.str,
        artifact.objectDigest.str])
      (fun artifact => [artifact.identity.kind.value, artifact.identity.name.value, artifact.version.str,
        artifact.objectDigest.str]) ?_ ?_
    · refine hsorted.imp fun x y hxy => ⟨?_, normalizeArtifact_eq hxy.1 hxy.2⟩
      rw [← hxy.1.rest]
    · rintro x y ⟨hxy, _⟩
      rw [← hxy.rest]
    · intro x hx y hy hkey
      have hkind : x.identity.kind = y.identity.kind := ArtifactKind.value_injective (List.cons.inj hkey).1
      have hname : x.identity.name = y.identity.name := slug_eq_of_value (List.cons.inj (List.cons.inj hkey).2).1
      refine List.inj_on_of_nodup_map horderless.identities hx hy ?_
      show x.identity = y.identity
      cases hx' : x.identity with
      | mk kind name =>
          cases hy' : y.identity with
          | mk kind' name' =>
              rw [hx', hy'] at hkind hname
              rw [show kind = kind' from hkind, show name = name' from hname]

theorem ordered_constructed (sources : List GraphSource) :
    sortedBy (·.sourceAlias.value) (sources.map GraphSource.constructed) =
      (Arrangements.sortOn (·.sourceAlias.value) sources).map GraphSource.constructed :=
  (List.map_insertionSort _ _ GraphSource.constructed sources (fun _ _ _ _ => Iff.rfl)).symm

section Compiling

variable [StandardLibrary]

/-- A compilation from what the constructor of every source is given. -/
def compileGraph (sources : List GraphSource) (available : List Capability) (previous : Option MarketplaceGraph) :
    Result MarketplaceGraph :=
  compileMarketplaceGraph (sources.map GraphSource.constructed) available previous

variable {graph : MarketplaceGraph} {previous : Option MarketplaceGraph}

/-- A compilation that succeeds found nothing in its sources whose order could matter but requirements. -/
theorem compileGraph_orderless {sources : List GraphSource} {available : List Capability}
    (honce : ∀ source ∈ sources, ∀ artifact ∈ source.artifacts, RequiresOnce artifact)
    (h : compileGraph sources available previous = .ok graph) :
    (sources.map (·.sourceAlias)).Nodup ∧ ∀ source ∈ sources, Orderless source := by
  unfold compileGraph compileMarketplaceGraph at h
  obtain ⟨hquiet, h⟩ := Result.of_check_ok h
  obtain ⟨collections, hcollections, _⟩ := Result.of_bind_ok h
  rw [ordered_constructed] at hquiet hcollections
  have hperm : (Arrangements.sortOn (·.sourceAlias.value) sources).Perm sources := List.perm_insertionSort _ sources
  obtain ⟨haliases, _, hidentities⟩ := compileSources_quiet (by simpa using hquiet)
  rw [List.map_map] at haliases
  refine ⟨(hperm.map _).nodup_iff.mp haliases, fun source hsource => ⟨honce source hsource, ?_, ?_⟩⟩
  · have hmem : source.constructed ∈ (Arrangements.sortOn (·.sourceAlias.value) sources).map GraphSource.constructed :=
      List.mem_map.mpr ⟨source, hperm.mem_iff.mpr hsource, rfl⟩
    exact ((perm_sortedBy _ source.artifacts).map _).nodup_iff.mp (hidentities _ hmem)
  · have hmem : source.constructed ∈ (Arrangements.sortOn (·.sourceAlias.value) sources).map GraphSource.constructed :=
      List.mem_map.mpr ⟨source, hperm.mem_iff.mpr hsource, rfl⟩
    exact ((perm_sortedBy _ source.collections).map _).nodup_iff.mp (compileCollections_quiet hcollections hmem)

theorem compileGraph_arranged {sources others : List GraphSource} {available : List Capability}
    (honce : ∀ source ∈ sources, ∀ artifact ∈ source.artifacts, RequiresOnce artifact)
    (harranged : Arranged SourceArranged sources others) (h : compileGraph sources available previous = .ok graph) :
    compileGraph others available previous = .ok graph := by
  obtain ⟨haliases, horderless⟩ := compileGraph_orderless honce h
  have hsorted := (harranged.and horderless).sortOn (fun source => source.sourceAlias.value) (fun source => source.sourceAlias.value)
    (fun a b hab => by rw [hab.1.sourceAlias])
    (fun a ha b hb hkey => List.inj_on_of_nodup_map haliases ha hb (slug_eq_of_value hkey))
  have halike : List.Forall₂ Alike (sortedBy (·.sourceAlias.value) (sources.map GraphSource.constructed))
      (sortedBy (·.sourceAlias.value) (others.map GraphSource.constructed)) := by
    rw [ordered_constructed, ordered_constructed, List.forall₂_map_left_iff, List.forall₂_map_right_iff]
    exact hsorted.imp fun a b hab => constructed_alike hab.1 hab.2
  unfold compileGraph compileMarketplaceGraph at h ⊢
  dsimp only at h ⊢
  rw [← compileSources_alike halike, ← compileCollections_alike halike]
  exact h

/-! ## Compiling again -/

theorem historyError_self (item : MarketplaceArtifact) : historyError item item = none := by
  unfold historyError changedContent
  rw [if_neg (by rw [SemVer.less_iff]; exact lt_irrefl _)]
  simp

/-- What a history adds to the current records was removed, under keys that are not current. -/
theorem history_eq_ok {current : List (ArtifactKey × MarketplaceArtifact)}
    {artifacts : List MarketplaceArtifact} {diagnostics : List Compiler.Diagnostic}
    (h : history current previous = .ok (artifacts, diagnostics)) :
    ∃ gone, artifacts = current.map Prod.snd ++ gone ∧
      ∀ item ∈ gone, item.key ∉ current.map Prod.fst ∧ item.lifecycle = .removed := by
  unfold history at h
  split at h
  · cases h
    exact ⟨[], (List.append_nil _).symm, fun item hitem => absurd hitem List.not_mem_nil⟩
  · split at h
    · cases h
      refine ⟨_, rfl, fun item hitem => ?_⟩
      obtain ⟨old, hold, rfl⟩ := List.mem_map.mp hitem
      exact ⟨of_decide_eq_true (List.mem_filter.mp hold).2, rfl⟩
    · cases h

/-- A graph knows its own current records, so nothing is changed by compiling them after it. -/
theorem history_again {current : List (ArtifactKey × MarketplaceArtifact)} {gone : List MarketplaceArtifact}
    (hsound : EntriesSound current)
    (hgone : ∀ item ∈ gone, item.key ∉ current.map Prod.fst ∧ item.lifecycle = .removed)
    (hgraph : graph.artifacts.Perm (current.map Prod.snd ++ gone)) :
    ∃ artifacts diagnostics, history current (some graph) = .ok (artifacts, diagnostics) ∧
      artifacts.Perm graph.artifacts := by
  have hnone : (current.filterMap fun entry => (graph.recorded entry.1).bind (historyError entry.2)) = [] := by
    refine List.filterMap_eq_nil_iff.mpr fun entry hentry => ?_
    have hrecorded : graph.recorded entry.1 = some entry.2 := by
      refine (graph.recorded_iff _ _).mpr ⟨hgraph.mem_iff.mpr ?_, (hsound entry hentry).1⟩
      exact List.mem_append_left _ (List.mem_map.mpr ⟨entry, hentry, rfl⟩)
    rw [hrecorded, Option.bind_some, historyError_self]
  have hcurrent : (current.map Prod.snd).filter (fun item => decide (item.key ∉ current.map Prod.fst)) = [] := by
    refine List.filter_eq_nil_iff.mpr fun item hitem => ?_
    obtain ⟨entry, hentry, rfl⟩ := List.mem_map.mp hitem
    rw [decide_eq_true_eq, not_not, (hsound entry hentry).1]
    exact List.mem_map.mpr ⟨entry, hentry, rfl⟩
  have hkept : gone.filter (fun item => decide (item.key ∉ current.map Prod.fst)) = gone :=
    List.filter_eq_self.mpr fun item hitem => by simpa using (hgone item hitem).1
  have hremoved : gone.map (fun item => { item with lifecycle := .removed }) = gone := by
    conv_rhs => rw [← List.map_id gone]
    refine List.map_congr_left fun item hitem => ?_
    rw [id, ← (hgone item hitem).2]
  refine ⟨_, _, by simp only [history, hnone]; rfl, ?_⟩
  refine List.Perm.trans (List.Perm.append_left _ ?_) hgraph.symm
  have hfiltered := (hgraph.filter fun item => decide (item.key ∉ current.map Prod.fst)).map
    fun item => ({ item with lifecycle := .removed } : MarketplaceArtifact)
  rw [List.filter_append, hcurrent, hkept, List.nil_append, hremoved] at hfiltered
  exact hfiltered

omit [StandardLibrary] in
theorem artifactSortKey_inj {a b : MarketplaceArtifact} (ha : a ∈ graph.artifacts)
    (hb : b ∈ graph.artifacts) (h : artifactSortKey a.coordinate = artifactSortKey b.coordinate) : a = b := by
  refine List.inj_on_of_nodup_map graph.artifactsQualified ha hb ?_
  obtain ⟨hsource, hrest⟩ := List.cons.inj h
  obtain ⟨hkind, hrest⟩ := List.cons.inj hrest
  obtain ⟨hname, _⟩ := List.cons.inj hrest
  refine Prod.ext (slug_eq_of_value hsource) ?_
  show a.artifact.identity = b.artifact.identity
  have hkinds : a.artifact.identity.kind = b.artifact.identity.kind := ArtifactKind.value_injective hkind
  have hnames : a.artifact.identity.name = b.artifact.identity.name := slug_eq_of_value hname
  rw [show a.artifact.identity = ⟨a.artifact.identity.kind, a.artifact.identity.name⟩ from rfl, hkinds, hnames]

/-- The graph of the same sources after it has the same artifacts and collections. -/
theorem compileGraph_again {sources : List GraphSource} {available : List Capability}
    (h : compileGraph sources available previous = .ok graph) :
    ∃ again, compileGraph sources available (some graph) = .ok again ∧
      again.artifacts = graph.artifacts ∧ again.collections = graph.collections := by
  unfold compileGraph compileMarketplaceGraph at h ⊢
  obtain ⟨hquiet, h⟩ := Result.of_check_ok h
  obtain ⟨collections, hcollections, h⟩ := Result.of_bind_ok h
  obtain ⟨⟨artifacts, diagnostics⟩, hhistory, h⟩ := Result.of_bind_ok h
  obtain ⟨hartifacts, hgraphs⟩ := marketplaceGraph_ok h
  obtain ⟨gone, rfl, hgone⟩ := history_eq_ok hhistory
  have hsound := (compileSources_spec available
    (sortedBy (·.sourceAlias.value) (sources.map GraphSource.constructed)) {} (by simpa using hquiet)).1.sound
      (by simp [EntriesSound])
  have hperm := perm_sortedBy (fun item : MarketplaceArtifact => artifactSortKey item.coordinate)
    (((sortedBy (·.sourceAlias.value) (sources.map GraphSource.constructed)).foldl (compileSource available)
      {}).artifacts.map Prod.snd ++ gone)
  rw [← hartifacts] at hperm
  obtain ⟨others, warnings, hagain, hsame⟩ := history_again hsound hgone hperm
  have hkeys : (others.map (·.key)).Nodup := (hsame.map _).nodup_iff.mpr graph.artifactsQualified
  have hcoordinates : (collections.map (·.coordinate)).Nodup := by
    have hqualified := graph.collectionsQualified
    rw [hgraphs] at hqualified
    exact ((perm_sortedBy _ collections).map _).nodup_iff.mp hqualified
  dsimp only
  rw [if_neg (by simpa using hquiet), hcollections]
  simp only [bind, Except.bind, hagain]
  unfold marketplaceGraph
  rw [dif_pos hkeys, dif_pos hcoordinates]
  refine ⟨_, rfl, ?_, hgraphs.symm⟩
  calc sortedBy (fun item => artifactSortKey item.coordinate) others
      = sortedBy (fun item => artifactSortKey item.coordinate) graph.artifacts :=
        (Arrangements.sortOn_eq_of_perm (fun a ha b hb => artifactSortKey_inj ha hb) hsame.symm).symm
    _ = graph.artifacts := by rw [hartifacts, sortedBy_sortedBy]

/-! ## Order does not matter -/

omit [StandardLibrary] in
theorem requiresOnce_arranged {sources others : List GraphSource} (harranged : Arranged SourceArranged sources others)
    (honce : ∀ source ∈ sources, ∀ artifact ∈ source.artifacts, RequiresOnce artifact) :
    ∀ source ∈ others, ∀ artifact ∈ source.artifacts, RequiresOnce artifact := by
  intro source hsource artifact hartifact
  obtain ⟨first, hfirst, hsources⟩ := harranged.exists_mem hsource
  obtain ⟨own, hown, hartifacts⟩ := hsources.artifacts.exists_mem hartifact
  exact (honce first hfirst own hown).arranged hartifacts

/-- Where no artifact names an identity in two different requirements, arrangements of the sources
compile to the same bytes or not at all, and compiling again after the graph changes neither
artifacts nor collections. -/
theorem compileGraph_orderIndependent (sources : List GraphSource) (available : List Capability)
    (previous : Option MarketplaceGraph)
    (honce : ∀ source ∈ sources, ∀ artifact ∈ source.artifacts, RequiresOnce artifact) :
    (∀ others, Arranged SourceArranged sources others →
      ((∃ graph, compileGraph sources available previous = .ok graph) ↔
        ∃ graph, compileGraph others available previous = .ok graph) ∧
      ∀ graph other, compileGraph sources available previous = .ok graph →
        compileGraph others available previous = .ok other →
        marketplaceGraphBytes graph = marketplaceGraphBytes other) ∧
    ∀ graph, compileGraph sources available previous = .ok graph →
      ∃ again, compileGraph sources available (some graph) = .ok again ∧
        again.artifacts = graph.artifacts ∧ again.collections = graph.collections := by
  refine ⟨fun others harranged => ⟨⟨?_, ?_⟩, ?_⟩, fun graph h => compileGraph_again h⟩
  · rintro ⟨graph, h⟩
    exact ⟨graph, compileGraph_arranged honce harranged h⟩
  · rintro ⟨graph, h⟩
    have hback : Arranged SourceArranged others sources := harranged.flip.mono fun _ _ hsources => hsources.symm
    exact ⟨graph, compileGraph_arranged (requiresOnce_arranged harranged honce) hback h⟩
  · intro graph other h hother
    have hsame := compileGraph_arranged honce harranged h
    rw [Except.ok.inj (hsame.symm.trans hother)]

end Compiling

/-! ## One identity required twice -/

section Sample

attribute [local instance] storeLibrary

def helperSelector (build : String) : ArtifactSelector where
  identity := ⟨.skill, ⟨"helper", by decide⟩⟩
  version := some { minInclusive := some { major := 1, minor := 0, patch := 0, build := [build] } }

/-- A source with one skill that requires these. -/
def helpedSource (requires : List ArtifactSelector) : GraphSource :=
  { tidySource with artifacts := [indexArtifactFromPackage (tidyPackage requires) ⟨"team", Eq.refl true⟩ ⟨"0"⟩ none []] }

def helpedGraph (requires : List ArtifactSelector) : MarketplaceGraph where
  artifacts := [marketplaceArtifact tidySource
    (indexArtifactFromPackage (tidyPackage requires) ⟨"team", Eq.refl true⟩ ⟨"0"⟩ none [])]
  collections := []
  diagnostics := []
  artifactsQualified := List.nodup_singleton _
  collectionsQualified := List.nodup_nil

theorem compileGraph_helped (requires : List ArtifactSelector) :
    compileGraph [helpedSource requires] [] none = .ok (helpedGraph requires) := by
  unfold compileGraph compileMarketplaceGraph
  simp only [compileCollections_empty (show collectionEntries (sortedBy (·.sourceAlias.value)
    ([helpedSource requires].map GraphSource.constructed)) = [] from rfl)]
  rfl

/-- The bytes show which of two selectors with equal bounds was kept. -/
theorem helped_bytes_differ : marketplaceGraphBytes (helpedGraph [helperSelector "a", helperSelector "b"]) ≠
    marketplaceGraphBytes (helpedGraph [helperSelector "b", helperSelector "a"]) := by
  have : JsonRuntime := pythonLibrary_jsonRuntime _ _
  intro hbytes
  have hitems := List.cons.inj (artifactJson_of_bytes hbytes)
  unfold artifactJson at hitems
  have hrequires := @mem_of_object_eq _ _ hitems.1 ("requires", .arr [selectorJson (helperSelector "a")]) (by decide)
  exact absurd hrequires (by decide)

theorem helped_arranged (first second : ArtifactSelector) :
    Arranged SourceArranged [helpedSource [first, second]] [helpedSource [second, first]] := by
  have hartifact : ArtifactArranged
      (indexArtifactFromPackage (tidyPackage [first, second]) ⟨"team", by decide⟩ ⟨"0"⟩ none [])
      (indexArtifactFromPackage (tidyPackage [second, first]) ⟨"team", by decide⟩ ⟨"0"⟩ none []) :=
    { rest := rfl
      profiles := .rfl
      platforms := .rfl
      scopes := .rfl
      modes := .rfl
      effects := .rfl
      setup := .none
      collections := .rfl
      requires := List.Perm.swap _ _ _ }
  exact ⟨_, .rfl, .cons ⟨rfl, rfl, .rfl, ⟨_, .rfl, .cons hartifact .nil⟩, .rfl⟩ .nil⟩

/-- Two orders of the requirements of one artifact compile to different bytes. -/
theorem compileGraph_order_leaks :
    ∃ sources others graph other, Arranged SourceArranged sources others ∧
      compileGraph sources [] none = .ok graph ∧ compileGraph others [] none = .ok other ∧
      marketplaceGraphBytes graph ≠ marketplaceGraphBytes other :=
  ⟨_, _, _, _, helped_arranged _ _, compileGraph_helped _, compileGraph_helped _, helped_bytes_differ⟩

def reviewerSelector : ArtifactSelector := ⟨⟨.skill, ⟨"reviewer", by decide⟩⟩, none⟩

/-- Requirements of two skills compile to the same bytes in both orders. -/
theorem compileGraph_orderIndependent_reviewer :
    marketplaceGraphBytes (helpedGraph [helperSelector "a", reviewerSelector]) =
      marketplaceGraphBytes (helpedGraph [reviewerSelector, helperSelector "a"]) := by
  have honce : ∀ source ∈ [helpedSource [helperSelector "a", reviewerSelector]], ∀ artifact ∈ source.artifacts,
      RequiresOnce artifact := by
    intro source hsource artifact hartifact
    obtain rfl := List.mem_singleton.mp hsource
    obtain rfl := List.mem_singleton.mp hartifact
    show ∀ a ∈ [helperSelector "a", reviewerSelector], ∀ b ∈ [helperSelector "a", reviewerSelector],
      a.identity = b.identity → a = b
    decide
  exact ((compileGraph_orderIndependent _ [] none honce).1 _ (helped_arranged _ _)).2 _ _ (compileGraph_helped _)
    (compileGraph_helped _)

end Sample

end AgentArtifacts.Registry
