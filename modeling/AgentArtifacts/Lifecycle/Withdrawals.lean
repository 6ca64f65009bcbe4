import AgentArtifacts.Consumer.Catalog
import AgentArtifacts.Installation.Atomicity
import AgentArtifacts.Lifecycle.Check
import AgentArtifacts.Registry.History
import AgentArtifacts.Store.ObjectEnvelope

/-!
# Two catalogs that hold no available artifact

The source `team` withdrew an installed skill: a compilation that knows the graph before keeps a
tombstone, one that does not forgets the skill. A source that declares another identity leaves the
subscription current.
-/

namespace AgentArtifacts

open Registry (MarketplaceArtifact MarketplaceGraph compileMarketplaceGraph tidyArtifact tidyGraph tidySource
  compileCollections_empty sortedBy)

section Sample

attribute [local instance] storeLibrary

def teamAlias : SourceAlias := ⟨"team", Eq.refl true⟩

def teamConfigured : ConfiguredSource := ⟨teamAlias, .sourceLocal, "/srv/team", none, true⟩

def emptySnapshot : SourceSnapshot := ⟨.local, [], rfl⟩

def teamCandidate : SourceCandidate where
  instanceId := ⟨"local-" ++ String.ofList (List.replicate 32 '0')⟩
  sourceAlias := teamAlias
  resolvedRevision := "local"
  snapshotDigest := sampleDigest '0'
  snapshot := emptySnapshot
  revisionLine := by decide
  canonical := by decide
  binds := rfl

/-- The source as it declares itself now. -/
def teamState (declared : SourceId) : Consumer.MarketplaceSourceState where
  configured := teamConfigured
  health := ⟨.healthy, some 0, some ⟨teamCandidate, declared, 0, "/data/sources/team"⟩, []⟩
  displayOrder := 0
  enabled := rfl
  consistent := rfl
  bound := by
    rintro _ ⟨⟩
    exact ⟨rfl, rfl⟩

def declaringView (declared : SourceId) : MarketplaceSourceView :=
  { teamView with sourceId := some declared, snapshotDigest := some (sampleDigest '0') }

def localTrust (_ : MarketplaceArtifact) (_ : MarketplaceSourceView) : TrustDecision := ⟨.localTrust, sampleDigest '4'⟩

/-- The catalog with the tombstone of the skill. -/
def withdrawnCatalog : Consumer.MarketplaceCatalog where
  sources := [declaringView tidySource.sourceId]
  items := (tidyGraph .removed).artifacts.map fun artifact =>
    ⟨{ Registry.marketplaceArtifact tidySource tidyArtifact with lifecycle := artifact.lifecycle },
      declaringView tidySource.sourceId, ⟨.localTrust, sampleDigest '4'⟩, rfl, rfl⟩
  collections := []
  aliasesUnique := by decide
  itemsQualified := by decide
  itemsBound := by simp
  collectionsQualified := List.nodup_nil
  collectionsBound := by simp
  membersListed := by simp

/-- The catalog of a source that publishes nothing. -/
def emptiedCatalog (declared : SourceId) : Consumer.MarketplaceCatalog where
  sources := [declaringView declared]
  items := []
  collections := []
  aliasesUnique := List.nodup_singleton _
  itemsQualified := List.nodup_nil
  itemsBound := by simp
  collectionsQualified := List.nodup_nil
  collectionsBound := by simp
  membersListed := by simp

def emptyGraph : MarketplaceGraph := ⟨[], [], [], List.nodup_nil, List.nodup_nil⟩

theorem compile_tombstone :
    compileMarketplaceGraph [] [] (some (tidyGraph .available)) = .ok (tidyGraph .removed) := by
  unfold compileMarketplaceGraph
  simp only [compileCollections_empty
    (show Registry.collectionEntries (sortedBy (·.sourceAlias.value) []) = [] from rfl)]
  rfl

theorem compile_nothing : compileMarketplaceGraph [] [] none = .ok emptyGraph := by
  unfold compileMarketplaceGraph
  simp only [compileCollections_empty
    (show Registry.collectionEntries (sortedBy (·.sourceAlias.value) []) = [] from rfl)]
  rfl

def teamPlanning (catalog : Consumer.MarketplaceCatalog) : PlanningInputs :=
  { teamInputs (indexedArtifact sampleArtifact.identity "1.0.0" (sampleDigest '0')) "/work" (Eq.refl true) with
    catalog := catalog.summary }

def buildTeam (graph : MarketplaceGraph) (declared : SourceId) : Result Consumer.MarketplaceCatalog :=
  Consumer.buildMarketplace (teamPlanning withdrawnCatalog).services localTrust graph
    (teamPlanning withdrawnCatalog).effective none [teamState declared]

theorem sourceView_team (declared : SourceId) :
    Consumer.sourceView (teamPlanning withdrawnCatalog).services (teamState declared) = .ok (declaringView declared) := by
  unfold Consumer.sourceView
  have horigin : configuredOrigin (teamPlanning withdrawnCatalog).services teamConfigured = some "/srv/team" := rfl
  have hline : isRevision "/srv/team" = true := by decide
  dsimp only [teamState]
  rw [horigin]
  dsimp only
  rw [hline]
  rfl

theorem views_team (declared : SourceId) :
    ((([] ++ [teamState declared]).insertionSort fun a b =>
      Consumer.sourceRank none a ≤ Consumer.sourceRank none b).mapM
        (Consumer.sourceView (teamPlanning withdrawnCatalog).services)) = .ok [declaringView declared] := by
  rw [List.nil_append, List.insertionSort_cons, List.insertionSort_nil, List.orderedInsert_nil, List.mapM_cons,
    sourceView_team]
  rfl

theorem accept_team (declared : SourceId) :
    Consumer.acceptStates [(teamAlias, teamConfigured)] [] [teamState declared] = ([] ++ [teamState declared], []) := by
  unfold Consumer.acceptStates
  rw [if_neg (by simp), if_neg (by rw [ne_eq, not_not]; rfl), Consumer.acceptStates]

theorem build_withdrawn : buildTeam (tidyGraph .removed) tidySource.sourceId = .ok withdrawnCatalog := by
  have hsources : (teamPlanning withdrawnCatalog).effective.sources = [teamConfigured] := rfl
  have henabled : [teamConfigured].filter (·.enabled) = [teamConfigured] := rfl
  unfold buildTeam Consumer.buildMarketplace
  dsimp only
  rw [hsources, henabled, List.map_singleton, if_neg (by decide), if_neg (by decide)]
  erw [accept_team]
  dsimp only
  rw [views_team]
  rfl

theorem build_emptied (declared : SourceId) : buildTeam emptyGraph declared = .ok (emptiedCatalog declared) := by
  have hsources : (teamPlanning withdrawnCatalog).effective.sources = [teamConfigured] := rfl
  have henabled : [teamConfigured].filter (·.enabled) = [teamConfigured] := rfl
  unfold buildTeam Consumer.buildMarketplace
  dsimp only
  rw [hsources, henabled, List.map_singleton, if_neg (by exact of_decide_eq_true rfl), if_neg (by decide)]
  erw [accept_team]
  dsimp only
  rw [views_team]
  rfl

/-! ## What a check and an update make of them -/

def tidyRecord : InstallationRecord :=
  { sampleRecord with artifact := ⟨⟨.skill, ⟨"tidy", Eq.refl true⟩⟩, "1.0.0", ⟨"0"⟩, ⟨"0"⟩, ⟨"0"⟩⟩ }

local instance tidyCodec : ManifestCodec := tableCodec []

def quietPorts : LifecycleReadPorts where
  readObject _ := .ok none
  readState _ := .ok none
  inspectState _ := .ok .absent
  inspectPath _ := .ok .absent
  inspectLinkTarget _ _ := .ok .absent
  readReferences := .ok emptyIndex

/-- What a check and an update would come to if they resolved the artifact and saw its identity. -/
def AgreesWithSelection (inputs : PlanningInputs) (record : InstallationRecord) : Prop :=
  ((checkItem inputs record).status = .removedUpstream ↔
      recordedSubscriptionCurrent inputs record = true ∧ recordedIdentityChanged inputs record = false ∧
        NoneAvailable inputs.catalog record) ∧
    ∀ ports options updated, prepareUpdate record inputs ports options = .ok updated →
      (updated.TreatsAsRemoved ↔
        recordedSubscriptionCurrent inputs record = true ∧ recordedIdentityChanged inputs record = false ∧
          NoneAvailable inputs.catalog record)

theorem noneAvailable_withdrawn : NoneAvailable (teamPlanning withdrawnCatalog).catalog tidyRecord := by
  rw [noneAvailable_iff]
  intro item hitem _
  obtain ⟨listed, hlisted, rfl⟩ := List.mem_map.mp hitem
  obtain rfl := List.mem_singleton.mp hlisted
  rfl

theorem noneAvailable_emptied (declared : SourceId) :
    NoneAvailable (teamPlanning (emptiedCatalog declared)).catalog tidyRecord := by
  rw [noneAvailable_iff]
  intro item hitem _
  exact absurd hitem List.not_mem_nil

/-- The tombstone is reported as current; and an update of an artifact that is gone does not look at
the identity that its source declares. -/
theorem tombstone_reported_current :
    (compileMarketplaceGraph [] [] (some (tidyGraph .available)) = .ok (tidyGraph .removed) ∧
      buildTeam (tidyGraph .removed) tidySource.sourceId = .ok withdrawnCatalog ∧
      (checkItem (teamPlanning withdrawnCatalog) tidyRecord).status = .current ∧
      ¬ AgreesWithSelection (teamPlanning withdrawnCatalog) tidyRecord) ∧
    compileMarketplaceGraph [] [] none = .ok emptyGraph ∧
      buildTeam emptyGraph ⟨"other", by decide⟩ = .ok (emptiedCatalog ⟨"other", by decide⟩) ∧
      ¬ AgreesWithSelection (teamPlanning (emptiedCatalog ⟨"other", by decide⟩)) tidyRecord := by
  refine ⟨⟨compile_tombstone, build_withdrawn, by decide, ?_⟩, compile_nothing, build_emptied _, ?_⟩
  · rintro ⟨hcheck, _⟩
    have hremoved := hcheck.mpr ⟨by decide, by decide, noneAvailable_withdrawn⟩
    exact absurd hremoved (by decide)
  · rintro ⟨_, hupdate⟩
    have hready := hupdate quietPorts {} _ rfl
    exact absurd (hready.mp rfl).2.1 (by decide)

/-- A skill that its source no longer publishes is reported as removed. -/
theorem removedUpstream_agrees_emptied :
    (checkItem (teamPlanning (emptiedCatalog tidySource.sourceId)) tidyRecord).status = .removedUpstream := by
  have hlive : ¬ Withdrawn (teamPlanning (emptiedCatalog tidySource.sourceId)).catalog tidyRecord := by
    rintro ⟨item, hitem, _⟩
    exact absurd hitem List.not_mem_nil
  have hagrees := removedUpstream_agrees hlive sampleState ⟨.project, [], []⟩ quietPorts {}
  exact hagrees.2.1.mpr ⟨by decide, by decide, noneAvailable_emptied _⟩

end Sample

end AgentArtifacts
