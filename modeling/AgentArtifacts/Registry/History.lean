import AgentArtifacts.Registry.Graph

/-!
# Published versions over the history of a graph

Each compilation receives the graph of the one before it. A step keeps every
record, does not lower its version, and changes its content only with its version;
since precedence is a linear order, the same holds between any two graphs of a run.
-/

namespace AgentArtifacts.Registry

/-! ## What the sources publish -/

/-- One of the sources has the artifact under its alias. -/
def Published (sources : List GraphSource) (key : ArtifactKey) : Prop :=
  ∃ source ∈ sources, source.sourceAlias = key.1 ∧ ∃ artifact ∈ source.artifacts, artifact.identity = key.2

/-- The entries of a state are records of available artifacts under their own keys. -/
def EntriesSound (entries : List (ArtifactKey × MarketplaceArtifact)) : Prop :=
  ∀ entry ∈ entries, entry.2.key = entry.1 ∧ entry.2.lifecycle = .available

@[simp] theorem marketplaceArtifact_key (source : GraphSource) (artifact : IndexArtifact) :
    (marketplaceArtifact source artifact).key = (source.sourceAlias, artifact.identity) := rfl

@[simp] theorem report_artifacts (state : CompileState) (code : DiagnosticCode) (message : String) :
    (state.report code message).artifacts = state.artifacts := rfl

@[simp] theorem report_diagnostics (state : CompileState) (code : DiagnosticCode) (message : String) :
    (state.report code message).diagnostics ≠ [] := by
  simp [CompileState.report]

/-- What a step of the compilation may do to its state. -/
structure Advances (state next : CompileState) : Prop where
  kept : ∀ entry ∈ state.artifacts, entry ∈ next.artifacts
  sound : EntriesSound state.artifacts → EntriesSound next.artifacts
  quiet : next.diagnostics = [] → state.diagnostics = []

theorem Advances.refl (state : CompileState) : Advances state state := ⟨fun _ h => h, id, id⟩

theorem Advances.trans {first second third : CompileState} (h : Advances first second)
    (h' : Advances second third) : Advances first third :=
  ⟨fun entry hentry => h'.kept entry (h.kept entry hentry), h'.sound ∘ h.sound, h.quiet ∘ h'.quiet⟩

theorem Advances.report (state : CompileState) (code : DiagnosticCode) (message : String) :
    Advances state (state.report code message) :=
  ⟨fun _ h => h, id, fun hquiet => absurd hquiet (by simp)⟩

/-- The entries after an artifact of a source are the old ones and, unless reported, its own. -/
theorem compileArtifact_advances (source : GraphSource) (state : CompileState) (artifact : IndexArtifact) :
    Advances state (compileArtifact source state artifact) ∧
      (∀ entry ∈ (compileArtifact source state artifact).artifacts,
        entry ∈ state.artifacts ∨ entry.1 = (source.sourceAlias, artifact.identity)) ∧
      ((compileArtifact source state artifact).diagnostics = [] →
        (source.sourceAlias, artifact.identity) ∈ (compileArtifact source state artifact).artifacts.map Prod.fst) := by
  unfold compileArtifact
  split
  · exact ⟨Advances.report .., fun entry hentry => Or.inl hentry, fun hquiet => absurd hquiet (by simp)⟩
  · split
    · exact ⟨Advances.report .., fun entry hentry => Or.inl hentry, fun hquiet => absurd hquiet (by simp)⟩
    · refine ⟨⟨fun entry hentry => by simp [hentry], ?_, fun hquiet => hquiet⟩, ?_, fun _ => by simp⟩
      · intro hsound entry hentry
        rcases List.mem_append.mp hentry with hold | hnew
        · exact hsound entry hold
        · obtain rfl := List.mem_singleton.mp hnew
          exact ⟨rfl, rfl⟩
      · intro entry hentry
        rcases List.mem_append.mp hentry with hold | hnew
        · exact Or.inl hold
        · obtain rfl := List.mem_singleton.mp hnew
          exact Or.inr rfl

theorem compileArtifacts_advances (source : GraphSource) (artifacts : List IndexArtifact) (state : CompileState) :
    Advances state (artifacts.foldl (compileArtifact source) state) ∧
      (∀ entry ∈ (artifacts.foldl (compileArtifact source) state).artifacts, entry ∈ state.artifacts ∨
        ∃ artifact ∈ artifacts, entry.1 = (source.sourceAlias, artifact.identity)) ∧
      ((artifacts.foldl (compileArtifact source) state).diagnostics = [] → ∀ artifact ∈ artifacts,
        (source.sourceAlias, artifact.identity) ∈
          (artifacts.foldl (compileArtifact source) state).artifacts.map Prod.fst) := by
  induction artifacts generalizing state with
  | nil => exact ⟨Advances.refl state, fun entry hentry => Or.inl hentry, fun _ artifact hartifact => by simp at hartifact⟩
  | cons artifact rest ih =>
      obtain ⟨hstep, hentries, hpresent⟩ := compileArtifact_advances source state artifact
      obtain ⟨hrest, hothers, hall⟩ := ih (compileArtifact source state artifact)
      rw [List.foldl_cons]
      refine ⟨hstep.trans hrest, ?_, ?_⟩
      · intro entry hentry
        rcases hothers entry hentry with hold | ⟨other, hother, hkey⟩
        · rcases hentries entry hold with hold | hkey
          · exact Or.inl hold
          · exact Or.inr ⟨artifact, List.mem_cons_self, hkey⟩
        · exact Or.inr ⟨other, List.mem_cons_of_mem _ hother, hkey⟩
      · intro hquiet other hother
        rcases List.mem_cons.mp hother with rfl | hother
        · obtain ⟨entry, hentry, hkey⟩ := List.mem_map.mp (hpresent (hrest.quiet hquiet))
          exact List.mem_map.mpr ⟨entry, hrest.kept entry hentry, hkey⟩
        · exact hall hquiet other hother

theorem enterSource_artifacts (available : List Capability) (source : GraphSource) (state : CompileState) :
    (enterSource available source state).artifacts = state.artifacts := by
  unfold enterSource
  dsimp only
  split <;> split <;> split <;> rfl

theorem enterSource_quiet {available : List Capability} {source : GraphSource} {state : CompileState}
    (h : (enterSource available source state).diagnostics = []) : state.diagnostics = [] := by
  unfold enterSource at h
  dsimp only at h
  split at h <;> split at h <;> split at h <;>
    first
    | exact h
    | exact absurd h (by simp [CompileState.report])

theorem compileSource_advances (available : List Capability) (state : CompileState) (source : GraphSource) :
    Advances state (compileSource available state source) ∧
      (∀ entry ∈ (compileSource available state source).artifacts, entry ∈ state.artifacts ∨
        ∃ artifact ∈ source.artifacts, entry.1 = (source.sourceAlias, artifact.identity)) ∧
      ((compileSource available state source).diagnostics = [] → ∀ artifact ∈ source.artifacts,
        (source.sourceAlias, artifact.identity) ∈ (compileSource available state source).artifacts.map Prod.fst) := by
  obtain ⟨hadvances, hentries, hpresent⟩ :=
    compileArtifacts_advances source source.artifacts (enterSource available source state)
  have hsame := enterSource_artifacts available source state
  refine ⟨⟨?_, ?_, fun hquiet => enterSource_quiet (hadvances.quiet hquiet)⟩, ?_, hpresent⟩
  · intro entry hentry
    exact hadvances.kept entry (by rw [hsame]; exact hentry)
  · intro hsound
    exact hadvances.sound (by rw [hsame]; exact hsound)
  · intro entry hentry
    rw [← hsame]
    exact hentries entry hentry

/-- The compiled entries are those that the sources publish. -/
theorem compileSources_spec (available : List Capability) (sources : List GraphSource) (state : CompileState)
    (hquiet : (sources.foldl (compileSource available) state).diagnostics = []) :
    Advances state (sources.foldl (compileSource available) state) ∧
      ∀ key, key ∈ (sources.foldl (compileSource available) state).artifacts.map Prod.fst ↔
        key ∈ state.artifacts.map Prod.fst ∨ Published sources key := by
  induction sources generalizing state with
  | nil => exact ⟨Advances.refl state, by simp [Published]⟩
  | cons source rest ih =>
      obtain ⟨hstep, hentries, hpresent⟩ := compileSource_advances available state source
      obtain ⟨hrest, hkeys⟩ := ih (compileSource available state source) hquiet
      rw [List.foldl_cons]
      refine ⟨hstep.trans hrest, fun key => ?_⟩
      rw [hkeys key]
      constructor
      · rintro (hkey | ⟨other, hother, hpublished⟩)
        · obtain ⟨entry, hentry, rfl⟩ := List.mem_map.mp hkey
          rcases hentries entry hentry with hold | ⟨artifact, hartifact, heq⟩
          · exact Or.inl (List.mem_map.mpr ⟨entry, hold, rfl⟩)
          · exact Or.inr ⟨source, List.mem_cons_self, by rw [heq], artifact, hartifact, by rw [heq]⟩
        · exact Or.inr ⟨other, List.mem_cons_of_mem _ hother, hpublished⟩
      · rintro (hold | ⟨other, hother, halias, artifact, hartifact, hidentity⟩)
        · obtain ⟨entry, hentry, rfl⟩ := List.mem_map.mp hold
          exact Or.inl (List.mem_map.mpr ⟨entry, hstep.kept entry hentry, rfl⟩)
        · rcases List.mem_cons.mp hother with rfl | hother
          · have hmem := hpresent (hrest.quiet hquiet) artifact hartifact
            rw [halias, hidentity] at hmem
            exact Or.inl hmem
          · exact Or.inr ⟨other, hother, halias, artifact, hartifact, hidentity⟩

/-! ## One compilation -/

theorem MarketplaceGraph.recorded_iff (graph : MarketplaceGraph) (key : ArtifactKey) (item : MarketplaceArtifact) :
    graph.recorded key = some item ↔ item ∈ graph.artifacts ∧ item.key = key := by
  constructor
  · intro h
    exact ⟨List.mem_of_find?_eq_some h, by simpa using List.find?_some h⟩
  · rintro ⟨hitem, hkey⟩
    cases hfound : graph.recorded key with
    | none =>
        have hnone := List.find?_eq_none.mp hfound item hitem
        exact absurd hkey (by simpa using hnone)
    | some other =>
        have hother : other.key = key := by simpa using List.find?_some hfound
        have hmem : other ∈ graph.artifacts := List.mem_of_find?_eq_some hfound
        rw [List.inj_on_of_nodup_map graph.artifactsQualified hmem hitem (hother.trans hkey.symm)]

theorem marketplaceGraph_ok {artifacts : List MarketplaceArtifact} {collections : List MarketplaceCollection}
    {diagnostics : List Compiler.Diagnostic} {graph : MarketplaceGraph}
    (h : marketplaceGraph artifacts collections diagnostics = .ok graph) :
    graph.artifacts = sortedBy (fun item => artifactSortKey item.coordinate) artifacts ∧
      graph.collections =
        sortedBy (fun item => [item.coordinate.source.value, item.coordinate.name.value]) collections := by
  unfold marketplaceGraph at h
  split at h
  · split at h
    · rw [← Except.ok.inj h]
      exact ⟨rfl, rfl⟩
    · exact absurd h (by simp [error])
  · exact absurd h (by simp [error])

section Compiling

variable [StandardLibrary]

/-- A compiled graph records what the sources publish, joined with the history. -/
theorem compileMarketplaceGraph_records {sources : List GraphSource} {available : List Capability}
    {previous : Option MarketplaceGraph} {graph : MarketplaceGraph}
    (h : compileMarketplaceGraph sources available previous = .ok graph) :
    ∃ current artifacts diagnostics, EntriesSound current ∧
      (∀ key, key ∈ current.map Prod.fst ↔ Published sources key) ∧
      history current previous = .ok (artifacts, diagnostics) ∧
      ∀ item, item ∈ graph.artifacts ↔ item ∈ artifacts := by
  unfold compileMarketplaceGraph at h
  obtain ⟨hquiet, h⟩ := Result.of_check_ok h
  obtain ⟨collections, _, h⟩ := Result.of_bind_ok h
  obtain ⟨⟨artifacts, diagnostics⟩, hhistory, h⟩ := Result.of_bind_ok h
  obtain ⟨hadvances, hkeys⟩ := compileSources_spec available (sortedBy (·.sourceAlias.value) sources) {}
    (by simpa using hquiet)
  refine ⟨_, artifacts, diagnostics, hadvances.sound (by simp [EntriesSound]), fun key => ?_, hhistory, ?_⟩
  · rw [hkeys key]
    simp [Published, mem_sortedBy]
  · intro item
    rw [(marketplaceGraph_ok h).1]
    exact mem_sortedBy

/-- The four digests of a record are those of another one. -/
def SameContent (item old : MarketplaceArtifact) : Prop :=
  item.semanticDigest = old.semanticDigest ∧ item.artifact.manifestDigest = old.artifact.manifestDigest ∧
    item.artifact.payloadDigest = old.artifact.payloadDigest ∧
    item.artifact.objectDigest = old.artifact.objectDigest

/-- A record may follow another one: its version is not lower, and of equal precedence
only with the same content. -/
structure Follows (item old : MarketplaceArtifact) : Prop where
  monotone : item.artifact.version.less old.artifact.version = false
  immutable : item.artifact.version.samePrecedence old.artifact.version = true → SameContent item old

theorem follows_of_historyError {item old : MarketplaceArtifact} (h : historyError item old = none) :
    Follows item old := by
  unfold historyError at h
  split at h
  · exact absurd h (by simp)
  · rename_i hless
    refine ⟨by simpa using hless, fun hsame => ?_⟩
    rw [if_pos hsame] at h
    split at h
    · exact absurd h (by simp)
    · rename_i hunchanged
      simp only [changedContent, Bool.or_eq_true, not_or, bne_iff_ne, ne_eq, not_not] at hunchanged
      exact ⟨hunchanged.1.1.1, hunchanged.1.1.2, hunchanged.1.2, hunchanged.2⟩

/-- A record that was only marked as removed follows itself. -/
theorem Follows.of_artifact_eq {item old : MarketplaceArtifact} (h : item.artifact = old.artifact) :
    Follows item old := by
  refine ⟨?_, fun _ => ⟨by simp only [MarketplaceArtifact.semanticDigest, h], by rw [h], by rw [h], by rw [h]⟩⟩
  rw [← Bool.not_eq_true, SemVer.less_iff, h]
  exact lt_irrefl _

theorem Follows.trans {first second third : MarketplaceArtifact} (h : Follows second first)
    (h' : Follows third second) : Follows third first := by
  obtain ⟨hmonotone, himmutable⟩ := h
  obtain ⟨hmonotone', himmutable'⟩ := h'
  rw [← Bool.not_eq_true, SemVer.less_iff, not_lt] at hmonotone hmonotone'
  refine ⟨?_, fun hsame => ?_⟩
  · rw [← Bool.not_eq_true, SemVer.less_iff, not_lt]
    exact hmonotone.trans hmonotone'
  · -- Between versions of equal precedence there is no other one.
    rw [SemVer.samePrecedence_iff] at hsame
    have hmiddle : second.artifact.version.key = first.artifact.version.key :=
      le_antisymm (hsame ▸ hmonotone') hmonotone
    obtain ⟨hsemantic, hmanifest, hpayload, hobject⟩ := himmutable ((SemVer.samePrecedence_iff _ _).mpr hmiddle)
    obtain ⟨hsemantic', hmanifest', hpayload', hobject'⟩ :=
      himmutable' ((SemVer.samePrecedence_iff _ _).mpr (hsame.trans hmiddle.symm))
    exact ⟨hsemantic'.trans hsemantic, hmanifest'.trans hmanifest, hpayload'.trans hpayload,
      hobject'.trans hobject⟩

/-- Every record of a graph has one in a later graph that may follow it. -/
def Keeps (earlier later : MarketplaceGraph) : Prop :=
  ∀ key old, earlier.recorded key = some old → ∃ item, later.recorded key = some item ∧ Follows item old

theorem compileMarketplaceGraph_keeps {sources : List GraphSource} {available : List Capability}
    {previous graph : MarketplaceGraph} (h : compileMarketplaceGraph sources available (some previous) = .ok graph) :
    Keeps previous graph := by
  intro key old hold
  obtain ⟨current, artifacts, diagnostics, hsound, _, hhistory, hrecords⟩ := compileMarketplaceGraph_records h
  simp only [history] at hhistory
  split at hhistory
  · rename_i hnone
    obtain ⟨rfl, _⟩ := Prod.mk.inj (Except.ok.inj hhistory)
    by_cases hcurrent : key ∈ current.map Prod.fst
    · obtain ⟨entry, hentry, rfl⟩ := List.mem_map.mp hcurrent
      refine ⟨entry.2, (graph.recorded_iff _ _).mpr ⟨(hrecords entry.2).mpr ?_, (hsound entry hentry).1⟩, ?_⟩
      · exact List.mem_append_left _ (List.mem_map.mpr ⟨entry, hentry, rfl⟩)
      · have hquiet := List.filterMap_eq_nil_iff.mp hnone entry hentry
        rw [hold] at hquiet
        exact follows_of_historyError hquiet
    · obtain ⟨hitem, hkey⟩ := (previous.recorded_iff key old).mp hold
      refine ⟨{ old with lifecycle := .removed }, (graph.recorded_iff _ _).mpr ⟨(hrecords _).mpr ?_, hkey⟩, ?_⟩
      · refine List.mem_append_right _ (List.mem_map.mpr ⟨old, List.mem_filter.mpr ⟨hitem, ?_⟩, rfl⟩)
        rw [hkey]
        simpa using hcurrent
      · exact Follows.of_artifact_eq rfl
  · exact absurd hhistory (by simp)

/-- A record is available exactly while the sources publish it, and removed otherwise. -/
def LifecycleExact (sources : List GraphSource) (graph : MarketplaceGraph) : Prop :=
  ∀ key item, graph.recorded key = some item →
    (item.lifecycle = .available ↔ Published sources key) ∧ (item.lifecycle = .removed ↔ ¬ Published sources key)

theorem compileMarketplaceGraph_lifecycle {sources : List GraphSource} {available : List Capability}
    {previous : Option MarketplaceGraph} {graph : MarketplaceGraph}
    (h : compileMarketplaceGraph sources available previous = .ok graph) : LifecycleExact sources graph := by
  intro key item hitem
  obtain ⟨current, artifacts, diagnostics, hsound, hpublished, hhistory, hrecords⟩ :=
    compileMarketplaceGraph_records h
  obtain ⟨hmem, hkey⟩ := (graph.recorded_iff key item).mp hitem
  have hmem := (hrecords item).mp hmem
  have havailable (hcurrent : item ∈ current.map Prod.snd) :
      item.lifecycle = .available ∧ Published sources key := by
    obtain ⟨entry, hentry, rfl⟩ := List.mem_map.mp hcurrent
    obtain ⟨hown, hlifecycle⟩ := hsound entry hentry
    refine ⟨hlifecycle, (hpublished key).mp (List.mem_map.mpr ⟨entry, hentry, ?_⟩)⟩
    rw [← hkey, hown]
  have hexact : item.lifecycle = .available ∧ Published sources key ∨
      item.lifecycle = .removed ∧ ¬ Published sources key := by
    cases previous with
    | none =>
        obtain ⟨rfl, _⟩ := Prod.mk.inj (Except.ok.inj hhistory)
        exact Or.inl (havailable hmem)
    | some graph =>
        simp only [history] at hhistory
        split at hhistory
        · obtain ⟨rfl, _⟩ := Prod.mk.inj (Except.ok.inj hhistory)
          rcases List.mem_append.mp hmem with hcurrent | hremoved
          · exact Or.inl (havailable hcurrent)
          · obtain ⟨old, hold, rfl⟩ := List.mem_map.mp hremoved
            refine Or.inr ⟨rfl, fun hpublish => ?_⟩
            have hnot : old.key ∉ current.map Prod.fst := by simpa using (List.mem_filter.mp hold).2
            exact hnot ((hpublished old.key).mpr (by rw [show old.key = key from hkey]; exact hpublish))
        · exact absurd hhistory (by simp)
  rcases hexact with ⟨hlifecycle, hpublish⟩ | ⟨hlifecycle, hpublish⟩
  · simp [hlifecycle, hpublish]
  · simp [hlifecycle, hpublish]

/-! ## Runs -/

/-- The arguments of one compilation. -/
structure Compilation where
  sources : List GraphSource
  available : List Capability

/-- Successful compilations, the newest first; each receives the graph of the one before. -/
inductive Compilations : List (Compilation × MarketplaceGraph) → Prop where
  | first {call : Compilation} {previous : Option MarketplaceGraph} {graph : MarketplaceGraph} :
      compileMarketplaceGraph call.sources call.available previous = .ok graph → Compilations [(call, graph)]
  | next {call : Compilation} {graph : MarketplaceGraph} {last : Compilation × MarketplaceGraph}
      {earlier : List (Compilation × MarketplaceGraph)} :
      Compilations (last :: earlier) →
      compileMarketplaceGraph call.sources call.available (some last.2) = .ok graph →
      Compilations ((call, graph) :: last :: earlier)

theorem Keeps.trans {first second third : MarketplaceGraph} (h : Keeps first second) (h' : Keeps second third) :
    Keeps first third := by
  intro key old hold
  obtain ⟨item, hitem, hfollows⟩ := h key old hold
  obtain ⟨newest, hnewest, hfollows'⟩ := h' key item hitem
  exact ⟨newest, hnewest, hfollows.trans hfollows'⟩

/-- In every run of compilations, a later graph has each record of an earlier one, in a
version that is not lower and, where the precedence is equal, with the same digests;
and every record is available exactly when the sources of its compilation publish it. -/
theorem compilations_keep_published_versions {runs : List (Compilation × MarketplaceGraph)}
    (h : Compilations runs) :
    (runs.Pairwise fun later earlier => ∀ key old, earlier.2.recorded key = some old →
      ∃ item, later.2.recorded key = some item ∧
        item.artifact.version.less old.artifact.version = false ∧
        (item.artifact.version.samePrecedence old.artifact.version = true →
          item.semanticDigest = old.semanticDigest ∧
          item.artifact.manifestDigest = old.artifact.manifestDigest ∧
          item.artifact.payloadDigest = old.artifact.payloadDigest ∧
          item.artifact.objectDigest = old.artifact.objectDigest)) ∧
    ∀ run ∈ runs, ∀ key item, run.2.recorded key = some item →
      (item.lifecycle = .available ↔ Published run.1.sources key) ∧
      (item.lifecycle = .removed ↔ ¬ Published run.1.sources key) := by
  have hkeeps : runs.Pairwise fun later earlier => Keeps earlier.2 later.2 := by
    induction h with
    | first _ => exact List.pairwise_singleton _ _
    | next _ hcompile ih =>
        have hstep := compileMarketplaceGraph_keeps hcompile
        refine List.pairwise_cons.mpr ⟨fun earlier hearlier => ?_, ih⟩
        rcases List.mem_cons.mp hearlier with rfl | hearlier
        · exact hstep
        · exact ((List.pairwise_cons.mp ih).1 earlier hearlier).trans hstep
  refine ⟨hkeeps.imp ?_, ?_⟩
  · intro later earlier hkeep key old hold
    obtain ⟨item, hitem, hmonotone, himmutable⟩ := hkeep key old hold
    exact ⟨item, hitem, hmonotone, himmutable⟩
  · induction h with
    | first hcompile =>
        intro run hrun
        obtain rfl := List.mem_singleton.mp hrun
        exact compileMarketplaceGraph_lifecycle hcompile
    | next _ hcompile ih =>
        intro run hrun
        rcases List.mem_cons.mp hrun with rfl | hrun
        · exact compileMarketplaceGraph_lifecycle hcompile
        · exact ih (List.pairwise_cons.mp hkeeps).2 run hrun

end Compiling

section Samples

attribute [local instance] plainLibrary

def tidyArtifact : IndexArtifact :=
  indexArtifactFromPackage (tidyPackage []) ⟨"team", by decide⟩ ⟨"0"⟩ none []

def tidySource : GraphSource where
  sourceAlias := ⟨"team", by decide⟩
  sourceId := ⟨"team", by decide⟩
  requiredCapabilities := []
  artifacts := [tidyArtifact]

def tidyKey : ArtifactKey := (⟨"team", Eq.refl true⟩, ⟨.skill, ⟨"tidy", Eq.refl true⟩⟩)

/-- A graph of the skill alone. -/
def tidyGraph (lifecycle : ArtifactLifecycle) : MarketplaceGraph where
  artifacts := [{ marketplaceArtifact tidySource tidyArtifact with lifecycle }]
  collections := []
  diagnostics := []
  artifactsQualified := List.nodup_singleton _
  collectionsQualified := List.nodup_nil

theorem compileCollections_empty {sources : List GraphSource} (h : collectionEntries sources = [])
    (artifacts : List (ArtifactKey × MarketplaceArtifact)) : compileCollections sources artifacts = .ok [] := by
  unfold compileCollections
  simp only [h, repeatedItems, List.map_nil]
  rw [show sortedBy (fun coordinate : CollectionCoordinate => [coordinate.source.value, coordinate.name.value]) [] =
    [] from rfl, Search.Visitor.visitAll]
  rfl

theorem compile_published : compileMarketplaceGraph [tidySource] [] none = .ok (tidyGraph .available) := by
  unfold compileMarketplaceGraph
  simp only [compileCollections_empty (show collectionEntries (sortedBy (·.sourceAlias.value) [tidySource]) = [] from rfl)]
  rfl

theorem compile_withdrawn :
    compileMarketplaceGraph [] [] (some (tidyGraph .available)) = .ok (tidyGraph .removed) := by
  unfold compileMarketplaceGraph
  simp only [compileCollections_empty (show collectionEntries (sortedBy (·.sourceAlias.value) []) = [] from rfl)]
  rfl

/-- A skill that is published and then withdrawn stays recorded. -/
theorem compilations_keep_published_versions_withdrawn :
    ∃ item, (tidyGraph .removed).recorded tidyKey = some item ∧ item.lifecycle = .removed := by
  have hruns : Compilations [(⟨[], []⟩, tidyGraph .removed), (⟨[tidySource], []⟩, tidyGraph .available)] :=
    .next (.first compile_published) compile_withdrawn
  obtain ⟨hpairs, hlifecycle⟩ := compilations_keep_published_versions hruns
  obtain ⟨item, hitem, _⟩ := (List.pairwise_cons.mp hpairs).1 _ List.mem_cons_self tidyKey _ rfl
  exact ⟨item, hitem, (hlifecycle _ List.mem_cons_self tidyKey item hitem).2.mpr (by simp [Published])⟩

end Samples

end AgentArtifacts.Registry
