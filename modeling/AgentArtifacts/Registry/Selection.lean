import AgentArtifacts.Protocol.Paths
import AgentArtifacts.Registry.Expansion
import AgentArtifacts.Registry.History

/-!
# Selection from a graph

A request names artifacts and collections of a compiled graph. An explicit selection fails
where a coordinate cannot be selected, and a broad one skips it; both look at the same
coordinates and come to the same decision on each of them.
-/

namespace AgentArtifacts.Registry

def artifactIncompatible : DiagnosticCode := ⟨"artifact-incompatible"⟩

/-! ## Compatibility -/

structure CompatibilityReason where
  code : String
  message : String
deriving DecidableEq

/-- `tuple(sorted(set(...)))` of reasons. -/
def sortedReasons (reasons : List CompatibilityReason) : List CompatibilityReason :=
  sortedBy (fun reason => [reason.code, reason.message]) reasons.dedup

structure CompatibilityTarget where
  profile : String
  platform : String
  scope : InstallScope
  mode : InstallMode
  effects : List InstallEffect
  aartVersion : SemVer
  setupCapabilities : List Capability := []
  requireSetup : Bool := true
deriving DecidableEq

structure CompatibilityDecision where
  payloadReasons : List CompatibilityReason
  setupReasons : List CompatibilityReason
  setupRequired : Bool
deriving DecidableEq

def CompatibilityDecision.reasons (decision : CompatibilityDecision) : List CompatibilityReason :=
  sortedBy (fun reason => [reason.code, reason.message])
    (decision.payloadReasons ++ if decision.setupRequired then decision.setupReasons else [])

def CompatibilityDecision.compatible (decision : CompatibilityDecision) : Bool :=
  decision.payloadReasons.isEmpty && (decision.setupReasons.isEmpty || !decision.setupRequired)

def versionBoundsLabel (bounds : VersionBounds) : String :=
  let parts := (bounds.minInclusive.map fun version => ">=" ++ version.str).toList ++
    (bounds.maxExclusive.map fun version => "<" ++ version.str).toList
  if parts = [] then "any" else String.intercalate "," parts

/-- `_supported`. -/
def supported (values : List String) : String :=
  let labels := sortedBy id values
  if labels = [] then "none" else String.intercalate ", " labels

def reasonUnless (condition : Bool) (code message : String) : List CompatibilityReason :=
  if condition then [] else [⟨code, message⟩]

/-- A choice that the artifact does not offer. -/
def unsupported (dimension value : String) (offered : List String) : List CompatibilityReason :=
  reasonUnless (decide (value ∈ offered)) (dimension ++ "-unsupported")
    (dimension ++ " " ++ pyRepr value ++ " is not supported; supported " ++ dimension ++ "s: " ++ supported offered)

def payloadReasons (item : MarketplaceArtifact) (target : CompatibilityTarget) : List CompatibilityReason :=
  let manifest := item.artifact
  reasonUnless (manifest.requiresAart.allows target.aartVersion) "aart-version-unsupported"
      ("artifact requires AART " ++ versionBoundsLabel manifest.requiresAart ++ "; running AART " ++
        target.aartVersion.str ++ " may not support behavior used by this artifact, so installation is disabled") ++
    reasonUnless (item.lifecycle != .removed) "artifact-removed" "artifact was removed from its source" ++
    unsupported "profile" target.profile manifest.compatibility.profiles ++
    unsupported "platform" target.platform manifest.compatibility.platforms ++
    unsupported "scope" target.scope.value (manifest.install.scopes.map (·.value)) ++
    unsupported "mode" target.mode.value (manifest.install.modes.map (·.value)) ++
    manifest.install.effects.flatMap fun effect =>
      reasonUnless (decide (effect ∈ target.effects)) "effect-unsupported"
        ("install effect " ++ pyRepr effect.value ++ " is unavailable")

def setupReasons (setup : IndexSetup) (target : CompatibilityTarget) : List CompatibilityReason :=
  let missing := setup.capabilities.filter fun capability => capability ∉ target.setupCapabilities
  reasonUnless (decide (target.platform ∈ setup.platforms)) "setup-platform-unsupported"
      ("setup does not support platform " ++ pyRepr target.platform ++ "; supported platforms: " ++
        supported setup.platforms) ++
    reasonUnless missing.isEmpty "setup-capability-missing"
      ("setup capabilities are unavailable: " ++ String.intercalate ", " (missing.map (·.value)))

def evaluateCompatibility (item : MarketplaceArtifact) (target : CompatibilityTarget) : CompatibilityDecision where
  payloadReasons := sortedReasons (payloadReasons item target)
  setupReasons := sortedReasons ((item.artifact.setup.map fun setup => setupReasons setup target).getD [])
  setupRequired := target.requireSetup

/-! ## Requests -/

inductive SelectionMode where
  | broad
  | explicit
deriving DecidableEq

structure SelectionRequest where
  mode : SelectionMode
  target : CompatibilityTarget
  artifacts : List ArtifactCoordinate := []
  collections : List CollectionCoordinate := []
deriving DecidableEq

/-- A request with its coordinates in order, each once. -/
def selectionRequest (mode : SelectionMode) (target : CompatibilityTarget) (artifacts : List ArtifactCoordinate)
    (collections : List CollectionCoordinate) : SelectionRequest where
  mode
  target
  artifacts := sortedBy artifactSortKey artifacts.dedup
  collections := sortedBy (fun coordinate => [coordinate.source.value, coordinate.name.value]) collections.dedup

structure SelectionSkip where
  coordinate : ArtifactCoordinate
  reasons : List CompatibilityReason
deriving DecidableEq

structure SelectionResult where
  selected : List MarketplaceArtifact
  skipped : List SelectionSkip
deriving DecidableEq

def selectionResult (selected : List MarketplaceArtifact) (skipped : List SelectionSkip) : SelectionResult where
  selected := sortedBy (fun item => artifactSortKey item.coordinate) selected
  skipped := sortedBy (fun skip => artifactSortKey skip.coordinate) skipped

def expandCollection (graph : MarketplaceGraph) (coordinate : CollectionCoordinate) : Result (List ArtifactCoordinate) :=
  match graph.collections.find? fun collection => collection.coordinate = coordinate with
  | some collection => .ok collection.members
  | none => error artifactNotFound ("collection is not available: " ++ coordinate.str)

/-- Nothing requested is everything, for a broad selection. -/
def requestedArtifacts (graph : MarketplaceGraph) (request : SelectionRequest) : Result (List ArtifactCoordinate) := do
  let expanded ← request.collections.mapM (expandCollection graph)
  let requested := request.artifacts ++ expanded.flatten
  if requested = [] then
    if request.mode = .explicit then
      error artifactNotFound "explicit selection requires at least one artifact or collection"
    else return sortedBy artifactSortKey (graph.artifacts.map (·.coordinate)).dedup
  else return sortedBy artifactSortKey requested.dedup

/-! ## Selection -/

structure SelectionState where
  selected : List (ArtifactKey × MarketplaceArtifact) := []
  skipped : List SelectionSkip := []
  diagnostics : List Diagnostic := []

def selectionDiagnostic (item : MarketplaceArtifact) (decision : CompatibilityDecision) : Diagnostic :=
  ⟨if item.lifecycle = .removed then artifactNotFound else artifactIncompatible,
    "cannot select " ++ item.coordinate.str ++ ": " ++
      String.intercalate "; " (decision.reasons.map (·.message))⟩

/-- A coordinate that cannot be selected: an error of an explicit selection, a skip of a broad one. -/
def SelectionState.refuse (state : SelectionState) (mode : SelectionMode) (diagnostic : Diagnostic)
    (skip : SelectionSkip) : SelectionState :=
  if mode = .explicit then { state with diagnostics := state.diagnostics ++ [diagnostic] }
  else { state with skipped := state.skipped ++ [skip] }

/-- The artifact of the graph with the key of the coordinate, where it has the version asked for. -/
def namedArtifact (graph : MarketplaceGraph) (coordinate : ArtifactCoordinate) : Option MarketplaceArtifact :=
  (graph.recorded (coordinate.source, coordinate.artifact)).filter fun item =>
    coordinate.version.all fun version => version == item.artifact.version.str

def selectCoordinate (graph : MarketplaceGraph) (request : SelectionRequest) (state : SelectionState)
    (coordinate : ArtifactCoordinate) : SelectionState :=
  match namedArtifact graph coordinate with
  | none =>
      let reason : CompatibilityReason :=
        ⟨"artifact-not-found", "artifact is not available: " ++ coordinate.str⟩
      state.refuse request.mode ⟨artifactNotFound, reason.message⟩ ⟨coordinate, sortedReasons [reason]⟩
  | some item =>
      let decision := evaluateCompatibility item request.target
      if decision.compatible then { state with selected := state.selected ++ [(item.key, item)] }
      else
        state.refuse request.mode (selectionDiagnostic item decision)
          ⟨item.coordinate, sortedReasons decision.reasons⟩

/-- The selected artifacts are the values of a mapping, so one that was requested twice stands once. -/
def selectArtifacts (graph : MarketplaceGraph) (request : SelectionRequest) : Result SelectionResult := do
  let requested ← requestedArtifacts graph request
  let state := requested.foldl (selectCoordinate graph request) {}
  if state.diagnostics ≠ [] then .error state.diagnostics
  else return selectionResult (entryValues state.selected) state.skipped

/-! ## What a coordinate comes to -/

/-- The artifact of the graph that a coordinate names. -/
structure Names (graph : MarketplaceGraph) (coordinate : ArtifactCoordinate) (item : MarketplaceArtifact) : Prop where
  recorded : item ∈ graph.artifacts
  key : item.key = (coordinate.source, coordinate.artifact)
  version : ∀ version, coordinate.version = some version → version = item.artifact.version.str

section Coordinates

variable {graph : MarketplaceGraph} {request : SelectionRequest} {coordinate : ArtifactCoordinate}
  {item : MarketplaceArtifact}

theorem Names.unique {other : MarketplaceArtifact} (h : Names graph coordinate item)
    (hother : Names graph coordinate other) : item = other :=
  List.inj_on_of_nodup_map graph.artifactsQualified h.recorded hother.recorded (h.key.trans hother.key.symm)

theorem names_self (h : item ∈ graph.artifacts) : Names graph item.coordinate item where
  recorded := h
  key := rfl
  version := fun _ hversion => (Option.some.inj hversion).symm

theorem namedArtifact_eq_some : namedArtifact graph coordinate = some item ↔ Names graph coordinate item := by
  have hversion : (coordinate.version.all fun version => version == item.artifact.version.str) = true ↔
      ∀ version, coordinate.version = some version → version = item.artifact.version.str := by
    cases coordinate.version <;> simp
  unfold namedArtifact
  rw [Option.filter_eq_some_iff, hversion, MarketplaceGraph.recorded_iff]
  constructor
  · rintro ⟨⟨hrecorded, hkey⟩, hnames⟩
    exact ⟨hrecorded, hkey, hnames⟩
  · intro h
    exact ⟨⟨h.recorded, h.key⟩, h.version⟩

/-- What a selection takes for the coordinate. -/
def chosen (graph : MarketplaceGraph) (target : CompatibilityTarget) (coordinate : ArtifactCoordinate) :
    Option MarketplaceArtifact :=
  (namedArtifact graph coordinate).filter fun item => (evaluateCompatibility item target).compatible

/-- What a selection says of a coordinate that it does not take. -/
def refusal (graph : MarketplaceGraph) (target : CompatibilityTarget) (coordinate : ArtifactCoordinate) :
    Diagnostic × SelectionSkip :=
  match namedArtifact graph coordinate with
  | none =>
      let reason : CompatibilityReason :=
        ⟨"artifact-not-found", "artifact is not available: " ++ coordinate.str⟩
      (⟨artifactNotFound, reason.message⟩, ⟨coordinate, sortedReasons [reason]⟩)
  | some item =>
      let decision := evaluateCompatibility item target
      (selectionDiagnostic item decision, ⟨item.coordinate, sortedReasons decision.reasons⟩)

/-- The decision on a coordinate is the same in both modes. -/
theorem selectCoordinate_eq (state : SelectionState) :
    selectCoordinate graph request state coordinate =
      match chosen graph request.target coordinate with
      | some item => { state with selected := state.selected ++ [(item.key, item)] }
      | none => state.refuse request.mode (refusal graph request.target coordinate).1
          (refusal graph request.target coordinate).2 := by
  unfold selectCoordinate chosen refusal
  cases namedArtifact graph coordinate with
  | none => rfl
  | some item =>
      dsimp only
      cases hcompatible : (evaluateCompatibility item request.target).compatible with
      | true => simp [Option.filter, hcompatible]
      | false => simp [Option.filter, hcompatible]

theorem chosen_eq_some {target : CompatibilityTarget} :
    chosen graph target coordinate = some item ↔
      Names graph coordinate item ∧ (evaluateCompatibility item target).compatible = true := by
  unfold chosen
  rw [Option.filter_eq_some_iff, namedArtifact_eq_some]

/-- The coordinates that are not taken, in their order. -/
def refused (graph : MarketplaceGraph) (target : CompatibilityTarget) (coordinates : List ArtifactCoordinate) :
    List ArtifactCoordinate :=
  coordinates.filter fun coordinate => (chosen graph target coordinate).isNone

def taken (graph : MarketplaceGraph) (target : CompatibilityTarget) (coordinates : List ArtifactCoordinate) :
    List (ArtifactKey × MarketplaceArtifact) :=
  coordinates.filterMap fun coordinate => (chosen graph target coordinate).map fun item => (item.key, item)

theorem selectAll_explicit (hmode : request.mode = .explicit) (coordinates : List ArtifactCoordinate)
    (state : SelectionState) :
    coordinates.foldl (selectCoordinate graph request) state =
      { selected := state.selected ++ taken graph request.target coordinates
        skipped := state.skipped
        diagnostics := state.diagnostics ++
          (refused graph request.target coordinates).map fun coordinate =>
            (refusal graph request.target coordinate).1 } := by
  induction coordinates generalizing state with
  | nil => simp [taken, refused]
  | cons coordinate rest ih =>
      rw [List.foldl_cons, selectCoordinate_eq, ih]
      cases hchosen : chosen graph request.target coordinate with
      | none => simp [taken, refused, hchosen, SelectionState.refuse, hmode]
      | some item => simp [taken, refused, hchosen]

theorem selectAll_broad (hmode : request.mode = .broad) (coordinates : List ArtifactCoordinate)
    (state : SelectionState) :
    coordinates.foldl (selectCoordinate graph request) state =
      { selected := state.selected ++ taken graph request.target coordinates
        skipped := state.skipped ++
          (refused graph request.target coordinates).map fun coordinate =>
            (refusal graph request.target coordinate).2
        diagnostics := state.diagnostics } := by
  induction coordinates generalizing state with
  | nil => simp [taken, refused]
  | cons coordinate rest ih =>
      rw [List.foldl_cons, selectCoordinate_eq, ih]
      cases hchosen : chosen graph request.target coordinate with
      | none => simp [taken, refused, hchosen, SelectionState.refuse, hmode]
      | some item => simp [taken, refused, hchosen]

end Coordinates

/-! ## Both modes -/

section Modes

variable {graph : MarketplaceGraph} {request : SelectionRequest} {result : SelectionResult}
  {requested : List ArtifactCoordinate}

theorem selectArtifacts_explicit (hmode : request.mode = .explicit) :
    selectArtifacts graph request = .ok result ↔
      ∃ requested, requestedArtifacts graph request = .ok requested ∧ refused graph request.target requested = [] ∧
        result = selectionResult (entryValues (taken graph request.target requested)) [] := by
  unfold selectArtifacts
  constructor
  · intro h
    obtain ⟨requested, hrequested, h⟩ := Result.of_bind_ok h
    rw [selectAll_explicit hmode] at h
    dsimp only at h
    split at h
    · cases h
    · rename_i hnone
      refine ⟨requested, hrequested, by simpa using hnone, ?_⟩
      exact (Except.ok.inj h).symm
  · rintro ⟨requested, hrequested, hnone, rfl⟩
    rw [hrequested]
    simp only [bind, Except.bind]
    rw [selectAll_explicit hmode, hnone]
    rfl

theorem selectArtifacts_broad (hmode : request.mode = .broad) :
    selectArtifacts graph request = .ok result ↔
      ∃ requested, requestedArtifacts graph request = .ok requested ∧
        result = selectionResult (entryValues (taken graph request.target requested))
          ((refused graph request.target requested).map fun coordinate =>
            (refusal graph request.target coordinate).2) := by
  unfold selectArtifacts
  constructor
  · intro h
    obtain ⟨requested, hrequested, h⟩ := Result.of_bind_ok h
    rw [selectAll_broad hmode] at h
    exact ⟨requested, hrequested, (Except.ok.inj h).symm⟩
  · rintro ⟨requested, hrequested, rfl⟩
    rw [hrequested]
    simp only [bind, Except.bind]
    rw [selectAll_broad hmode]
    rfl

/-- The request names an artifact, or a collection that is not empty. -/
def Selects (graph : MarketplaceGraph) (request : SelectionRequest) : Prop :=
  request.artifacts ≠ [] ∨ ∃ collection ∈ request.collections, expandCollection graph collection ≠ .ok []

theorem requestedArtifacts_congr (h : Selects graph request) (mode : SelectionMode) :
    requestedArtifacts graph { request with mode } = requestedArtifacts graph request := by
  unfold requestedArtifacts
  dsimp only
  cases hexpanded : request.collections.mapM (expandCollection graph) with
  | error diagnostics => rfl
  | ok expanded =>
      have hne : request.artifacts ++ expanded.flatten ≠ [] := by
        rcases h with hartifacts | ⟨collection, hcollection, hmembers⟩
        · exact List.append_ne_nil_of_left_ne_nil hartifacts _
        · obtain ⟨members, hin, hfound⟩ := Result.ok_of_mapM_ok hexpanded hcollection
          have hsome : members ≠ [] := by
            rintro rfl
            exact hmembers hfound
          refine List.append_ne_nil_of_right_ne_nil _ fun hnil => hsome ?_
          exact List.flatten_eq_nil_iff.mp hnil members hin
      simp only [bind, Except.bind]
      rw [if_neg hne, if_neg hne]

/-- A selected artifact stands for the coordinate. -/
def IsSelected (graph : MarketplaceGraph) (coordinate : ArtifactCoordinate) (result : SelectionResult) : Prop :=
  ∃ item ∈ result.selected, Names graph coordinate item

/-- A skip stands for the coordinate, or for the artifact that it names. -/
def IsSkipped (graph : MarketplaceGraph) (coordinate : ArtifactCoordinate) (result : SelectionResult) : Prop :=
  ∃ skip ∈ result.skipped, skip.coordinate = coordinate ∨
    ∃ item, Names graph coordinate item ∧ skip.coordinate = item.coordinate

variable {target : CompatibilityTarget}

theorem mem_taken {item : MarketplaceArtifact}
    (h : item ∈ entryValues (taken graph target requested)) :
    ∃ coordinate ∈ requested, Names graph coordinate item ∧ (evaluateCompatibility item target).compatible = true := by
  obtain ⟨key, hkey⟩ := mem_of_mem_entryValues h
  obtain ⟨coordinate, hcoordinate, hchosen⟩ := List.mem_filterMap.mp hkey
  obtain ⟨found, hfound, hentry⟩ := Option.map_eq_some_iff.mp hchosen
  obtain rfl : found = item := congrArg Prod.snd hentry
  exact ⟨coordinate, hcoordinate, chosen_eq_some.mp hfound⟩

theorem mem_taken_of_chosen {coordinate : ArtifactCoordinate} {item : MarketplaceArtifact}
    (hcoordinate : coordinate ∈ requested) (h : chosen graph target coordinate = some item) :
    item ∈ entryValues (taken graph target requested) := by
  have hmem : (item.key, item) ∈ taken graph target requested :=
    List.mem_filterMap.mpr ⟨coordinate, hcoordinate, by rw [h]; rfl⟩
  refine mem_entryValues hmem fun other hother => ?_
  obtain ⟨earlier, _, hchosen⟩ := List.mem_filterMap.mp hother
  obtain ⟨found, hfound, hentry⟩ := Option.map_eq_some_iff.mp hchosen
  obtain ⟨hkey, rfl⟩ := Prod.mk.inj hentry
  exact List.inj_on_of_nodup_map graph.artifactsQualified (chosen_eq_some.mp hfound).1.recorded
    (chosen_eq_some.mp h).1.recorded hkey

theorem compatible_available {item : MarketplaceArtifact}
    (h : (evaluateCompatibility item target).compatible = true) : item.lifecycle = .available := by
  cases hlifecycle : item.lifecycle with
  | available => rfl
  | removed =>
      have hreason : (⟨"artifact-removed", "artifact was removed from its source"⟩ : CompatibilityReason) ∈
          (evaluateCompatibility item target).payloadReasons := by
        refine mem_sortedBy.mpr (List.mem_dedup.mpr ?_)
        simp [payloadReasons, reasonUnless, hlifecycle]
      simp only [CompatibilityDecision.compatible, Bool.and_eq_true, List.isEmpty_iff] at h
      rw [h.1] at hreason
      exact absurd hreason (by simp)

/-- The skip of a coordinate carries it, or the coordinate of the artifact that it names. -/
theorem refusal_coordinate {coordinate : ArtifactCoordinate} :
    (namedArtifact graph coordinate = none ∧ (refusal graph target coordinate).2.coordinate = coordinate) ∨
      ∃ item, Names graph coordinate item ∧ (refusal graph target coordinate).2.coordinate = item.coordinate := by
  unfold refusal
  cases hnamed : namedArtifact graph coordinate with
  | none => exact Or.inl ⟨rfl, rfl⟩
  | some item => exact Or.inr ⟨item, namedArtifact_eq_some.mp hnamed, rfl⟩

/-- An explicit selection of something is the broad selection of it that skips nothing. A broad
selection takes or skips every coordinate, never both, and takes what is available and compatible. -/
theorem explicit_is_broad_without_skips (graph : MarketplaceGraph) :
    (∀ request, Selects graph request → ∀ result,
      selectArtifacts graph { request with mode := .explicit } = .ok result ↔
        selectArtifacts graph { request with mode := .broad } = .ok result ∧ result.skipped = []) ∧
    ∀ request requested result, request.mode = .broad → requestedArtifacts graph request = .ok requested →
      selectArtifacts graph request = .ok result →
        (∀ coordinate ∈ requested, IsSelected graph coordinate result ↔ ¬ IsSkipped graph coordinate result) ∧
        ∀ item ∈ result.selected, item.lifecycle = .available ∧
          (evaluateCompatibility item request.target).compatible = true := by
  constructor
  · intro request hselects result
    rw [selectArtifacts_explicit rfl, selectArtifacts_broad rfl, requestedArtifacts_congr hselects .explicit,
      requestedArtifacts_congr hselects .broad]
    constructor
    · rintro ⟨requested, hrequested, hnone, rfl⟩
      exact ⟨⟨requested, hrequested, by rw [hnone]; rfl⟩, rfl⟩
    · rintro ⟨⟨requested, hrequested, rfl⟩, hskipped⟩
      have hnone : refused graph request.target requested = [] := by
        have hperm := perm_sortedBy (fun skip : SelectionSkip => artifactSortKey skip.coordinate)
          ((refused graph request.target requested).map fun coordinate =>
            (refusal graph request.target coordinate).2)
        rw [show sortedBy _ _ = [] from hskipped] at hperm
        exact List.map_eq_nil_iff.mp hperm.symm.eq_nil
      exact ⟨requested, hrequested, hnone, by rw [hnone]; rfl⟩
  · intro request requested result hmode hrequested hresult
    obtain ⟨found, hfound, rfl⟩ := (selectArtifacts_broad hmode).mp hresult
    obtain rfl : found = requested := Except.ok.inj (hfound.symm.trans hrequested)
    constructor
    · intro coordinate hcoordinate
      constructor
      · rintro ⟨item, hitem, hnames⟩ ⟨skip, hskip, hstands⟩
        obtain ⟨earlier, _, hearlier, hcompatible⟩ := mem_taken (mem_sortedBy.mp hitem)
        have hchosen : chosen graph request.target coordinate = some item :=
          chosen_eq_some.mpr ⟨hnames, hcompatible⟩
        obtain ⟨other, hother, rfl⟩ := List.mem_map.mp (mem_sortedBy.mp hskip)
        have hrefused : chosen graph request.target other = none :=
          Option.isNone_iff_eq_none.mp (List.mem_filter.mp hother).2
        -- The skip stands for what another coordinate names, which is the same artifact.
        have hsame : Names graph other item := by
          have hcase : (namedArtifact graph other = none ∧ (refusal graph request.target other).2.coordinate = other) ∨
              ∃ item, Names graph other item ∧ (refusal graph request.target other).2.coordinate = item.coordinate :=
            refusal_coordinate
          rcases hcase with ⟨hnone, hcoord⟩ | ⟨found, hfound, hcoord⟩
          · rw [hcoord] at hstands
            rcases hstands with rfl | ⟨named, hnamed, rfl⟩
            · exact hnames
            · rw [hnames.unique hnamed]
              exact names_self hnamed.recorded
          · rw [hcoord] at hstands
            have hitem : found = item := by
              rcases hstands with hstands | ⟨named, hnamed, hstands⟩
              · exact (names_self hfound.recorded).unique (hstands ▸ hnames)
              · rw [hnames.unique hnamed]
                refine (names_self hfound.recorded).unique ?_
                rw [hstands]
                exact names_self hnamed.recorded
            rw [← hitem]
            exact hfound
        rw [chosen_eq_some.mpr ⟨hsame, hcompatible⟩] at hrefused
        cases hrefused
      · intro hnot
        cases hchosen : chosen graph request.target coordinate with
        | some item =>
            exact ⟨item, mem_sortedBy.mpr (mem_taken_of_chosen hcoordinate hchosen), (chosen_eq_some.mp hchosen).1⟩
        | none =>
            refine absurd ⟨(refusal graph request.target coordinate).2, mem_sortedBy.mpr ?_, ?_⟩ hnot
            · refine List.mem_map.mpr ⟨coordinate, List.mem_filter.mpr ⟨hcoordinate, ?_⟩, rfl⟩
              rw [hchosen]
              rfl
            · have hcase : (namedArtifact graph coordinate = none ∧
                    (refusal graph request.target coordinate).2.coordinate = coordinate) ∨
                  ∃ item, Names graph coordinate item ∧
                    (refusal graph request.target coordinate).2.coordinate = item.coordinate := refusal_coordinate
              rcases hcase with ⟨_, hcoord⟩ | hnamed
              · exact Or.inl hcoord
              · exact Or.inr hnamed
    · intro item hitem
      obtain ⟨coordinate, _, _, hcompatible⟩ := mem_taken (mem_sortedBy.mp hitem)
      exact ⟨compatible_available hcompatible, hcompatible⟩

end Modes

/-! ## A collection without members -/

/-- A graph that holds nothing but a collection without members. -/
def hollowGraph : MarketplaceGraph where
  artifacts := []
  collections := [⟨⟨⟨"company", by rfl⟩, ⟨"tools", by rfl⟩⟩, "Tools.", []⟩]
  diagnostics := []
  artifactsQualified := by simp
  collectionsQualified := by simp

def hollowRequest : SelectionRequest where
  mode := .explicit
  target :=
    { profile := "claude", platform := "darwin", scope := .project, mode := .copy, effects := [.copyTree],
      aartVersion := ⟨1, 0, 0, [], []⟩ }
  collections := [⟨⟨"company", by rfl⟩, ⟨"tools", by rfl⟩⟩]

/-- A collection without members is nothing to an explicit selection, and everything to a broad one. -/
theorem hollow_selection :
    ¬ ∀ (graph : MarketplaceGraph) (request : SelectionRequest),
      (request.artifacts ≠ [] ∨ request.collections ≠ []) → ∀ result,
        (selectArtifacts graph { request with mode := .explicit } = .ok result ↔
          selectArtifacts graph { request with mode := .broad } = .ok result ∧ result.skipped = []) := by
  intro h
  have hboth := (h hollowGraph hollowRequest (Or.inr (by decide)) ⟨[], []⟩).mpr ⟨by rfl, rfl⟩
  have hrefused : selectArtifacts hollowGraph { hollowRequest with mode := .explicit } =
      error artifactNotFound "explicit selection requires at least one artifact or collection" := by rfl
  rw [hrefused] at hboth
  cases hboth

end AgentArtifacts.Registry
