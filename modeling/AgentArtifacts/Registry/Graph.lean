import AgentArtifacts.Compiler.Diagnostics
import AgentArtifacts.Registry.Collections

/-!
# The marketplace graph

Compilation of source records into one graph: artifacts qualified by the alias of
their source, collections expanded to the artifacts they contain, and the history
of the previous graph. What a source no longer publishes stays in the graph as
removed, so a version that was published once binds every later one.
-/

namespace AgentArtifacts.Registry

variable [StandardLibrary]

def marketplaceGraphInvalid : DiagnosticCode := ⟨"marketplace-graph-invalid"⟩

def sourceIncompatible : DiagnosticCode := ⟨"source-incompatible"⟩

def artifactVersionUnchanged : DiagnosticCode := ⟨"artifact-version-unchanged"⟩

def artifactVersionRegressed : DiagnosticCode := ⟨"artifact-version-regressed"⟩

def artifactVersionWithoutContent : DiagnosticCode := ⟨"artifact-version-without-content"⟩

/-! ## Semantics of an artifact -/

def strings (values : List String) : Json := .arr ((sortedBy id values).map .str)

def setupJson : Option IndexSetup → Json
  | none => .null
  | some setup =>
      .obj (sortEntries
        [("capabilities", strings (setup.capabilities.map (·.value))), ("platforms", strings setup.platforms),
          ("recipe", .str setup.recipe.str)])

/-- The bounds that are set. -/
def boundsJson (bounds : VersionBounds) : Json :=
  .obj (sortEntries
    ((bounds.minInclusive.map fun version => ("min_inclusive", Json.str version.str)).toList ++
      (bounds.maxExclusive.map fun version => ("max_exclusive", Json.str version.str)).toList))

def selectorJson (selector : ArtifactSelector) : Json :=
  .obj (sortEntries
    ([("type", .str selector.identity.kind.value), ("name", .str selector.identity.name.value)] ++
      (selector.version.map fun bounds => ("version", boundsJson bounds)).toList))

def semanticJson (artifact : IndexArtifact) : Json :=
  .obj (sortEntries
    ([("compatibility", Json.obj (sortEntries
        [("platforms", strings artifact.compatibility.platforms),
          ("profiles", strings artifact.compatibility.profiles)])),
      ("install", Json.obj (sortEntries
        [("effects", strings (artifact.install.effects.map (·.value))),
          ("modes", strings (artifact.install.modes.map (·.value))),
          ("scopes", strings (artifact.install.scopes.map (·.value)))])),
      ("payload_digest", .str artifact.payloadDigest.str),
      ("setup", setupJson artifact.setup)] ++
      (if artifact.requiresAart.minInclusive.isSome ∨ artifact.requiresAart.maxExclusive.isSome then
        [("requires_aart", boundsJson artifact.requiresAart)] else []) ++
      (if artifact.requires = [] then [] else [("requires", .arr (artifact.requires.map selectorJson))])))

/-! ## Normal form -/

/-- `set` of items with an equality of their own; the first of equal items stays. -/
def distinctBy {α : Type} (same : α → α → Bool) (items : List α) : List α :=
  items.foldl (fun kept item => if kept.any (same item) then kept else kept ++ [item]) []

/-- Versions that differ in build metadata only are equal. -/
def sameVersion? : Option SemVer → Option SemVer → Bool
  | none, none => true
  | some a, some b => a.samePrecedence b
  | _, _ => false

def sameSelector (a b : ArtifactSelector) : Bool :=
  a.identity == b.identity &&
    match a.version, b.version with
    | none, none => true
    | some x, some y =>
        sameVersion? x.minInclusive y.minInclusive && sameVersion? x.maxExclusive y.maxExclusive
    | _, _ => false

def normalizeArtifact (artifact : IndexArtifact) : IndexArtifact :=
  { artifact with
    compatibility := ⟨sortedSet artifact.compatibility.profiles, sortedSet artifact.compatibility.platforms⟩
    install :=
      ⟨sortedBy (·.value) artifact.install.scopes.dedup, sortedBy (·.value) artifact.install.modes.dedup,
        sortedBy (·.value) artifact.install.effects.dedup⟩
    setup := artifact.setup.map fun setup =>
      { setup with
        platforms := sortedSet setup.platforms
        capabilities := sortedBy (·.value) setup.capabilities.dedup }
    collections := sortedSet artifact.collections
    requires := sortedBy (·.identity.str) (distinctBy sameSelector artifact.requires) }

/-! ## Sources and artifacts -/

structure GraphSource where
  sourceAlias : SourceAlias
  sourceId : SourceId
  requiredCapabilities : List Capability
  artifacts : List IndexArtifact
  collections : List CollectionManifest := []
deriving DecidableEq

/-- A source with its parts in order. -/
def graphSource (sourceAlias : SourceAlias) (sourceId : SourceId) (requiredCapabilities : List Capability)
    (artifacts : List IndexArtifact) (collections : List CollectionManifest) : GraphSource where
  sourceAlias
  sourceId
  requiredCapabilities := sortedBy (·.value) requiredCapabilities.dedup
  artifacts := sortedBy (fun artifact => [artifact.identity.kind.value, artifact.identity.name.value,
    artifact.version.str, artifact.objectDigest.str]) artifacts
  collections := sortedBy (·.name.value) collections

abbrev ArtifactKey := SourceAlias × ArtifactIdentity

/-- An artifact of a graph. Its source id is that of the indexed artifact, and its semantic
digest that of the artifact's semantics, as the constructor demands. -/
structure MarketplaceArtifact where
  sourceAlias : SourceAlias
  artifact : IndexArtifact
  lifecycle : ArtifactLifecycle := .available
deriving DecidableEq

def MarketplaceArtifact.semanticDigest (item : MarketplaceArtifact) : ObjectDigest :=
  jsonDigest (semanticJson item.artifact)

def MarketplaceArtifact.key (item : MarketplaceArtifact) : ArtifactKey := (item.sourceAlias, item.artifact.identity)

def MarketplaceArtifact.coordinate (item : MarketplaceArtifact) : ArtifactCoordinate :=
  ⟨item.sourceAlias, item.artifact.identity, some item.artifact.version.str⟩

def marketplaceArtifact (source : GraphSource) (artifact : IndexArtifact) : MarketplaceArtifact where
  sourceAlias := source.sourceAlias
  artifact := normalizeArtifact artifact

def artifactSortKey (coordinate : ArtifactCoordinate) : List String :=
  [coordinate.source.value, coordinate.artifact.kind.value, coordinate.artifact.name.value,
    coordinate.version.getD ""]

/-! ## Collections -/

structure CollectionCoordinate where
  source : SourceAlias
  name : Slug
deriving DecidableEq

def CollectionCoordinate.str (coordinate : CollectionCoordinate) : String :=
  coordinate.source.value ++ "/collection/" ++ coordinate.name.value

structure MarketplaceCollection where
  coordinate : CollectionCoordinate
  summary : String
  members : List ArtifactCoordinate
deriving DecidableEq

def marketplaceCollection (coordinate : CollectionCoordinate) (summary : String)
    (members : List ArtifactCoordinate) : MarketplaceCollection :=
  ⟨coordinate, summary, sortedBy artifactSortKey members.dedup⟩

/-- The values of a mapping after insertions in order. -/
def entryValues {α β : Type} [DecidableEq α] (entries : List (α × β)) : List β :=
  (entries.map Prod.fst).dedup.filterMap (lastKeyed? entries)

def collectionEntries (sources : List GraphSource) : List (CollectionCoordinate × CollectionManifest) :=
  sources.flatMap fun source => source.collections.map fun manifest => (⟨source.sourceAlias, manifest.name⟩, manifest)

/-- Members of a marketplace collection are coordinates in order, one for each artifact. -/
def graphCollections (sources : List GraphSource) (artifacts : List (ArtifactKey × MarketplaceArtifact)) :
    CollectionSpec CollectionCoordinate MarketplaceArtifact (ArtifactKey × ArtifactCoordinate)
      (List ArtifactCoordinate) where
  manifests := collectionEntries sources
  nested coordinate name := ⟨coordinate.source, name⟩
  artifact? coordinate identity := lastKeyed? artifacts (coordinate.source, identity)
  version item := item.artifact.version
  member coordinate identity item := ((coordinate.source, identity), item.coordinate)
  combine own values := sortedBy artifactSortKey
    (entryValues (own ++ values.flatten.map fun item => ((item.source, item.artifact), item)))
  code := marketplaceGraphInvalid
  label coordinate := coordinate.str
  dangling coordinate := "missing collection: " ++ coordinate.str

/-- The items whose key was met before. -/
def repeatedItems {α κ : Type} [DecidableEq κ] (key : α → κ) : List κ → List α → List α
  | _, [] => []
  | seen, item :: rest =>
      if key item ∈ seen then item :: repeatedItems key seen rest
      else repeatedItems key (key item :: seen) rest

def compileCollections (sources : List GraphSource) (artifacts : List (ArtifactKey × MarketplaceArtifact)) :
    Result (List MarketplaceCollection) :=
  let entries := collectionEntries sources
  match repeatedItems Prod.fst [] entries with
  | [] => do
      let coordinates := sortedBy (fun coordinate => [coordinate.source.value, coordinate.name.value])
        (entries.map Prod.fst)
      let (members, _) ← (collectionVisitor (graphCollections sources artifacts)).visitAll [] [] coordinates
      return (coordinates.zip members).map fun entry =>
        marketplaceCollection entry.1 (((lastKeyed? entries entry.1).map (·.summary)).getD "") entry.2
  | duplicates =>
      .error (duplicates.map fun entry =>
        ⟨marketplaceGraphInvalid, "duplicate collection: " ++ entry.1.str⟩)

/-! ## Graphs -/

/-- The artifacts and the collections of a graph are qualified and unique. -/
structure MarketplaceGraph where
  artifacts : List MarketplaceArtifact
  collections : List MarketplaceCollection
  diagnostics : List Compiler.Diagnostic
  artifactsQualified : (artifacts.map (·.key)).Nodup
  collectionsQualified : (collections.map (·.coordinate)).Nodup

def marketplaceGraph (artifacts : List MarketplaceArtifact) (collections : List MarketplaceCollection)
    (diagnostics : List Compiler.Diagnostic) : Result MarketplaceGraph :=
  if hartifacts : (artifacts.map (·.key)).Nodup then
    if hcollections : (collections.map (·.coordinate)).Nodup then
      .ok
        { artifacts := sortedBy (fun item => artifactSortKey item.coordinate) artifacts
          collections := sortedBy
            (fun item => [item.coordinate.source.value, item.coordinate.name.value]) collections
          diagnostics := Compiler.sortDiagnostics diagnostics
          artifactsQualified := ((perm_sortedBy _ artifacts).map _).nodup_iff.mpr hartifacts
          collectionsQualified := ((perm_sortedBy _ collections).map _).nodup_iff.mpr hcollections }
    else error ⟨"ValueError"⟩ "marketplace graph collections must be qualified and unique"
  else error ⟨"ValueError"⟩ "marketplace graph artifacts must be qualified and unique"

/-! ## History -/

def changedContent (item old : MarketplaceArtifact) : Bool :=
  item.semanticDigest != old.semanticDigest || item.artifact.manifestDigest != old.artifact.manifestDigest ||
    item.artifact.payloadDigest != old.artifact.payloadDigest ||
    item.artifact.objectDigest != old.artifact.objectDigest

/-- What forbids an artifact after an older record of it. -/
def historyError (item old : MarketplaceArtifact) : Option Diagnostic :=
  if item.artifact.version.less old.artifact.version then
    some ⟨artifactVersionRegressed, item.coordinate.str ++ " regressed from " ++ old.artifact.version.str ++
      " to " ++ item.artifact.version.str⟩
  else if item.artifact.version.samePrecedence old.artifact.version then
    if changedContent item old then
      some ⟨artifactVersionUnchanged,
        "content or install semantics changed without a version precedence change for " ++
          item.sourceAlias.value ++ "/" ++ item.artifact.identity.str⟩
    else none
  else none

def historyWarning (item old : MarketplaceArtifact) : Option Compiler.Diagnostic :=
  if item.artifact.version.less old.artifact.version then none
  else if item.artifact.version.samePrecedence old.artifact.version then none
  else if item.semanticDigest = old.semanticDigest then
    some
      { code := artifactVersionWithoutContent
        severity := .warning
        message := "version changed without semantic content change for " ++ item.coordinate.str
        location := some { source := some item.sourceAlias } }
  else none

/-- The record of an artifact in a graph. -/
def MarketplaceGraph.recorded (graph : MarketplaceGraph) (key : ArtifactKey) : Option MarketplaceArtifact :=
  graph.artifacts.find? fun item => item.key = key

def history (current : List (ArtifactKey × MarketplaceArtifact)) (previous : Option MarketplaceGraph) :
    Result (List MarketplaceArtifact × List Compiler.Diagnostic) :=
  match previous with
  | none => .ok (current.map Prod.snd, [])
  | some graph =>
      match current.filterMap fun entry => (graph.recorded entry.1).bind (historyError entry.2) with
      | [] =>
          -- What is not published any more is kept as removed.
          .ok (current.map Prod.snd ++
              (graph.artifacts.filter fun item => item.key ∉ current.map Prod.fst).map fun item =>
                { item with lifecycle := .removed },
            current.filterMap fun entry => (graph.recorded entry.1).bind (historyWarning entry.2))
      | errors => .error errors

/-! ## Compilation -/

structure CompileState where
  diagnostics : List Diagnostic := []
  aliases : List SourceAlias := []
  sourceIds : List SourceId := []
  artifacts : List (ArtifactKey × MarketplaceArtifact) := []

def CompileState.report (state : CompileState) (code : DiagnosticCode) (message : String) : CompileState :=
  { state with diagnostics := state.diagnostics ++ [⟨code, message⟩] }

def compileArtifact (source : GraphSource) (state : CompileState) (artifact : IndexArtifact) : CompileState :=
  if artifact.sourceId ≠ source.sourceId then
    state.report marketplaceGraphInvalid ("artifact " ++ artifact.identity.str ++ " declares source ID " ++
      artifact.sourceId.value ++ ", expected " ++ source.sourceId.value)
  else if (source.sourceAlias, artifact.identity) ∈ state.artifacts.map Prod.fst then
    state.report marketplaceGraphInvalid ("duplicate qualified artifact: " ++ source.sourceAlias.value ++ "/" ++
      artifact.identity.str)
  else
    { state with
      artifacts := state.artifacts ++ [((source.sourceAlias, artifact.identity), marketplaceArtifact source artifact)] }

/-- The checks of a source before its artifacts. -/
def enterSource (available : List Capability) (source : GraphSource) (state : CompileState) : CompileState :=
  let state := if source.sourceAlias ∈ state.aliases then
      state.report marketplaceGraphInvalid ("duplicate source alias: " ++ source.sourceAlias.value) else state
  let state := { state with aliases := source.sourceAlias :: state.aliases }
  let state := if source.sourceId ∈ state.sourceIds then
      state.report marketplaceGraphInvalid ("duplicate source ID: " ++ source.sourceId.value) else state
  let state := { state with sourceIds := source.sourceId :: state.sourceIds }
  let missing := source.requiredCapabilities.filter fun capability => capability ∉ available
  if missing = [] then state
  else state.report sourceIncompatible ("source " ++ source.sourceAlias.value ++
    " requires unavailable capabilities: " ++ String.intercalate ", " (missing.map (·.value)))

def compileSource (available : List Capability) (state : CompileState) (source : GraphSource) : CompileState :=
  source.artifacts.foldl (compileArtifact source) (enterSource available source state)

def compileMarketplaceGraph (sources : List GraphSource) (available : List Capability)
    (previous : Option MarketplaceGraph) : Result MarketplaceGraph :=
  let ordered := sortedBy (·.sourceAlias.value) sources
  let state := ordered.foldl (compileSource available) {}
  if state.diagnostics ≠ [] then .error state.diagnostics
  else do
    let collections ← compileCollections ordered state.artifacts
    let (artifacts, diagnostics) ← history state.artifacts previous
    marketplaceGraph artifacts collections diagnostics

end AgentArtifacts.Registry
