import AgentArtifacts.InstallState.ManifestBytes
import AgentArtifacts.Registry.Graph

/-!
# The bytes of a graph

The projection of a graph to canonical JSON, without payloads: what a compilation is
identified by.
-/

namespace AgentArtifacts.Registry

open Manifest (frozen_array frozen_str frozenEntries_iff)

section Projection

variable [StandardLibrary]

def lifecycleValue : ArtifactLifecycle → String
  | .available => "available"
  | .removed => "removed"

/-- A field of the semantics of an artifact. -/
def semanticField (artifact : IndexArtifact) (name : String) : Option Json :=
  match semanticJson artifact with
  | .obj entries => Dict.get? entries name
  | _ => none

def reviewJson : Option ReviewRecord → Json
  | none => .null
  | some review => .obj (sortEntries [("policy", .str review.policy), ("status", .str review.status)])

def provenanceJson : Option IndexProvenance → Json
  | none => .null
  | some provenance =>
      .obj (sortEntries
        [("origin_url", .str provenance.originUrl), ("path", .str provenance.path.str),
          ("resolved_commit", .str provenance.resolvedCommit)])

def artifactJson (item : MarketplaceArtifact) : Json :=
  let artifact := item.artifact
  .obj (sortEntries
    ([("compatibility", (semanticField artifact "compatibility").getD .null),
      ("identity", .str artifact.identity.str),
      ("install", (semanticField artifact "install").getD .null),
      ("lifecycle", .str (lifecycleValue item.lifecycle)),
      ("manifest_digest", .str artifact.manifestDigest.str),
      ("object_digest", .str artifact.objectDigest.str),
      ("payload_digest", .str artifact.payloadDigest.str),
      ("provenance", provenanceJson artifact.provenance),
      ("review", reviewJson artifact.review),
      ("semantic_digest", .str item.semanticDigest.str),
      ("setup", setupJson artifact.setup),
      ("source_alias", .str item.sourceAlias.value),
      ("source_id", .str artifact.sourceId.value),
      ("summary", .str artifact.summary),
      ("version", .str artifact.version.str)] ++
      ((semanticField artifact "requires_aart").map fun value => ("requires_aart", value)).toList ++
      ((semanticField artifact "requires").map fun value => ("requires", value)).toList))

def collectionJson (item : MarketplaceCollection) : Json :=
  .obj (sortEntries
    [("coordinate", .str item.coordinate.str), ("members", strings (item.members.map (·.str))),
      ("summary", .str item.summary)])

def diagnosticJson (item : Compiler.Diagnostic) : Json :=
  .obj (sortEntries
    [("code", .str item.code.value), ("message", .str item.message), ("severity", .str item.severity.value),
      ("source", match item.location.bind (·.source) with
        | none => .null
        | some source => .str source.value)])

/-- `marketplace_graph_bytes`. -/
def marketplaceGraphBytes (graph : MarketplaceGraph) : Bytes :=
  canonicalJsonBytes (.obj (sortEntries
    [("artifacts", .arr (graph.artifacts.map artifactJson)),
      ("collections", .arr (graph.collections.map collectionJson)),
      ("diagnostics", .arr (graph.diagnostics.map diagnosticJson)), ("schema_version", .int 1)]))

end Projection

/-! ## The bytes determine the projection -/

theorem frozen_object {entries : List (String × Json)} (h : (entries.map Prod.fst).Nodup)
    (hvalues : ∀ entry ∈ entries, Frozen entry.2) : Frozen (.obj (sortEntries entries)) := by
  rw [Frozen, frozenEntries_iff]
  exact ⟨sortEntries_pairwise h, fun entry hentry => hvalues entry (mem_sortEntries.mp hentry)⟩

theorem frozen_null : Frozen .null := by
  rw [Frozen]
  trivial

theorem frozen_strings (values : List String) : Frozen (strings values) := by
  unfold strings
  refine frozen_array fun item hitem => ?_
  obtain ⟨text, _, rfl⟩ := List.mem_map.mp hitem
  exact frozen_str text

theorem frozen_setupJson (setup : Option IndexSetup) : Frozen (setupJson setup) := by
  cases setup with
  | none => exact frozen_null
  | some setup => exact frozen_object (by simp) (by simp [frozen_strings, frozen_str])

theorem frozen_boundsJson (bounds : VersionBounds) : Frozen (boundsJson bounds) := by
  unfold boundsJson
  cases bounds.minInclusive <;> cases bounds.maxExclusive <;>
    exact frozen_object (by simp) (by simp [frozen_str])

theorem frozen_selectorJson (selector : ArtifactSelector) : Frozen (selectorJson selector) := by
  unfold selectorJson
  cases selector.version <;> exact frozen_object (by simp) (by simp [frozen_str, frozen_boundsJson])

theorem frozen_semanticJson (artifact : IndexArtifact) : Frozen (semanticJson artifact) := by
  have hrequires : Frozen (.arr (artifact.requires.map selectorJson)) := by
    refine frozen_array fun item hitem => ?_
    obtain ⟨selector, _, rfl⟩ := List.mem_map.mp hitem
    exact frozen_selectorJson selector
  unfold semanticJson
  refine frozen_object ?_ ?_
  · split <;> split <;> simp
  · split <;> split <;>
      simp [frozen_object, frozen_str, frozen_strings, frozen_setupJson, frozen_boundsJson, hrequires]

theorem frozen_semanticField {artifact : IndexArtifact} {name : String} {value : Json}
    (h : semanticField artifact name = some value) : Frozen value := by
  have hsemantic := frozen_semanticJson artifact
  unfold semanticField at h
  split at h
  · rename_i entries hentries
    rw [hentries, Frozen, frozenEntries_iff] at hsemantic
    obtain ⟨entry, hfound, rfl⟩ := Option.map_eq_some_iff.mp h
    exact hsemantic.2 entry (List.mem_of_find?_eq_some hfound)
  · cases h

theorem frozen_getD_semanticField (artifact : IndexArtifact) (name : String) :
    Frozen ((semanticField artifact name).getD .null) := by
  cases hfield : semanticField artifact name with
  | none => exact frozen_null
  | some value => exact frozen_semanticField hfield

theorem frozen_provenanceJson (provenance : Option IndexProvenance) : Frozen (provenanceJson provenance) := by
  cases provenance with
  | none => exact frozen_null
  | some provenance => exact frozen_object (by simp) (by simp [frozen_str])

theorem frozen_reviewJson (review : Option ReviewRecord) : Frozen (reviewJson review) := by
  cases review with
  | none => exact frozen_null
  | some review => exact frozen_object (by simp) (by simp [frozen_str])

theorem frozen_collectionJson (item : MarketplaceCollection) : Frozen (collectionJson item) :=
  frozen_object (by simp) (by simp [frozen_str, frozen_strings])

theorem frozen_diagnosticJson (item : Compiler.Diagnostic) : Frozen (diagnosticJson item) := by
  unfold diagnosticJson
  cases item.location.bind (·.source) <;> exact frozen_object (by simp) (by simp [frozen_str, frozen_null])

theorem frozen_map {α : Type} {items : List α} {write : α → Json} (h : ∀ item, Frozen (write item)) :
    Frozen (.arr (items.map write)) := by
  refine frozen_array fun value hvalue => ?_
  obtain ⟨item, _, rfl⟩ := List.mem_map.mp hvalue
  exact h item

theorem mem_of_object_eq {left right : List (String × Json)} (h : Json.obj (sortEntries left) = .obj (sortEntries right))
    {entry : String × Json} (hentry : entry ∈ left) : entry ∈ right := by
  rw [← mem_sortEntries, ← Json.obj.inj h]
  exact mem_sortEntries.mpr hentry

variable [StandardLibrary]

theorem frozen_artifactJson (item : MarketplaceArtifact) : Frozen (artifactJson item) := by
  unfold artifactJson
  dsimp only
  refine frozen_object ?_ ?_
  · cases semanticField item.artifact "requires_aart" <;> cases semanticField item.artifact "requires" <;> simp
  · simp [frozen_str, frozen_getD_semanticField, frozen_provenanceJson, frozen_reviewJson, frozen_setupJson]
    rintro name value (⟨hfield, _⟩ | ⟨hfield, _⟩)
    · exact frozen_semanticField hfield
    · exact frozen_semanticField hfield

/-- Graphs with the same bytes show the same of their artifacts. -/
theorem artifactJson_of_bytes [JsonRuntime] {left right : MarketplaceGraph}
    (h : marketplaceGraphBytes left = marketplaceGraphBytes right) :
    left.artifacts.map artifactJson = right.artifacts.map artifactJson := by
  have hfrozen (graph : MarketplaceGraph) : Frozen (.obj (sortEntries
      [("artifacts", .arr (graph.artifacts.map artifactJson)),
        ("collections", .arr (graph.collections.map collectionJson)),
        ("diagnostics", .arr (graph.diagnostics.map diagnosticJson)), ("schema_version", .int 1)])) := by
    refine frozen_object (by simp) ?_
    have hversion : Frozen (.int 1) := by
      rw [Frozen]
      trivial
    simp [frozen_map, frozen_artifactJson, frozen_collectionJson, frozen_diagnosticJson, hversion]
  have hentry := mem_of_object_eq (canonicalJsonBytes_injective (hfrozen left) (hfrozen right) h) List.mem_cons_self
  simpa using hentry

end AgentArtifacts.Registry
