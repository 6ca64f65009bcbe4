import AgentArtifacts.Protocol.JsonCanonical
import AgentArtifacts.Protocol.RegistryDocuments

/-!
# Documents as bytes

The readers and the writers of documents over their canonical bytes.
-/

namespace AgentArtifacts.Documents

open JsonText (Legible LegibleEntries LegibleItems InRange)
open Schema (ReadsBack)
open Native (parseSourceManifest sourceManifestToJson parseArtifactManifest artifactManifestToJson parseProvenance
  provenanceToJson parseCollectionManifest collectionManifestToJson)
open RegistrySchema (parseRegistryManifest registryManifestToJson parseRegistryEntry registryEntryToJson
  parseRegistryLock registryLockToJson)

section Library

variable [StandardLibrary]

/-- What a parser finds in some bytes it finds again in the canonical bytes of what the writer makes of it. -/
def RoundTrips {α : Type} (parse : Bytes → Result α) (toJson : α → Json) : Prop :=
  ∀ data found, parse data = .ok found → parse (canonicalJsonBytes (toJson found)) = .ok found

variable [JsonRuntime]

theorem ReadsBack.roundTrips {α : Type} {read : Json → Result α} {toJson : α → Json} (h : ReadsBack read toJson) :
    RoundTrips (fun data => do
      let value ← parseJson data
      read value) toJson := by
  intro data found hfound
  obtain ⟨value, hvalue, hread⟩ := Result.of_bind_ok hfound
  obtain ⟨hagain, hwritten⟩ := h (fits_of_parseJson hvalue) hread
  simp only [parseJson_canonicalJsonBytes hwritten, hagain, bind, Except.bind]

/-- Every native and every registry document round-trips through its writer. -/
theorem documents_round_trip :
    RoundTrips parseSourceManifest sourceManifestToJson ∧ RoundTrips parseArtifactManifest artifactManifestToJson ∧
      RoundTrips parseProvenance provenanceToJson ∧ RoundTrips parseCollectionManifest collectionManifestToJson ∧
      RoundTrips parseRegistryManifest registryManifestToJson ∧ RoundTrips parseRegistryEntry registryEntryToJson ∧
      RoundTrips parseRegistryLock registryLockToJson := by
  refine ⟨?_, ?_, ?_, ?_, ?_, ?_, ?_⟩
  · exact ReadsBack.roundTrips Native.readsBack_source
  · exact ReadsBack.roundTrips Native.readsBack_artifact
  · exact ReadsBack.roundTrips Native.readsBack_provenance
  · exact ReadsBack.roundTrips Native.readsBack_collection
  · exact ReadsBack.roundTrips RegistrySchema.readsBack_registry
  · exact ReadsBack.roundTrips RegistrySchema.readsBack_entry
  · exact ReadsBack.roundTrips RegistrySchema.readsBack_lock

end Library

/-! ## A collection whose members come in no order -/

section Sample

local instance : StandardLibrary := pythonLibrary id fun _ => true

local instance : JsonRuntime := pythonLibrary_jsonRuntime id fun _ => true

/-- The bounds of the selector are empty, and one collection is named twice. -/
def looseCollection : Json :=
  .obj [("artifacts", .arr [.obj [("name", .str "t"), ("type", .str "hook"), ("version", .obj [])]]),
    ("collections", .arr [.str "n", .str "d", .str "n"]), ("name", .str "k"), ("schema_version", .int 1),
    ("summary", .str "T"), ("x.y", .null)]

theorem looseCollection_documentable : Documentable 0 looseCollection where
  frozen := by
    simp only [looseCollection, Frozen, FrozenEntries, FrozenItems]
    decide
  integers := by
    simp only [looseCollection, Legible, LegibleEntries, LegibleItems, InRange]
    decide
  texts := by
    simp only [looseCollection, TextsWithin, TextsWithinEntries, TextsWithinItems]
    decide
  depth := by
    simp only [looseCollection, height, heightEntries, heightItems]
    decide

def tidyCollection : Native.CollectionManifest where
  schemaVersion := 1
  name := ⟨"k", by decide⟩
  summary := "T"
  artifacts := [⟨⟨.hook, ⟨"t", by decide⟩⟩, some {}⟩]
  collections := [⟨"d", by decide⟩, ⟨"n", by decide⟩]
  extensions := [("x.y", .null)]

theorem looseCollection_tidied : Native.collectionManifestOf looseCollection = .ok tidyCollection := by rfl

theorem looseCollection_read :
    parseCollectionManifest (canonicalJsonBytes looseCollection) = .ok tidyCollection := by
  rw [parseCollectionManifest, parseJson_canonicalJsonBytes_iff.mpr looseCollection_documentable]
  exact looseCollection_tidied

theorem tidyCollection_round_trips :
    parseCollectionManifest (canonicalJsonBytes (collectionManifestToJson tidyCollection)) = .ok tidyCollection :=
  documents_round_trip.2.2.2.1 _ _ looseCollection_read

end Sample

end AgentArtifacts.Documents
