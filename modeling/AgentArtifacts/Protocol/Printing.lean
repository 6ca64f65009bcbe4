import AgentArtifacts.Protocol.Rereading
import AgentArtifacts.Store.EnvelopeReading

/-!
# Printing

What the canonical bytes show of a value does not depend on its size. A value that is
too large is printed and not read back.
-/

namespace AgentArtifacts.Schema

open JsonText (Legible InRange)
open Manifest (Fields present jsonObject frozenEntries_iff frozen_array)

/-- A value that the canonical bytes show as it is, whatever its size. -/
structure Printable (value : Json) : Prop where
  frozen : Frozen value
  integers : Legible InRange value

theorem Printable.of_fits {depth : Nat} {value : Json} (h : Fits depth value) : Printable value :=
  ⟨(fits_iff_documentable.mp h).frozen, (fits_iff_documentable.mp h).integers⟩

theorem printable_null : Printable .null := by
  refine ⟨?_, ?_⟩
  · rw [Frozen]
    trivial
  · rw [Legible]
    trivial

theorem printable_str (text : String) : Printable (.str text) := by
  refine ⟨?_, ?_⟩
  · rw [Frozen]
    trivial
  · rw [Legible]
    trivial

theorem printable_int {number : Int} (h : InRange number) : Printable (.int number) := by
  refine ⟨?_, ?_⟩
  · rw [Frozen]
    trivial
  · rw [Legible]
    exact h

theorem printable_arr {items : List Json} (h : ∀ item ∈ items, Printable item) : Printable (.arr items) := by
  refine ⟨frozen_array fun item hitem => (h item hitem).frozen, ?_⟩
  rw [Legible, legibleItems_iff]
  exact fun item hitem => (h item hitem).integers

theorem printable_document {table : Fields} {extensions : Dict}
    (hkeys : ((present table ++ extensions).map Prod.fst).Nodup)
    (htable : ∀ name value, (name, some value) ∈ table → Printable value)
    (hextensions : ∀ entry ∈ extensions, Printable entry.2) : Printable (documentJson table extensions) := by
  have hsorted := sortEntries_pairwise hkeys
  have hentry : ∀ entry ∈ sortEntries (present table ++ extensions), Printable entry.2 := by
    intro entry hentry
    rcases mem_documentJson.mp hentry with hfield | hextra
    · exact htable _ _ hfield
    · exact hextensions entry hextra
  refine ⟨?_, ?_⟩
  · rw [documentJson, Frozen, frozenEntries_iff]
    exact ⟨hsorted, fun entry hmem => (hentry entry hmem).frozen⟩
  · rw [documentJson, Legible, legibleEntries_iff]
    exact ⟨hsorted.imp fun hlt => ne_of_lt hlt, fun entry hmem => (hentry entry hmem).integers⟩

theorem documentJson_nil (table : Fields) : documentJson table [] = jsonObject table := by
  rw [documentJson, List.append_nil]
  rfl

theorem printable_jsonObject {table : Fields} (hkeys : (table.map Prod.fst).Nodup)
    (h : ∀ name value, (name, some value) ∈ table → Printable value) : Printable (jsonObject table) := by
  rw [← documentJson_nil]
  exact printable_document (by simpa using Manifest.nodup_present hkeys) h (by simp)

theorem printable_optional {table : Fields} (hkeys : (table.map Prod.fst).Nodup)
    (h : ∀ field ∈ table, ∀ value, field.2 = some value → Printable value) : Printable (jsonObject table) :=
  printable_jsonObject hkeys fun _ value hmem => h _ hmem value rfl

theorem printable_strings (values : List String) : Printable (stringArray values) :=
  printable_arr fun item hitem => by
    obtain ⟨value, _, rfl⟩ := List.mem_map.mp hitem
    exact printable_str value

/-- Read back from its canonical bytes, a printed value is itself and within the bounds. -/
theorem fits_of_printed [StandardLibrary] [JsonRuntime] {value found : Json} (hvalue : Printable value)
    (h : parseJson (canonicalJsonBytes value) = .ok found) : found = value ∧ Fits 0 value := by
  have hsame : found = value := by
    rw [← parseJsonWithin_maxStringLength, parseJsonWithin_canonicalJsonBytes hvalue.frozen hvalue.integers] at h
    exact h.2
  exact ⟨hsame, hsame ▸ fits_of_parseJson h⟩

end AgentArtifacts.Schema
