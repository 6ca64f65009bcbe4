import AgentArtifacts.Protocol.JsonDocuments

/-!
# Canonical documents

The exact bounds of the strict reader, in terms of the value alone, and the canonical
bytes as an encoding: within the bounds they are read back as the value, and what was
read from any bytes has canonical bytes that are read as it again.
-/

namespace AgentArtifacts

open JsonText

/-! ## Depth -/

mutual

/-- How far the deepest part of a value is below it. -/
def height : Json → Nat
  | .null => 0
  | .bool _ => 0
  | .int _ => 0
  | .str _ => 0
  | .arr items => heightItems items
  | .obj entries => heightEntries entries

def heightItems : List Json → Nat
  | [] => 0
  | item :: rest => max (height item + 1) (heightItems rest)

def heightEntries : List (String × Json) → Nat
  | [] => 0
  | (_, item) :: rest => max (height item + 1) (heightEntries rest)

end

/-- A value of the protocol: the entries of its objects are in order under distinct keys,
its integers are signed 64-bit, and its texts and its depth are within the bounds. -/
structure Documentable (depth : Nat) (value : Json) : Prop where
  frozen : Frozen value
  integers : Legible InRange value
  texts : TextsWithin value
  depth : depth + height value ≤ maxDepth

/-! ## The bounds are exact -/

mutual

theorem texts_of_fits : ∀ {depth : Nat} {value : Json}, Fits depth value → TextsWithin value
  | _, .null, _ => by rw [TextsWithin]; trivial
  | _, .bool _, _ => by rw [TextsWithin]; trivial
  | _, .int _, _ => by rw [TextsWithin]; trivial
  | _, .str _, h => by
      rw [Fits] at h
      rw [TextsWithin]
      exact h.2
  | _, .arr items, h => by
      rw [Fits] at h
      rw [TextsWithin]
      exact textsItems_of_fits h.2
  | _, .obj entries, h => by
      rw [Fits] at h
      rw [TextsWithin]
      exact textsEntries_of_fits h.2.2

theorem textsItems_of_fits : ∀ {depth : Nat} {items : List Json}, FitsItems depth items → TextsWithinItems items
  | _, [], _ => by rw [TextsWithinItems]; trivial
  | _, item :: rest, h => by
      rw [FitsItems] at h
      rw [TextsWithinItems]
      exact ⟨texts_of_fits h.1, textsItems_of_fits h.2⟩

theorem textsEntries_of_fits : ∀ {depth : Nat} {entries : List (String × Json)}, FitsEntries depth entries →
    TextsWithinEntries entries
  | _, [], _ => by rw [TextsWithinEntries]; trivial
  | _, (key, item) :: rest, h => by
      rw [FitsEntries] at h
      rw [TextsWithinEntries]
      exact ⟨h.1, texts_of_fits h.2.1, textsEntries_of_fits h.2.2⟩

end

mutual

theorem height_of_fits : ∀ {depth : Nat} {value : Json}, Fits depth value → depth + height value ≤ maxDepth
  | _, .null, h => by simpa [height] using h.depth
  | _, .bool _, h => by simpa [height] using h.depth
  | _, .int _, h => by simpa [height] using h.depth
  | _, .str _, h => by simpa [height] using h.depth
  | _, .arr items, h => by
      have hdepth := h.depth
      rw [Fits] at h
      rw [height]
      exact heightItems_of_fits hdepth h.2
  | _, .obj entries, h => by
      have hdepth := h.depth
      rw [Fits] at h
      rw [height]
      exact heightEntries_of_fits hdepth h.2.2

theorem heightItems_of_fits : ∀ {depth : Nat} {items : List Json}, depth ≤ maxDepth → FitsItems (depth + 1) items →
    depth + heightItems items ≤ maxDepth
  | _, [], hdepth, _ => by simpa [heightItems] using hdepth
  | depth, item :: rest, hdepth, h => by
      rw [FitsItems] at h
      have hitem := height_of_fits h.1
      have hrest := heightItems_of_fits hdepth h.2
      rw [heightItems]
      omega

theorem heightEntries_of_fits : ∀ {depth : Nat} {entries : List (String × Json)}, depth ≤ maxDepth →
    FitsEntries (depth + 1) entries → depth + heightEntries entries ≤ maxDepth
  | _, [], hdepth, _ => by simpa [heightEntries] using hdepth
  | depth, (key, item) :: rest, hdepth, h => by
      rw [FitsEntries] at h
      have hitem := height_of_fits h.2.1
      have hrest := heightEntries_of_fits hdepth h.2.2
      rw [heightEntries]
      omega

end

mutual

theorem fits_of_height : ∀ {depth : Nat} {value : Json}, Frozen value → Legible InRange value → TextsWithin value →
    depth + height value ≤ maxDepth → Fits depth value
  | _, .null, _, _, _, hdepth => by
      rw [height] at hdepth
      rw [Fits]
      exact hdepth
  | _, .bool _, _, _, _, hdepth => by
      rw [height] at hdepth
      rw [Fits]
      exact hdepth
  | _, .int _, _, hintegers, _, hdepth => by
      rw [height] at hdepth
      rw [Legible] at hintegers
      rw [Fits]
      exact ⟨hdepth, hintegers⟩
  | _, .str _, _, _, htexts, hdepth => by
      rw [height] at hdepth
      rw [TextsWithin] at htexts
      rw [Fits]
      exact ⟨hdepth, htexts⟩
  | _, .arr items, hfrozen, hintegers, htexts, hdepth => by
      rw [height] at hdepth
      rw [Frozen] at hfrozen
      rw [Legible] at hintegers
      rw [TextsWithin] at htexts
      rw [Fits]
      exact ⟨by omega, fitsItems_of_height hfrozen hintegers htexts hdepth⟩
  | _, .obj entries, hfrozen, hintegers, htexts, hdepth => by
      rw [height] at hdepth
      rw [Frozen] at hfrozen
      rw [Legible] at hintegers
      rw [TextsWithin] at htexts
      rw [Fits]
      exact ⟨by omega, hfrozen.1, fitsEntries_of_height hfrozen.2 hintegers.2 htexts hdepth⟩

theorem fitsItems_of_height : ∀ {depth : Nat} {items : List Json}, FrozenItems items → LegibleItems InRange items →
    TextsWithinItems items → depth + heightItems items ≤ maxDepth → FitsItems (depth + 1) items
  | _, [], _, _, _, _ => by rw [FitsItems]; trivial
  | _, item :: rest, hfrozen, hintegers, htexts, hdepth => by
      rw [heightItems] at hdepth
      rw [FrozenItems] at hfrozen
      rw [LegibleItems] at hintegers
      rw [TextsWithinItems] at htexts
      rw [FitsItems]
      exact ⟨fits_of_height hfrozen.1 hintegers.1 htexts.1 (by omega),
        fitsItems_of_height hfrozen.2 hintegers.2 htexts.2 (by omega)⟩

theorem fitsEntries_of_height : ∀ {depth : Nat} {entries : List (String × Json)}, FrozenEntries entries →
    LegibleEntries InRange entries → TextsWithinEntries entries → depth + heightEntries entries ≤ maxDepth →
    FitsEntries (depth + 1) entries
  | _, [], _, _, _, _ => by rw [FitsEntries]; trivial
  | _, (key, item) :: rest, hfrozen, hintegers, htexts, hdepth => by
      rw [heightEntries] at hdepth
      rw [FrozenEntries] at hfrozen
      rw [LegibleEntries] at hintegers
      rw [TextsWithinEntries] at htexts
      rw [FitsEntries]
      exact ⟨htexts.1, fits_of_height hfrozen.1 hintegers.1 htexts.2.1 (by omega),
        fitsEntries_of_height hfrozen.2 hintegers.2 htexts.2.2 (by omega)⟩

end

theorem fits_iff_documentable {depth : Nat} {value : Json} : Fits depth value ↔ Documentable depth value :=
  ⟨fun h => ⟨frozen_of_fits h, legible_of_fits h, texts_of_fits h, height_of_fits h⟩,
    fun h => fits_of_height h.frozen h.integers h.texts h.depth⟩

/-! ## The canonical encoding -/

section Canonical

variable [StandardLibrary] [JsonRuntime]

/-- The reader gives a value back from its canonical bytes exactly within the bounds. -/
theorem parseJson_canonicalJsonBytes_iff {value : Json} :
    parseJson (canonicalJsonBytes value) = .ok value ↔ Documentable 0 value :=
  ⟨fun h => fits_iff_documentable.mp (fits_of_parseJson h),
    fun h => parseJson_canonicalJsonBytes (fits_iff_documentable.mpr h)⟩

/-- The canonical bytes of what was read are read as the same value. -/
theorem parseJson_canonical_of_parseJson {data : Bytes} {value : Json} (h : parseJson data = .ok value) :
    parseJson (canonicalJsonBytes value) = .ok value :=
  parseJson_canonicalJsonBytes (fits_of_parseJson h)

/-- Canonical bytes round-trip and determine the value, and encoding what was read is a
fixed point of reading and encoding. -/
theorem canonicalJson_round_trips :
    (∀ value, Documentable 0 value → parseJson (canonicalJsonBytes value) = .ok value) ∧
      (∀ a b, Documentable 0 a → Documentable 0 b → canonicalJsonBytes a = canonicalJsonBytes b → a = b) ∧
      ∀ data value, parseJson data = .ok value →
        (parseJson (canonicalJsonBytes value)).map canonicalJsonBytes = .ok (canonicalJsonBytes value) := by
  refine ⟨fun value h => parseJson_canonicalJsonBytes_iff.mpr h, ?_, ?_⟩
  · intro a b ha hb h
    exact canonicalJsonBytes_injective ha.frozen hb.frozen h
  · intro data value h
    rw [parseJson_canonical_of_parseJson h]
    rfl

end Canonical

/-! ## A document of every kind of value -/

/-- One of each kind of value; the names and the texts need escapes. -/
def everyKind : Json :=
  .obj [("empty", .arr []), ("line\n", .arr [.null, .bool true, .int (-2 ^ 63)]), ("quote\"", .str "\\ é")]

theorem everyKind_documentable : Documentable 0 everyKind where
  frozen := by
    simp only [everyKind, Frozen, FrozenEntries, FrozenItems]
    decide
  integers := by
    simp only [everyKind, Legible, LegibleEntries, LegibleItems, InRange]
    decide
  texts := by
    simp only [everyKind, TextsWithin, TextsWithinEntries, TextsWithinItems]
    decide
  depth := by
    simp only [everyKind, height, heightEntries, heightItems]
    decide

theorem everyKind_round_trips :
    @parseJson (pythonLibrary id fun _ => true) (@canonicalJsonBytes (pythonLibrary id fun _ => true) everyKind) =
      .ok everyKind :=
  (@canonicalJson_round_trips (pythonLibrary id fun _ => true) (pythonLibrary_jsonRuntime id fun _ => true)).1
    everyKind everyKind_documentable

end AgentArtifacts
