import AgentArtifacts.Protocol.Hashing
import AgentArtifacts.Protocol.JsonRoundTrip

/-!
# Documents of the protocol

A frozen value has the entries of its objects in strict key order. The canonical
bytes of a frozen value determine it, and the strict reader gives it back exactly
when it stays within the bounds of the reader: depth, length of texts and range of
integers.
-/

namespace AgentArtifacts

open JsonText

/-! ## Frozen values -/

mutual

/-- Objects hold their entries in the order of their keys, as `JsonObject` does. -/
def Frozen : Json → Prop
  | .null => True
  | .bool _ => True
  | .int _ => True
  | .str _ => True
  | .arr items => FrozenItems items
  | .obj entries => (entries.map Prod.fst).Pairwise (· < ·) ∧ FrozenEntries entries

def FrozenItems : List Json → Prop
  | [] => True
  | item :: rest => Frozen item ∧ FrozenItems rest

def FrozenEntries : List (String × Json) → Prop
  | [] => True
  | (_, item) :: rest => Frozen item ∧ FrozenEntries rest

end

theorem sortEntries_eq {entries : List (String × Json)} (h : (entries.map Prod.fst).Pairwise (· < ·)) :
    sortEntries entries = entries := by
  refine List.Pairwise.insertionSort_eq ?_
  exact (List.pairwise_map.mp h).imp fun hlt => le_of_lt hlt

theorem nodup_of_pairwise_lt {keys : List String} (h : keys.Pairwise (· < ·)) : keys.Nodup :=
  h.imp fun hlt => ne_of_lt hlt

mutual

theorem sortKeys_of_frozen : ∀ {value : Json}, Frozen value → sortKeys value = value
  | .null, _ => by rw [sortKeys] <;> simp
  | .bool _, _ => by rw [sortKeys] <;> simp
  | .int _, _ => by rw [sortKeys] <;> simp
  | .str _, _ => by rw [sortKeys] <;> simp
  | .arr items, h => by
      rw [Frozen] at h
      rw [sortKeys, sortKeysItems_of_frozen h]
  | .obj entries, h => by
      rw [Frozen] at h
      rw [sortKeys, sortKeysEntries_of_frozen h.2, sortEntries_eq h.1]

theorem sortKeysItems_of_frozen : ∀ {items : List Json}, FrozenItems items → sortKeysItems items = items
  | [], _ => by rw [sortKeysItems]
  | item :: rest, h => by
      rw [FrozenItems] at h
      rw [sortKeysItems, sortKeys_of_frozen h.1, sortKeysItems_of_frozen h.2]

theorem sortKeysEntries_of_frozen : ∀ {entries : List (String × Json)}, FrozenEntries entries →
    sortKeysEntries entries = entries
  | [], _ => by rw [sortKeysEntries]
  | (key, item) :: rest, h => by
      rw [FrozenEntries] at h
      rw [sortKeysEntries, sortKeys_of_frozen h.1, sortKeysEntries_of_frozen h.2]

end

mutual

theorem legible_of_frozen : ∀ {value : Json}, Frozen value → Legible (fun _ => True) value
  | .null, _ => by rw [Legible]; trivial
  | .bool _, _ => by rw [Legible]; trivial
  | .int _, _ => by rw [Legible]; trivial
  | .str _, _ => by rw [Legible]; trivial
  | .arr items, h => by
      rw [Frozen] at h
      rw [Legible]
      exact legibleItems_of_frozen h
  | .obj entries, h => by
      rw [Frozen] at h
      rw [Legible]
      exact ⟨nodup_of_pairwise_lt h.1, legibleEntries_of_frozen h.2⟩

theorem legibleItems_of_frozen : ∀ {items : List Json}, FrozenItems items → LegibleItems (fun _ => True) items
  | [], _ => by rw [LegibleItems]; trivial
  | item :: rest, h => by
      rw [FrozenItems] at h
      rw [LegibleItems]
      exact ⟨legible_of_frozen h.1, legibleItems_of_frozen h.2⟩

theorem legibleEntries_of_frozen : ∀ {entries : List (String × Json)}, FrozenEntries entries →
    LegibleEntries (fun _ => True) entries
  | [], _ => by rw [LegibleEntries]; trivial
  | (key, item) :: rest, h => by
      rw [FrozenEntries] at h
      rw [LegibleEntries]
      exact ⟨legible_of_frozen h.1, legibleEntries_of_frozen h.2⟩

end

/-! ## The runtime -/

/-- The JSON functions of the runtime are those of the standard library. -/
class JsonRuntime [StandardLibrary] : Prop where
  loads_eq : ∀ text, StandardLibrary.jsonLoads text = JsonText.loads text
  dumpsCanonical_eq : ∀ value, StandardLibrary.jsonDumpsCanonical value = JsonText.dumpsCanonical value
  dumpsIndent_eq : ∀ value, StandardLibrary.jsonDumpsIndent value = JsonText.dumpsIndent value

/-- The runtime with these functions, for a hash and a table of normal forms. -/
@[reducible] def pythonLibrary (sha256 : Bytes → Bytes) (isNfc : String → Bool) : StandardLibrary where
  sha256
  isNfc
  jsonLoads := JsonText.loads
  jsonDumpsCanonical := JsonText.dumpsCanonical
  jsonDumpsIndent := JsonText.dumpsIndent

theorem pythonLibrary_jsonRuntime (sha256 : Bytes → Bytes) (isNfc : String → Bool) :
    @JsonRuntime (pythonLibrary sha256 isNfc) :=
  @JsonRuntime.mk (pythonLibrary sha256 isNfc) (fun _ => rfl) (fun _ => rfl) fun _ => rfl

section Canonical

variable [StandardLibrary] [JsonRuntime]

theorem canonicalJsonBytes_eq {value : Json} (h : Frozen value) :
    canonicalJsonBytes value = encodeUtf8 (String.ofList (print compact 0 value ++ ['\n'])) := by
  unfold canonicalJsonBytes
  rw [JsonRuntime.dumpsCanonical_eq, dumpsCanonical, sortKeys_of_frozen h, String.ofList_append]

/-- Canonical bytes determine the value. -/
theorem canonicalJsonBytes_injective {a b : Json} (ha : Frozen a) (hb : Frozen b)
    (h : canonicalJsonBytes a = canonicalJsonBytes b) : a = b := by
  have hread {value : Json} (hvalue : Frozen value) :
      readDocument anyInteger (print compact 0 value ++ ['\n']) = .ok value :=
    readDocument_print (fun number _ => anyInteger_printInt number) (legible_of_frozen hvalue) (by simp [JsonText.isSpace])
  rw [canonicalJsonBytes_eq ha, canonicalJsonBytes_eq hb] at h
  have hchars := String.ofList_injective (encodeUtf8_injective h)
  have hboth := (hread ha).symm.trans ((congrArg (readDocument anyInteger) hchars).trans (hread hb))
  exact Except.ok.inj hboth

theorem jsonDigest_injective (hfree : CollisionFree) {a b : Json} (ha : Frozen a) (hb : Frozen b)
    (h : jsonDigest a = jsonDigest b) : a = b :=
  canonicalJsonBytes_injective ha hb (sha256Bytes_injective hfree h)

end Canonical

/-! ## Bounds of the reader -/

mutual

/-- A frozen value that the strict reader takes at a depth. -/
def Fits : Nat → Json → Prop
  | depth, .null => depth ≤ maxDepth
  | depth, .bool _ => depth ≤ maxDepth
  | depth, .int value => depth ≤ maxDepth ∧ InRange value
  | depth, .str value => depth ≤ maxDepth ∧ value.length ≤ maxStringLength
  | depth, .arr items => depth ≤ maxDepth ∧ FitsItems (depth + 1) items
  | depth, .obj entries => depth ≤ maxDepth ∧ (entries.map Prod.fst).Pairwise (· < ·) ∧
      FitsEntries (depth + 1) entries

def FitsItems : Nat → List Json → Prop
  | _, [] => True
  | depth, item :: rest => Fits depth item ∧ FitsItems depth rest

def FitsEntries : Nat → List (String × Json) → Prop
  | _, [] => True
  | depth, (key, item) :: rest => key.length ≤ maxStringLength ∧ Fits depth item ∧ FitsEntries depth rest

end

theorem Fits.depth {depth : Nat} {value : Json} (h : Fits depth value) : depth ≤ maxDepth := by
  cases value <;> rw [Fits] at h <;> first | exact h | exact h.1

theorem fitsItems_iff {depth : Nat} {items : List Json} :
    FitsItems depth items ↔ ∀ item ∈ items, Fits depth item := by
  induction items with
  | nil => simp [FitsItems]
  | cons item rest ih => simp [FitsItems, ih]

theorem fitsEntries_iff {depth : Nat} {entries : List (String × Json)} :
    FitsEntries depth entries ↔ ∀ entry ∈ entries, entry.1.length ≤ maxStringLength ∧ Fits depth entry.2 := by
  induction entries with
  | nil => simp [FitsEntries]
  | cons entry rest ih =>
      obtain ⟨key, item⟩ := entry
      simp [FitsEntries, ih, and_assoc]

mutual

theorem frozen_of_fits : ∀ {depth : Nat} {value : Json}, Fits depth value → Frozen value
  | _, .null, _ => by rw [Frozen]; trivial
  | _, .bool _, _ => by rw [Frozen]; trivial
  | _, .int _, _ => by rw [Frozen]; trivial
  | _, .str _, _ => by rw [Frozen]; trivial
  | _, .arr items, h => by
      rw [Fits] at h
      rw [Frozen]
      exact frozenItems_of_fits h.2
  | _, .obj entries, h => by
      rw [Fits] at h
      rw [Frozen]
      exact ⟨h.2.1, frozenEntries_of_fits h.2.2⟩

theorem frozenItems_of_fits : ∀ {depth : Nat} {items : List Json}, FitsItems depth items → FrozenItems items
  | _, [], _ => by rw [FrozenItems]; trivial
  | _, item :: rest, h => by
      rw [FitsItems] at h
      rw [FrozenItems]
      exact ⟨frozen_of_fits h.1, frozenItems_of_fits h.2⟩

theorem frozenEntries_of_fits : ∀ {depth : Nat} {entries : List (String × Json)}, FitsEntries depth entries →
    FrozenEntries entries
  | _, [], _ => by rw [FrozenEntries]; trivial
  | _, (key, item) :: rest, h => by
      rw [FitsEntries] at h
      rw [FrozenEntries]
      exact ⟨frozen_of_fits h.2.1, frozenEntries_of_fits h.2.2⟩

end

mutual

theorem legible_of_fits : ∀ {depth : Nat} {value : Json}, Fits depth value → Legible InRange value
  | _, .null, _ => by rw [Legible]; trivial
  | _, .bool _, _ => by rw [Legible]; trivial
  | _, .int _, h => by
      rw [Fits] at h
      rw [Legible]
      exact h.2
  | _, .str _, _ => by rw [Legible]; trivial
  | _, .arr items, h => by
      rw [Fits] at h
      rw [Legible]
      exact legibleItems_of_fits h.2
  | _, .obj entries, h => by
      rw [Fits] at h
      rw [Legible]
      exact ⟨nodup_of_pairwise_lt h.2.1, legibleEntries_of_fits h.2.2⟩

theorem legibleItems_of_fits : ∀ {depth : Nat} {items : List Json}, FitsItems depth items →
    LegibleItems InRange items
  | _, [], _ => by rw [LegibleItems]; trivial
  | _, item :: rest, h => by
      rw [FitsItems] at h
      rw [LegibleItems]
      exact ⟨legible_of_fits h.1, legibleItems_of_fits h.2⟩

theorem legibleEntries_of_fits : ∀ {depth : Nat} {entries : List (String × Json)}, FitsEntries depth entries →
    LegibleEntries InRange entries
  | _, [], _ => by rw [LegibleEntries]; trivial
  | _, (key, item) :: rest, h => by
      rw [FitsEntries] at h
      rw [LegibleEntries]
      exact ⟨legible_of_fits h.2.1, legibleEntries_of_fits h.2.2⟩

end

theorem validatedText_eq_ok {text found : String} (h : validatedText text = .ok found) :
    text = found ∧ text.length ≤ maxStringLength := by
  unfold validatedText at h
  split at h
  · exact absurd h (by simp [error])
  · exact ⟨Except.ok.inj h, by omega⟩

theorem validatedText_of_length {text : String} (h : text.length ≤ maxStringLength) :
    validatedText text = .ok text := by
  unfold validatedText
  rw [if_neg (by omega)]

mutual

theorem freeze_of_fits : ∀ {depth : Nat} {value : Json}, Fits depth value → freeze depth value = .ok value
  | depth, .null, h => by
      have hdepth := h.depth
      rw [freeze, if_neg (by omega)]
  | depth, .bool _, h => by
      have hdepth := h.depth
      rw [freeze, if_neg (by omega)]
  | depth, .int _, h => by
      have hdepth := h.depth
      rw [freeze, if_neg (by omega)]
  | depth, .str _, h => by
      have hdepth := h.depth
      rw [Fits] at h
      rw [freeze, if_neg (by omega)]
      simp only [validatedText_of_length h.2]
      rfl
  | depth, .arr items, h => by
      have hdepth := h.depth
      rw [Fits] at h
      rw [freeze, if_neg (by omega)]
      simp only [freezeItems_of_fits h.2]
      rfl
  | depth, .obj entries, h => by
      have hdepth := h.depth
      rw [Fits] at h
      rw [freeze, if_neg (by omega)]
      simp only [freezeEntries_of_fits h.2.2]
      exact congrArg (fun sorted => Except.ok (Json.obj sorted)) (sortEntries_eq h.2.1)

theorem freezeItems_of_fits : ∀ {depth : Nat} {items : List Json}, FitsItems depth items →
    freezeItems depth items = .ok items
  | _, [], _ => by rw [freezeItems]
  | depth, item :: rest, h => by
      rw [FitsItems] at h
      rw [freezeItems, freeze_of_fits h.1, freezeItems_of_fits h.2]
      rfl

theorem freezeEntries_of_fits : ∀ {depth : Nat} {entries : List (String × Json)}, FitsEntries depth entries →
    freezeEntries depth entries = .ok entries
  | _, [], _ => by rw [freezeEntries]
  | depth, (key, item) :: rest, h => by
      rw [FitsEntries] at h
      rw [freezeEntries, validatedText_of_length h.1, freeze_of_fits h.2.1, freezeEntries_of_fits h.2.2]
      rfl

end

theorem keys_of_freezeEntries {depth : Nat} {entries frozen : List (String × Json)}
    (h : freezeEntries depth entries = .ok frozen) : frozen.map Prod.fst = entries.map Prod.fst := by
  induction entries generalizing frozen with
  | nil =>
      rw [freezeEntries] at h
      obtain rfl := Except.ok.inj h
      rfl
  | cons entry rest ih =>
      obtain ⟨key, item⟩ := entry
      rw [freezeEntries] at h
      obtain ⟨validKey, hkey, h⟩ := Result.of_bind_ok h
      obtain ⟨head, _, h⟩ := Result.of_bind_ok h
      obtain ⟨tail, htail, h⟩ := Result.of_bind_ok h
      obtain rfl := Except.ok.inj h
      rw [List.map_cons, List.map_cons, ih htail, (validatedText_eq_ok hkey).1]

theorem sortEntries_pairwise {entries : List (String × Json)} (h : (entries.map Prod.fst).Nodup) :
    ((sortEntries entries).map Prod.fst).Pairwise (· < ·) := by
  have hnodup : ((sortEntries entries).map Prod.fst).Nodup :=
    ((List.perm_insertionSort _ entries).map _).nodup_iff.mpr h
  have hsorted : (sortEntries entries).Pairwise fun a b => a.1 ≤ b.1 := by
    have : Std.Total fun a b : String × Json => a.1 ≤ b.1 := ⟨fun a b => le_total a.1 b.1⟩
    have : IsTrans (String × Json) fun a b => a.1 ≤ b.1 := ⟨fun a b c hab hbc => le_trans hab hbc⟩
    exact List.pairwise_insertionSort _ entries
  exact (List.pairwise_map.mpr hsorted).imp₂ (fun _ _ hle hne => lt_of_le_of_ne hle hne) hnodup

theorem mem_sortEntries {entries : List (String × Json)} {entry : String × Json} :
    entry ∈ sortEntries entries ↔ entry ∈ entries :=
  (List.perm_insertionSort _ entries).mem_iff

mutual

theorem fits_of_freeze : ∀ {depth : Nat} {value frozen : Json}, Legible InRange value →
    freeze depth value = .ok frozen → Fits depth frozen
  | depth, .null, frozen, _, h => by
      rw [freeze] at h
      split at h
      · exact absurd h (by simp [depthExceeded, error])
      · obtain rfl := Except.ok.inj h
        rw [Fits]
        omega
  | depth, .bool _, frozen, _, h => by
      rw [freeze] at h
      split at h
      · exact absurd h (by simp [depthExceeded, error])
      · obtain rfl := Except.ok.inj h
        rw [Fits]
        omega
  | depth, .int _, frozen, hlegible, h => by
      rw [freeze] at h
      rw [Legible] at hlegible
      split at h
      · exact absurd h (by simp [depthExceeded, error])
      · obtain rfl := Except.ok.inj h
        rw [Fits]
        exact ⟨by omega, hlegible⟩
  | depth, .str value, frozen, _, h => by
      rw [freeze] at h
      split at h
      · exact absurd h (by simp [depthExceeded, error])
      · obtain ⟨text, htext, rfl⟩ := Result.of_map_ok h
        obtain ⟨rfl, hlength⟩ := validatedText_eq_ok htext
        rw [Fits]
        exact ⟨by omega, hlength⟩
  | depth, .arr items, frozen, hlegible, h => by
      rw [freeze] at h
      rw [Legible] at hlegible
      split at h
      · exact absurd h (by simp [depthExceeded, error])
      · obtain ⟨parts, hparts, rfl⟩ := Result.of_map_ok h
        rw [Fits]
        exact ⟨by omega, fitsItems_of_freeze hlegible hparts⟩
  | depth, .obj entries, frozen, hlegible, h => by
      rw [freeze] at h
      rw [Legible] at hlegible
      split at h
      · exact absurd h (by simp [depthExceeded, error])
      · obtain ⟨parts, hparts, rfl⟩ := Result.of_map_ok h
        rw [Fits]
        refine ⟨by omega, sortEntries_pairwise ?_, ?_⟩
        · rw [keys_of_freezeEntries hparts]
          exact hlegible.1
        · have hfits := fitsEntries_iff.mp (fitsEntries_of_freeze hlegible.2 hparts)
          exact fitsEntries_iff.mpr fun entry hentry => hfits entry (mem_sortEntries.mp hentry)

theorem fitsItems_of_freeze : ∀ {depth : Nat} {items frozen : List Json}, LegibleItems InRange items →
    freezeItems depth items = .ok frozen → FitsItems depth frozen
  | depth, [], frozen, _, h => by
      rw [freezeItems] at h
      obtain rfl := Except.ok.inj h
      rw [FitsItems]
      trivial
  | depth, item :: rest, frozen, hlegible, h => by
      rw [freezeItems] at h
      rw [LegibleItems] at hlegible
      obtain ⟨head, hhead, h⟩ := Result.of_bind_ok h
      obtain ⟨tail, htail, h⟩ := Result.of_bind_ok h
      obtain rfl := Except.ok.inj h
      rw [FitsItems]
      exact ⟨fits_of_freeze hlegible.1 hhead, fitsItems_of_freeze hlegible.2 htail⟩

theorem fitsEntries_of_freeze : ∀ {depth : Nat} {entries frozen : List (String × Json)},
    LegibleEntries InRange entries → freezeEntries depth entries = .ok frozen → FitsEntries depth frozen
  | depth, [], frozen, _, h => by
      rw [freezeEntries] at h
      obtain rfl := Except.ok.inj h
      rw [FitsEntries]
      trivial
  | depth, (key, item) :: rest, frozen, hlegible, h => by
      rw [freezeEntries] at h
      rw [LegibleEntries] at hlegible
      obtain ⟨validKey, hkey, h⟩ := Result.of_bind_ok h
      obtain ⟨head, hhead, h⟩ := Result.of_bind_ok h
      obtain ⟨tail, htail, h⟩ := Result.of_bind_ok h
      obtain rfl := Except.ok.inj h
      obtain ⟨rfl, hlength⟩ := validatedText_eq_ok hkey
      rw [FitsEntries]
      exact ⟨hlength, fits_of_freeze hlegible.1 hhead, fitsEntries_of_freeze hlegible.2 htail⟩

end

/-! ## What it takes to fit -/

mutual

/-- Levels of arrays and objects in a value. -/
def nesting : Json → Nat
  | .null => 0
  | .bool _ => 0
  | .int _ => 0
  | .str _ => 0
  | .arr items => nestingItems items + 1
  | .obj entries => nestingEntries entries + 1

def nestingItems : List Json → Nat
  | [] => 0
  | item :: rest => max (nesting item) (nestingItems rest)

def nestingEntries : List (String × Json) → Nat
  | [] => 0
  | (_, item) :: rest => max (nesting item) (nestingEntries rest)

end

mutual

/-- No text of a value, keys included, is longer than the reader takes. -/
def TextsWithin : Json → Prop
  | .null => True
  | .bool _ => True
  | .int _ => True
  | .str value => value.length ≤ maxStringLength
  | .arr items => TextsWithinItems items
  | .obj entries => TextsWithinEntries entries

def TextsWithinItems : List Json → Prop
  | [] => True
  | item :: rest => TextsWithin item ∧ TextsWithinItems rest

def TextsWithinEntries : List (String × Json) → Prop
  | [] => True
  | (key, item) :: rest => key.length ≤ maxStringLength ∧ TextsWithin item ∧ TextsWithinEntries rest

end

mutual

theorem fits_of_bounds : ∀ {depth : Nat} {value : Json}, Frozen value → Legible InRange value → TextsWithin value →
    depth + nesting value ≤ maxDepth → Fits depth value
  | depth, .null, _, _, _, hdepth => by
      rw [nesting] at hdepth
      rw [Fits]
      exact hdepth
  | depth, .bool _, _, _, _, hdepth => by
      rw [nesting] at hdepth
      rw [Fits]
      exact hdepth
  | depth, .int _, _, hlegible, _, hdepth => by
      rw [nesting] at hdepth
      rw [Legible] at hlegible
      rw [Fits]
      exact ⟨hdepth, hlegible⟩
  | depth, .str _, _, _, htexts, hdepth => by
      rw [nesting] at hdepth
      rw [TextsWithin] at htexts
      rw [Fits]
      exact ⟨hdepth, htexts⟩
  | depth, .arr items, hfrozen, hlegible, htexts, hdepth => by
      rw [nesting] at hdepth
      rw [Frozen] at hfrozen
      rw [Legible] at hlegible
      rw [TextsWithin] at htexts
      rw [Fits]
      exact ⟨by omega, fitsItems_of_bounds hfrozen hlegible htexts (by omega)⟩
  | depth, .obj entries, hfrozen, hlegible, htexts, hdepth => by
      rw [nesting] at hdepth
      rw [Frozen] at hfrozen
      rw [Legible] at hlegible
      rw [TextsWithin] at htexts
      rw [Fits]
      exact ⟨by omega, hfrozen.1, fitsEntries_of_bounds hfrozen.2 hlegible.2 htexts (by omega)⟩

theorem fitsItems_of_bounds : ∀ {depth : Nat} {items : List Json}, FrozenItems items → LegibleItems InRange items →
    TextsWithinItems items → depth + nestingItems items ≤ maxDepth → FitsItems depth items
  | _, [], _, _, _, _ => by rw [FitsItems]; trivial
  | depth, item :: rest, hfrozen, hlegible, htexts, hdepth => by
      rw [nestingItems] at hdepth
      rw [FrozenItems] at hfrozen
      rw [LegibleItems] at hlegible
      rw [TextsWithinItems] at htexts
      rw [FitsItems]
      exact ⟨fits_of_bounds hfrozen.1 hlegible.1 htexts.1 (by omega),
        fitsItems_of_bounds hfrozen.2 hlegible.2 htexts.2 (by omega)⟩

theorem fitsEntries_of_bounds : ∀ {depth : Nat} {entries : List (String × Json)}, FrozenEntries entries →
    LegibleEntries InRange entries → TextsWithinEntries entries → depth + nestingEntries entries ≤ maxDepth →
    FitsEntries depth entries
  | _, [], _, _, _, _ => by rw [FitsEntries]; trivial
  | depth, (key, item) :: rest, hfrozen, hlegible, htexts, hdepth => by
      rw [nestingEntries] at hdepth
      rw [FrozenEntries] at hfrozen
      rw [LegibleEntries] at hlegible
      rw [TextsWithinEntries] at htexts
      rw [FitsEntries]
      exact ⟨htexts.1, fits_of_bounds hfrozen.1 hlegible.1 htexts.2.1 (by omega),
        fitsEntries_of_bounds hfrozen.2 hlegible.2 htexts.2.2 (by omega)⟩

end

/-! ## Reading documents -/

theorem loads_text {layout : JsonText.Layout} {value : Json} (h : Legible InRange value) {tail : List Char}
    (htail : ∀ c ∈ tail, JsonText.isSpace c = true) :
    JsonText.loads (String.ofList (print layout 0 value ++ tail)) = .ok value := by
  obtain ⟨c, rest, hform, _, _, hmark⟩ := print_head layout 0 value
  unfold JsonText.loads
  rw [String.toList_ofList]
  split
  · rename_i heq
    rw [hform, List.cons_append] at heq
    exact absurd (List.cons.inj heq).1 hmark
  · exact readDocument_print (fun number hnumber => parseInteger_printInt hnumber) h htail

theorem legible_of_loads {text : String} {value : Json} (h : JsonText.loads text = .ok value) :
    Legible InRange value := by
  unfold JsonText.loads at h
  split at h
  · exact absurd h (by simp [invalidJson, error])
  · unfold readDocument at h
    obtain ⟨⟨found, rest⟩, hread, h⟩ := Result.of_bind_ok h
    dsimp only at h
    split at h
    · obtain rfl := Except.ok.inj h
      exact (legible_of_read (fun _ _ hparse => InRange.of_parseInteger hparse) _).1 _ _ _ hread
    · exact absurd h (by simp [invalidJson, error])

section Reading

variable [StandardLibrary] [JsonRuntime]

/-- What fits the bounds is read back from its canonical bytes. -/
theorem parseJson_canonicalJsonBytes {value : Json} (h : Fits 0 value) :
    parseJson (canonicalJsonBytes value) = .ok value := by
  have hloads : JsonText.loads (String.ofList (print compact 0 value ++ ['\n'])) = .ok value :=
    loads_text (legible_of_fits h) (by simp [JsonText.isSpace])
  unfold parseJson
  rw [canonicalJsonBytes_eq (frozen_of_fits h), decodeUtf8_encodeUtf8]
  simp only [JsonRuntime.loads_eq, hloads, bind, Except.bind]
  exact freeze_of_fits h

/-- Whatever is read fits the bounds. -/
theorem fits_of_parseJson {data : Bytes} {value : Json} (h : parseJson data = .ok value) : Fits 0 value := by
  unfold parseJson at h
  split at h
  · exact absurd h (by simp [error])
  · obtain ⟨loaded, hloaded, h⟩ := Result.of_bind_ok h
    rw [JsonRuntime.loads_eq] at hloaded
    exact fits_of_freeze (legible_of_loads hloaded) h

end Reading

end AgentArtifacts
