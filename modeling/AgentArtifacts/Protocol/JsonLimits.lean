import AgentArtifacts.Protocol.JsonCanonical

/-!
# Longer texts

The strict reader under another bound on the length of texts, as the envelope of an
object is read. The bound of the other documents is one of its cases.
-/

namespace AgentArtifacts

open JsonText

/-! ## The reader under a bound -/

def validatedTextWithin (maxString : Nat) (value : String) : Result String :=
  if value.length > maxString then
    error jsonStringLength ("JSON string exceeds " ++ toString maxString ++ " code points")
  else .ok value

mutual

def freezeWithin (maxString : Nat) : Nat → Json → Result Json
  | depth, value => if depth > maxDepth then depthExceeded else match value with
      | .null => .ok .null
      | .bool b => .ok (.bool b)
      | .int i => .ok (.int i)
      | .str s => (validatedTextWithin maxString s).map .str
      | .arr items => (freezeItemsWithin maxString (depth + 1) items).map .arr
      | .obj entries =>
          (freezeEntriesWithin maxString (depth + 1) entries).map fun frozen => .obj (sortEntries frozen)

def freezeItemsWithin (maxString : Nat) : Nat → List Json → Result (List Json)
  | _, [] => .ok []
  | depth, item :: rest => do
      let head ← freezeWithin maxString depth item
      let tail ← freezeItemsWithin maxString depth rest
      return head :: tail

def freezeEntriesWithin (maxString : Nat) : Nat → List (String × Json) → Result (List (String × Json))
  | _, [] => .ok []
  | depth, (key, item) :: rest => do
      let validKey ← validatedTextWithin maxString key
      let head ← freezeWithin maxString depth item
      let tail ← freezeEntriesWithin maxString depth rest
      return (validKey, head) :: tail

end

def parseJsonWithin [StandardLibrary] (maxString : Nat) (data : Bytes) : Result Json :=
  match decodeUtf8 data with
  | none => error jsonUnicode "JSON input is not valid UTF-8"
  | some text => StandardLibrary.jsonLoads text >>= freezeWithin maxString 0

theorem validatedTextWithin_maxStringLength (value : String) :
    validatedTextWithin maxStringLength value = validatedText value := by
  unfold validatedTextWithin validatedText
  split <;> rfl

mutual

theorem freezeWithin_maxStringLength : ∀ (depth : Nat) (value : Json),
    freezeWithin maxStringLength depth value = freeze depth value
  | depth, .null => by rw [freezeWithin, freeze]
  | depth, .bool _ => by rw [freezeWithin, freeze]
  | depth, .int _ => by rw [freezeWithin, freeze]
  | depth, .str value => by rw [freezeWithin, freeze, validatedTextWithin_maxStringLength]
  | depth, .arr items => by rw [freezeWithin, freeze, freezeItemsWithin_maxStringLength (depth + 1) items]
  | depth, .obj entries => by rw [freezeWithin, freeze, freezeEntriesWithin_maxStringLength (depth + 1) entries]

theorem freezeItemsWithin_maxStringLength : ∀ (depth : Nat) (items : List Json),
    freezeItemsWithin maxStringLength depth items = freezeItems depth items
  | _, [] => by rw [freezeItemsWithin, freezeItems]
  | depth, item :: rest => by
      rw [freezeItemsWithin, freezeItems, freezeWithin_maxStringLength depth item,
        freezeItemsWithin_maxStringLength depth rest]

theorem freezeEntriesWithin_maxStringLength : ∀ (depth : Nat) (entries : List (String × Json)),
    freezeEntriesWithin maxStringLength depth entries = freezeEntries depth entries
  | _, [] => by rw [freezeEntriesWithin, freezeEntries]
  | depth, (key, item) :: rest => by
      rw [freezeEntriesWithin, freezeEntries, validatedTextWithin_maxStringLength,
        freezeWithin_maxStringLength depth item, freezeEntriesWithin_maxStringLength depth rest]

end

theorem parseJsonWithin_maxStringLength [StandardLibrary] (data : Bytes) :
    parseJsonWithin maxStringLength data = parseJson data := by
  have hfreeze : freezeWithin maxStringLength 0 = freeze 0 := funext fun value => freezeWithin_maxStringLength 0 value
  unfold parseJsonWithin parseJson
  exact hfreeze ▸ rfl

/-! ## What the reader takes -/

mutual

/-- The depth of a value and the length of its texts are within the bounds. -/
def Bounded (maxString : Nat) : Nat → Json → Prop
  | depth, .null => depth ≤ maxDepth
  | depth, .bool _ => depth ≤ maxDepth
  | depth, .int _ => depth ≤ maxDepth
  | depth, .str value => depth ≤ maxDepth ∧ value.length ≤ maxString
  | depth, .arr items => depth ≤ maxDepth ∧ BoundedItems maxString (depth + 1) items
  | depth, .obj entries => depth ≤ maxDepth ∧ BoundedEntries maxString (depth + 1) entries

def BoundedItems (maxString : Nat) : Nat → List Json → Prop
  | _, [] => True
  | depth, item :: rest => Bounded maxString depth item ∧ BoundedItems maxString depth rest

def BoundedEntries (maxString : Nat) : Nat → List (String × Json) → Prop
  | _, [] => True
  | depth, (key, item) :: rest =>
      key.length ≤ maxString ∧ Bounded maxString depth item ∧ BoundedEntries maxString depth rest

end

theorem boundedItems_iff {maxString depth : Nat} {items : List Json} :
    BoundedItems maxString depth items ↔ ∀ item ∈ items, Bounded maxString depth item := by
  induction items with
  | nil => simp [BoundedItems]
  | cons item rest ih => simp [BoundedItems, ih]

theorem boundedEntries_iff {maxString depth : Nat} {entries : List (String × Json)} :
    BoundedEntries maxString depth entries ↔
      ∀ entry ∈ entries, entry.1.length ≤ maxString ∧ Bounded maxString depth entry.2 := by
  induction entries with
  | nil => simp [BoundedEntries]
  | cons entry rest ih =>
      obtain ⟨key, item⟩ := entry
      simp [BoundedEntries, ih, and_assoc]

theorem validatedTextWithin_eq_ok {maxString : Nat} {text found : String} :
    validatedTextWithin maxString text = .ok found ↔ text.length ≤ maxString ∧ found = text := by
  unfold validatedTextWithin
  split
  · simp only [error, reduceCtorEq, false_iff, not_and]
    omega
  · rw [Except.ok.injEq]
    constructor
    · rintro rfl
      exact ⟨by omega, rfl⟩
    · exact fun h => h.2.symm

theorem depth_of_freezeWithin {maxString depth : Nat} {value frozen : Json}
    (h : freezeWithin maxString depth value = .ok frozen) : depth ≤ maxDepth := by
  by_contra hdepth
  have hover : freezeWithin maxString depth value = depthExceeded := by
    cases value <;> rw [freezeWithin, if_pos (by omega)]
  rw [hover] at h
  exact absurd h (by simp [depthExceeded, error])

mutual

theorem freezeWithin_eq_ok {maxString : Nat} : ∀ {depth : Nat} {value frozen : Json}, Frozen value →
    (freezeWithin maxString depth value = .ok frozen ↔ Bounded maxString depth value ∧ frozen = value)
  | depth, .null, frozen, _ => by
      rw [Bounded]
      by_cases hdepth : depth ≤ maxDepth
      · rw [freezeWithin, if_neg (by omega), Except.ok.injEq]
        exact ⟨fun h => ⟨hdepth, h.symm⟩, fun h => h.2.symm⟩
      · exact ⟨fun h => absurd (depth_of_freezeWithin h) hdepth, fun h => absurd h.1 hdepth⟩
  | depth, .bool _, frozen, _ => by
      rw [Bounded]
      by_cases hdepth : depth ≤ maxDepth
      · rw [freezeWithin, if_neg (by omega), Except.ok.injEq]
        exact ⟨fun h => ⟨hdepth, h.symm⟩, fun h => h.2.symm⟩
      · exact ⟨fun h => absurd (depth_of_freezeWithin h) hdepth, fun h => absurd h.1 hdepth⟩
  | depth, .int _, frozen, _ => by
      rw [Bounded]
      by_cases hdepth : depth ≤ maxDepth
      · rw [freezeWithin, if_neg (by omega), Except.ok.injEq]
        exact ⟨fun h => ⟨hdepth, h.symm⟩, fun h => h.2.symm⟩
      · exact ⟨fun h => absurd (depth_of_freezeWithin h) hdepth, fun h => absurd h.1 hdepth⟩
  | depth, .str value, frozen, _ => by
      rw [Bounded]
      by_cases hdepth : depth ≤ maxDepth
      · rw [freezeWithin, if_neg (by omega)]
        constructor
        · intro h
          obtain ⟨text, htext, rfl⟩ := Result.of_map_ok h
          obtain ⟨hlength, rfl⟩ := validatedTextWithin_eq_ok.mp htext
          exact ⟨⟨hdepth, hlength⟩, rfl⟩
        · rintro ⟨⟨_, hlength⟩, rfl⟩
          simp only [validatedTextWithin_eq_ok.mpr ⟨hlength, rfl⟩]
          rfl
      · exact ⟨fun h => absurd (depth_of_freezeWithin h) hdepth, fun h => absurd h.1.1 hdepth⟩
  | depth, .arr items, frozen, hfrozen => by
      rw [Frozen] at hfrozen
      rw [Bounded]
      by_cases hdepth : depth ≤ maxDepth
      · rw [freezeWithin, if_neg (by omega)]
        constructor
        · intro h
          obtain ⟨parts, hparts, rfl⟩ := Result.of_map_ok h
          obtain ⟨hbounded, rfl⟩ := (freezeItemsWithin_eq_ok hfrozen).mp hparts
          exact ⟨⟨hdepth, hbounded⟩, rfl⟩
        · rintro ⟨⟨_, hbounded⟩, rfl⟩
          simp only [(freezeItemsWithin_eq_ok hfrozen).mpr ⟨hbounded, rfl⟩]
          rfl
      · exact ⟨fun h => absurd (depth_of_freezeWithin h) hdepth, fun h => absurd h.1.1 hdepth⟩
  | depth, .obj entries, frozen, hfrozen => by
      rw [Frozen] at hfrozen
      rw [Bounded]
      by_cases hdepth : depth ≤ maxDepth
      · rw [freezeWithin, if_neg (by omega)]
        constructor
        · intro h
          obtain ⟨parts, hparts, rfl⟩ := Result.of_map_ok h
          obtain ⟨hbounded, rfl⟩ := (freezeEntriesWithin_eq_ok hfrozen.2).mp hparts
          exact ⟨⟨hdepth, hbounded⟩, by rw [sortEntries_eq hfrozen.1]⟩
        · rintro ⟨⟨_, hbounded⟩, rfl⟩
          simp only [(freezeEntriesWithin_eq_ok hfrozen.2).mpr ⟨hbounded, rfl⟩]
          exact congrArg (fun sorted => Except.ok (Json.obj sorted)) (sortEntries_eq hfrozen.1)
      · exact ⟨fun h => absurd (depth_of_freezeWithin h) hdepth, fun h => absurd h.1.1 hdepth⟩

theorem freezeItemsWithin_eq_ok {maxString : Nat} : ∀ {depth : Nat} {items frozen : List Json}, FrozenItems items →
    (freezeItemsWithin maxString depth items = .ok frozen ↔ BoundedItems maxString depth items ∧ frozen = items)
  | _, [], frozen, _ => by
      rw [freezeItemsWithin, BoundedItems, Except.ok.injEq]
      exact ⟨fun h => ⟨trivial, h.symm⟩, fun h => h.2.symm⟩
  | depth, item :: rest, frozen, hfrozen => by
      rw [FrozenItems] at hfrozen
      rw [freezeItemsWithin, BoundedItems]
      constructor
      · intro h
        obtain ⟨head, hhead, hmore⟩ := Result.of_bind_ok h
        obtain ⟨tail, htail, hlast⟩ := Result.of_bind_ok hmore
        obtain ⟨hitem, rfl⟩ := (freezeWithin_eq_ok hfrozen.1).mp hhead
        obtain ⟨hrest, rfl⟩ := (freezeItemsWithin_eq_ok hfrozen.2).mp htail
        exact ⟨⟨hitem, hrest⟩, (Except.ok.inj hlast).symm⟩
      · rintro ⟨⟨hitem, hrest⟩, rfl⟩
        rw [(freezeWithin_eq_ok hfrozen.1).mpr ⟨hitem, rfl⟩, (freezeItemsWithin_eq_ok hfrozen.2).mpr ⟨hrest, rfl⟩]
        rfl

theorem freezeEntriesWithin_eq_ok {maxString : Nat} : ∀ {depth : Nat} {entries frozen : List (String × Json)},
    FrozenEntries entries →
    (freezeEntriesWithin maxString depth entries = .ok frozen ↔
      BoundedEntries maxString depth entries ∧ frozen = entries)
  | _, [], frozen, _ => by
      rw [freezeEntriesWithin, BoundedEntries, Except.ok.injEq]
      exact ⟨fun h => ⟨trivial, h.symm⟩, fun h => h.2.symm⟩
  | depth, (key, item) :: rest, frozen, hfrozen => by
      rw [FrozenEntries] at hfrozen
      rw [freezeEntriesWithin, BoundedEntries]
      constructor
      · intro h
        obtain ⟨validKey, hkey, hmore⟩ := Result.of_bind_ok h
        obtain ⟨head, hhead, hnext⟩ := Result.of_bind_ok hmore
        obtain ⟨tail, htail, hlast⟩ := Result.of_bind_ok hnext
        obtain ⟨hlength, rfl⟩ := validatedTextWithin_eq_ok.mp hkey
        obtain ⟨hitem, rfl⟩ := (freezeWithin_eq_ok hfrozen.1).mp hhead
        obtain ⟨hrest, rfl⟩ := (freezeEntriesWithin_eq_ok hfrozen.2).mp htail
        exact ⟨⟨hlength, hitem, hrest⟩, (Except.ok.inj hlast).symm⟩
      · rintro ⟨⟨hlength, hitem, hrest⟩, rfl⟩
        rw [validatedTextWithin_eq_ok.mpr ⟨hlength, rfl⟩, (freezeWithin_eq_ok hfrozen.1).mpr ⟨hitem, rfl⟩,
          (freezeEntriesWithin_eq_ok hfrozen.2).mpr ⟨hrest, rfl⟩]
        rfl

end

/-- Canonical bytes are read back exactly within the bounds, and never as another value. -/
theorem parseJsonWithin_canonicalJsonBytes [StandardLibrary] [JsonRuntime] {maxString : Nat} {value found : Json}
    (hfrozen : Frozen value) (hintegers : Legible InRange value) :
    parseJsonWithin maxString (canonicalJsonBytes value) = .ok found ↔ Bounded maxString 0 value ∧ found = value := by
  have hloads : JsonText.loads (String.ofList (print compact 0 value ++ ['\n'])) = .ok value :=
    loads_text hintegers (by simp [JsonText.isSpace])
  unfold parseJsonWithin
  rw [canonicalJsonBytes_eq hfrozen, decodeUtf8_encodeUtf8]
  simp only [JsonRuntime.loads_eq, hloads, bind, Except.bind]
  exact freezeWithin_eq_ok hfrozen

end AgentArtifacts
