import Mathlib.Data.List.Sort
import Mathlib.Data.String.Basic
import AgentArtifacts.Domain

/-!
# JSON values and the standard library boundary

`Json` is the strict value language of the protocol: no floats, objects as
association lists in insertion order. The runtime functions that are tables or
text codecs of the language (SHA-256, Unicode normalisation, the JSON reader
and writers) are the fields of `StandardLibrary`; every theorem holds for any
choice of them, and the ones that need more name the law they need.
-/

namespace AgentArtifacts

inductive Json where
  | null
  | bool (value : Bool)
  | int (value : Int)
  | str (value : String)
  | arr (items : List Json)
  | obj (entries : List (String × Json))
deriving Inhabited

namespace Json

mutual

/-- Equality of values; the derive handler does not reach through lists. -/
def decEq : (a b : Json) → Decidable (a = b)
  | .null, b => match b with
      | .null => isTrue rfl
      | .bool _ | .int _ | .str _ | .arr _ | .obj _ => isFalse (by simp)
  | .bool x, b => match b with
      | .bool y => decidable_of_iff (x = y) (by simp)
      | .null | .int _ | .str _ | .arr _ | .obj _ => isFalse (by simp)
  | .int x, b => match b with
      | .int y => decidable_of_iff (x = y) (by simp)
      | .null | .bool _ | .str _ | .arr _ | .obj _ => isFalse (by simp)
  | .str x, b => match b with
      | .str y => decidable_of_iff (x = y) (by simp)
      | .null | .bool _ | .int _ | .arr _ | .obj _ => isFalse (by simp)
  | .arr xs, b => match b with
      | .arr ys => match decEqItems xs ys with
          | isTrue h => isTrue (by rw [h])
          | isFalse h => isFalse (by simpa using h)
      | .null | .bool _ | .int _ | .str _ | .obj _ => isFalse (by simp)
  | .obj xs, b => match b with
      | .obj ys => match decEqEntries xs ys with
          | isTrue h => isTrue (by rw [h])
          | isFalse h => isFalse (by simpa using h)
      | .null | .bool _ | .int _ | .str _ | .arr _ => isFalse (by simp)

def decEqItems : (a b : List Json) → Decidable (a = b)
  | [], [] => isTrue rfl
  | [], _ :: _ => isFalse (by simp)
  | _ :: _, [] => isFalse (by simp)
  | x :: xs, y :: ys => match decEq x y, decEqItems xs ys with
      | isTrue hx, isTrue hxs => isTrue (by rw [hx, hxs])
      | isFalse hx, _ => isFalse (by simp [hx])
      | _, isFalse hxs => isFalse (by simp [hxs])

def decEqEntries : (a b : List (String × Json)) → Decidable (a = b)
  | [], [] => isTrue rfl
  | [], _ :: _ => isFalse (by simp)
  | _ :: _, [] => isFalse (by simp)
  | (k, x) :: xs, (l, y) :: ys => match decEq x y, decEqEntries xs ys with
      | isTrue hx, isTrue hxs =>
          if hk : k = l then isTrue (by rw [hk, hx, hxs]) else isFalse (by simp [hk])
      | isFalse hx, _ => isFalse (by simp [hx])
      | _, isFalse hxs => isFalse (by simp [hxs])

end

instance : DecidableEq Json := decEq

end Json

/-! ## Dictionaries -/

/-- Entries of a mapping in insertion order. -/
abbrev Dict := List (String × Json)

namespace Dict

def get? (dict : Dict) (key : String) : Option Json :=
  (dict.find? (fun entry => entry.1 == key)).map (·.2)

/-- Assignment keeps the position of a present key and appends a new one. -/
def set : Dict → String → Json → Dict
  | [], key, value => [(key, value)]
  | (k, v) :: rest, key, value =>
      if k = key then (key, value) :: rest else (k, v) :: set rest key value

@[simp] theorem get?_nil (key : String) : get? [] key = none := rfl

@[simp] theorem get?_cons (k : String) (v : Json) (rest : Dict) (key : String) :
    get? ((k, v) :: rest) key = if k = key then some v else get? rest key := by
  by_cases h : k = key
  · simp [get?, h]
  · simp [get?, h]

@[simp] theorem get?_set_self (dict : Dict) (key : String) (value : Json) :
    (dict.set key value).get? key = some value := by
  induction dict with
  | nil => simp [set]
  | cons entry rest ih =>
      obtain ⟨k, v⟩ := entry
      by_cases h : k = key
      · simp [set, h]
      · simp [set, h, ih]

theorem get?_set_of_ne (dict : Dict) {key other : String} (value : Json) (h : other ≠ key) :
    (dict.set key value).get? other = dict.get? other := by
  induction dict with
  | nil => simp [set, h.symm]
  | cons entry rest ih =>
      obtain ⟨k, v⟩ := entry
      by_cases hk : k = key
      · simp [set, hk, h.symm]
      · simp [set, hk, ih]

end Dict

/-! ## Comparison of Python values -/

namespace Json

mutual

/-- The `==` of decoded values: mappings compare without regard to order, and a
boolean equals the integer it converts to. -/
def pyEq : Json → Json → Bool
  | .null, .null => true
  | .bool a, .bool b => a == b
  | .int a, .int b => a == b
  | .bool a, .int b => (if a then 1 else 0) == b
  | .int a, .bool b => a == (if b then 1 else 0)
  | .str a, .str b => a == b
  | .arr a, .arr b => pyEqItems a b
  | .obj a, .obj b => a.length == b.length && pyEqEntries a b
  | _, _ => false

def pyEqItems : List Json → List Json → Bool
  | [], [] => true
  | a :: as, b :: bs => pyEq a b && pyEqItems as bs
  | _, _ => false

def pyEqEntries : List (String × Json) → Dict → Bool
  | [], _ => true
  | (key, a) :: rest, other =>
      (match Dict.get? other key with
        | some b => pyEq a b
        | none => false) && pyEqEntries rest other

end

end Json

/-! ## Text encoding -/

/-- `bytes.decode("utf-8", errors="strict")`. -/
def decodeUtf8 (data : Bytes) : Option String := String.fromUTF8? ⟨data.toArray⟩

/-- `str.encode("utf-8")`. -/
def encodeUtf8 (text : String) : Bytes := text.toUTF8.data.toList

theorem encodeUtf8_ofList (chars : List Char) : encodeUtf8 (String.ofList chars) = chars.flatMap String.utf8EncodeChar := by
  unfold encodeUtf8
  simp [String.toUTF8, List.utf8Encode]

theorem length_encodeUtf8_le (chars : List Char) : (encodeUtf8 (String.ofList chars)).length ≤ 4 * chars.length := by
  rw [encodeUtf8_ofList]
  induction chars with
  | nil => simp
  | cons c rest ih =>
      have hsize := Char.utf8Size_le_four c
      rw [List.flatMap_cons, List.length_append, String.length_utf8EncodeChar, List.length_cons]
      omega

theorem length_le_encodeUtf8 (text : String) : text.length ≤ (encodeUtf8 text).length := by
  obtain ⟨chars, rfl⟩ : ∃ chars, text = String.ofList chars := ⟨text.toList, String.ofList_toList.symm⟩
  rw [encodeUtf8_ofList, String.length_ofList]
  induction chars with
  | nil => exact Nat.le_refl 0
  | cons c rest ih =>
      have hone := Char.utf8Size_pos c
      rw [List.flatMap_cons, List.length_append, String.length_utf8EncodeChar, List.length_cons]
      omega

theorem length_encodeUtf8_ascii {chars : List Char} (h : ∀ c ∈ chars, c.toNat < 128) :
    (encodeUtf8 (String.ofList chars)).length = chars.length := by
  rw [encodeUtf8_ofList]
  induction chars with
  | nil => rfl
  | cons c rest ih =>
      obtain ⟨hc, hrest⟩ := List.forall_mem_cons.mp h
      have hsize : c.utf8Size = 1 := Char.utf8Size_eq_one_iff.mpr (by
        rw [UInt32.le_iff_toNat_le]
        show c.toNat ≤ 127
        omega)
      rw [List.flatMap_cons, List.length_append, String.length_utf8EncodeChar, hsize, ih hrest, List.length_cons]
      omega

theorem encodeUtf8_of_decodeUtf8 {data : Bytes} {text : String} (h : decodeUtf8 data = some text) :
    encodeUtf8 text = data := by
  unfold decodeUtf8 String.fromUTF8? at h
  split at h
  · simp only [Option.some.injEq] at h
    rw [← h]
    rfl
  · exact absurd h (by simp)

@[simp] theorem decodeUtf8_encodeUtf8 (text : String) : decodeUtf8 (encodeUtf8 text) = some text := by
  have hvalid : text.toUTF8.IsValidUTF8 := text.isValidUTF8
  unfold decodeUtf8 encodeUtf8 String.fromUTF8?
  rw [Array.toArray_toList]
  exact dif_pos hvalid

theorem encodeUtf8_injective {a b : String} (h : encodeUtf8 a = encodeUtf8 b) : a = b := by
  have hsome : some a = some b := by
    rw [← decodeUtf8_encodeUtf8 a, ← decodeUtf8_encodeUtf8 b, h]
  exact Option.some.inj hsome

/-! ## Standard library -/

/-- The language runtime, as far as the modelled code calls into it: the raw
SHA-256 of some bytes, whether a text is in Unicode normal form C, `json.loads`
under the hooks of the strict reader, and `json.dumps` in its compact sorted
and in its two-space indented form. -/
class StandardLibrary where
  sha256 : Bytes → Bytes
  isNfc : String → Bool
  jsonLoads : String → Result Json
  jsonDumpsCanonical : Json → String
  jsonDumpsIndent : Json → String

variable [StandardLibrary]

/-! ## The strict reader and the canonical writer -/

def jsonUnicode : DiagnosticCode := ⟨"protocol-json-unicode"⟩

def jsonDepth : DiagnosticCode := ⟨"protocol-json-depth"⟩

def jsonStringLength : DiagnosticCode := ⟨"protocol-json-string-length"⟩

def maxDepth : Nat := 64

def maxStringLength : Nat := 1000000

def depthExceeded {α : Type} : Result α :=
  error jsonDepth "JSON nesting exceeds maximum depth 64"

def validatedText (value : String) : Result String :=
  if value.length > maxStringLength then
    error jsonStringLength "JSON string exceeds 1000000 code points"
  else .ok value

def sortEntries (entries : List (String × Json)) : List (String × Json) :=
  entries.insertionSort fun a b => a.1 ≤ b.1

mutual

/-- Depth and text bounds of a parsed value; an object keeps its entries sorted
by key, as the frozen `JsonObject` does. -/
def freeze : Nat → Json → Result Json
  | depth, value => if depth > maxDepth then depthExceeded else match value with
      | .null => .ok .null
      | .bool b => .ok (.bool b)
      | .int i => .ok (.int i)
      | .str s => (validatedText s).map .str
      | .arr items => (freezeItems (depth + 1) items).map .arr
      | .obj entries => (freezeEntries (depth + 1) entries).map fun frozen => .obj (sortEntries frozen)

def freezeItems : Nat → List Json → Result (List Json)
  | _, [] => .ok []
  | depth, item :: rest => do
      let head ← freeze depth item
      let tail ← freezeItems depth rest
      return head :: tail

def freezeEntries : Nat → List (String × Json) → Result (List (String × Json))
  | _, [] => .ok []
  | depth, (key, item) :: rest => do
      let validKey ← validatedText key
      let head ← freeze depth item
      let tail ← freezeEntries depth rest
      return (validKey, head) :: tail

end

def parseJson (data : Bytes) : Result Json :=
  match decodeUtf8 data with
  | none => error jsonUnicode "JSON input is not valid UTF-8"
  | some text => StandardLibrary.jsonLoads text >>= freeze 0

def canonicalJsonBytes (value : Json) : Bytes :=
  encodeUtf8 (StandardLibrary.jsonDumpsCanonical value ++ "\n")

/-! ## A transparent runtime -/

/-- A runtime for concrete runs: a digest is the text of the hashed bytes, every
ASCII text is in normal form, and no JSON document is read or written. -/
@[reducible] def plainLibrary : StandardLibrary where
  sha256 := id
  isNfc text := text.toList.all fun c => c.toNat < 128
  jsonLoads _ := error ⟨"protocol-json-syntax"⟩ "Expecting value"
  jsonDumpsCanonical _ := "null"
  jsonDumpsIndent _ := "null"

end AgentArtifacts
