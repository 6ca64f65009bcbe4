import AgentArtifacts.Protocol.JsonAscii
import AgentArtifacts.Protocol.Paths

/-!
# Texts of frozen values

`str` and `repr` of what a receipt holds: its arrays are tuples and its objects are mapping
proxies. A quoted text can be read back from the front of what it begins.
-/

namespace AgentArtifacts.Setup

open JsonText (hexFour unicodeEscape hexCode hexCode_hexFour)

/-- `str.isprintable` of a character outside ASCII. -/
class UnicodeTable where
  isPrintable : Char → Bool

/-! ## Quoted texts -/

section Quoting

variable [UnicodeTable]

def quoteOf (text : String) : Char :=
  if text.toList.contains '\'' && !text.toList.contains '"' then '"' else '\''

def quoteEscape (quote c : Char) : List Char :=
  if c = '\\' ∨ c = quote then ['\\', c]
  else if c = '\n' then ['\\', 'n']
  else if c = '\r' then ['\\', 'r']
  else if c = '\t' then ['\\', 't']
  else if ' ' ≤ c ∧ c ≤ '~' then [c]
  else if 0x7F < c.toNat ∧ UnicodeTable.isPrintable c = true then [c]
  else if c.toNat < 0x100 then ['\\', 'x', Nat.digitChar (c.toNat / 16), Nat.digitChar (c.toNat % 16)]
  else if c.toNat < 0x10000 then unicodeEscape c.toNat
  else '\\' :: 'U' :: (hexFour (c.toNat / 0x10000) ++ hexFour (c.toNat % 0x10000))

/-- `repr` of a text. -/
def quoted (text : String) : List Char :=
  quoteOf text :: (text.toList.flatMap (quoteEscape (quoteOf text)) ++ [quoteOf text])

/-- The character that an escaped text begins with. -/
def unescape : List Char → Option (Char × List Char)
  | '\\' :: 'n' :: rest => some ('\n', rest)
  | '\\' :: 'r' :: rest => some ('\r', rest)
  | '\\' :: 't' :: rest => some ('\t', rest)
  | '\\' :: 'x' :: a :: b :: rest => (hexCode '0' '0' a b).map fun code => (Char.ofNat code, rest)
  | '\\' :: 'u' :: a :: b :: c :: d :: rest => (hexCode a b c d).map fun code => (Char.ofNat code, rest)
  | '\\' :: 'U' :: a :: b :: c :: d :: e :: f :: g :: h :: rest => do
      let high ← hexCode a b c d
      let low ← hexCode e f g h
      return (Char.ofNat (high * 0x10000 + low), rest)
  | '\\' :: c :: rest => some (c, rest)
  | c :: rest => some (c, rest)
  | [] => none

omit [UnicodeTable] in
/-- A quote is one of two characters. -/
theorem quoteOf_cases (text : String) : quoteOf text = '"' ∨ quoteOf text = '\'' := by
  unfold quoteOf
  split
  · exact Or.inl rfl
  · exact Or.inr rfl

omit [UnicodeTable] in
theorem unescape_plain {c : Char} (h : c ≠ '\\') (rest : List Char) : unescape (c :: rest) = some (c, rest) := by
  rw [unescape]
  all_goals
    intros
    exact h ‹_›

theorem unescape_quoteEscape {quote : Char} (hquote : quote = '"' ∨ quote = '\'') (c : Char) (rest : List Char) :
    unescape (quoteEscape quote c ++ rest) = some (c, rest) := by
  unfold quoteEscape
  split
  · rename_i hspecial
    rcases hspecial with rfl | rfl
    · rfl
    · rcases hquote with rfl | rfl
      · rfl
      · rfl
  rename_i hspecial
  have hslash : c ≠ '\\' := fun h => hspecial (Or.inl h)
  split
  · subst_vars
    rfl
  split
  · subst_vars
    rfl
  split
  · subst_vars
    rfl
  split
  · exact unescape_plain hslash rest
  split
  · exact unescape_plain hslash rest
  split
  · have hcode : hexCode '0' '0' (Nat.digitChar (c.toNat / 16)) (Nat.digitChar (c.toNat % 16)) = some c.toNat := by
      have hfour := hexCode_hexFour (show c.toNat < 0x10000 by omega)
      rw [show c.toNat / 4096 = 0 by omega, show c.toNat / 256 % 16 = 0 by omega,
        show c.toNat / 16 % 16 = c.toNat / 16 by omega] at hfour
      exact hfour
    simp only [List.cons_append, List.nil_append, unescape, hcode, Option.map_some, Char.ofNat_toNat]
  split
  · simp only [unicodeEscape, hexFour, List.cons_append, List.nil_append, unescape, hexCode_hexFour ‹_›, Option.map_some,
      Char.ofNat_toNat]
  · have hbound : c.toNat < 0x110000 := by
      have hvalid := c.valid
      unfold UInt32.isValidChar Nat.isValidChar at hvalid
      change c.val.toNat < 0x110000
      omega
    have hcode : c.toNat / 0x10000 * 0x10000 + c.toNat % 0x10000 = c.toNat := by omega
    simp only [hexFour, List.cons_append, List.nil_append, unescape,
      hexCode_hexFour (show c.toNat / 0x10000 < 0x10000 by omega),
      hexCode_hexFour (show c.toNat % 0x10000 < 0x10000 by omega), bind, Option.bind, pure, hcode, Char.ofNat_toNat]

/-- An escaped character does not begin with the quote. -/
theorem quoteEscape_head {quote : Char} (hquote : quote = '"' ∨ quote = '\'') (c : Char) :
    ∃ first rest, quoteEscape quote c = first :: rest ∧ first ≠ quote := by
  have hslash : '\\' ≠ quote := by
    rcases hquote with rfl | rfl <;> decide
  unfold quoteEscape
  split
  · exact ⟨_, _, rfl, hslash⟩
  rename_i hspecial
  have hplain : c ≠ quote := fun h => hspecial (Or.inr h)
  split
  · exact ⟨_, _, rfl, hslash⟩
  split
  · exact ⟨_, _, rfl, hslash⟩
  split
  · exact ⟨_, _, rfl, hslash⟩
  split
  · exact ⟨_, _, rfl, hplain⟩
  split
  · exact ⟨_, _, rfl, hplain⟩
  split
  · exact ⟨_, _, rfl, hslash⟩
  split
  · exact ⟨_, _, rfl, hslash⟩
  · exact ⟨_, _, rfl, hslash⟩

/-- A quoted content is delimited by its quote. -/
theorem escaped_append_inj {quote : Char} (hquote : quote = '"' ∨ quote = '\'') {a b u v : List Char}
    (h : a.flatMap (quoteEscape quote) ++ quote :: u = b.flatMap (quoteEscape quote) ++ quote :: v) : a = b ∧ u = v := by
  induction a generalizing b with
  | nil =>
      cases b with
      | nil => exact ⟨rfl, (List.cons.inj h).2⟩
      | cons d b =>
          obtain ⟨first, rest, hform, hfirst⟩ := quoteEscape_head hquote d
          rw [List.flatMap_cons, hform] at h
          exact absurd (List.cons.inj h).1.symm hfirst
  | cons c a ih =>
      cases b with
      | nil =>
          obtain ⟨first, rest, hform, hfirst⟩ := quoteEscape_head hquote c
          rw [List.flatMap_cons, hform] at h
          exact absurd (List.cons.inj h).1 hfirst
      | cons d b =>
          rw [List.flatMap_cons, List.flatMap_cons, List.append_assoc, List.append_assoc] at h
          have hread := congrArg unescape h
          rw [unescape_quoteEscape hquote, unescape_quoteEscape hquote] at hread
          obtain ⟨rfl, htail⟩ := Prod.mk.inj (Option.some.inj hread)
          obtain ⟨rfl, hrest⟩ := ih htail
          exact ⟨rfl, hrest⟩

/-- A quoted text is read off what it begins. -/
theorem quoted_append_inj {a b : String} {u v : List Char} (h : quoted a ++ u = quoted b ++ v) : a = b ∧ u = v := by
  unfold quoted at h
  simp only [List.cons_append, List.append_assoc, List.nil_append] at h
  obtain ⟨hquote, htail⟩ := List.cons.inj h
  rw [← hquote] at htail
  obtain ⟨htext, hrest⟩ := escaped_append_inj (quoteOf_cases a) htail
  exact ⟨String.toList_inj.mp htext, hrest⟩

end Quoting

/-! ## Values -/

section Values

variable [UnicodeTable]

mutual

/-- `repr` of a frozen value. -/
def reprFrozen : Json → String
  | .null => "None"
  | .bool value => if value then "True" else "False"
  | .int value => toString value
  | .str value => String.ofList (quoted value)
  | .arr [item] => "(" ++ reprFrozen item ++ ",)"
  | .arr items => "(" ++ String.intercalate ", " (reprFrozenItems items) ++ ")"
  | .obj entries => "mappingproxy(\x7b" ++ String.intercalate ", " (reprFrozenEntries entries) ++ "\x7d)"

def reprFrozenItems : List Json → List String
  | [] => []
  | item :: rest => reprFrozen item :: reprFrozenItems rest

def reprFrozenEntries : List (String × Json) → List String
  | [] => []
  | (key, item) :: rest => (String.ofList (quoted key) ++ ": " ++ reprFrozen item) :: reprFrozenEntries rest

end

/-- `str` of a frozen value. -/
def strFrozen : Json → String
  | .str value => value
  | value => reprFrozen value

end Values

/-- `bool` of a value. -/
def truthy : Json → Bool
  | .null => false
  | .bool value => value
  | .int value => value != 0
  | .str value => value != ""
  | .arr items => !items.isEmpty
  | .obj entries => !entries.isEmpty

end AgentArtifacts.Setup
