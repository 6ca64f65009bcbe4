import AgentArtifacts.Protocol.Paths

/-!
# The text of JSON

The writer and the reader of the standard library. A value is written compactly
with its keys sorted, or indented by two spaces with its keys as they are; the
reader takes a hook for integers and refuses floats, constants and repeated keys,
as the strict reader of the protocol asks it to. What is written is read back.
-/

namespace AgentArtifacts.JsonText

/-! ## Writing -/

def isSpace (c : Char) : Bool := c == ' ' || c == '\t' || c == '\n' || c == '\r'

/-- The white space around the parts of a container: at each level before an item, and
after the colon of an entry. -/
structure Layout where
  gap : Nat → List Char
  colon : List Char
  gapSpace : ∀ level, ∀ c ∈ gap level, isSpace c = true
  colonSpace : ∀ c ∈ colon, isSpace c = true

def compact : Layout where
  gap _ := []
  colon := []
  gapSpace := by simp
  colonSpace := by simp

def indented : Layout where
  gap level := '\n' :: List.replicate (2 * level) ' '
  colon := [' ']
  gapSpace := by
    intro level c hc
    rcases List.mem_cons.mp hc with rfl | hc
    · rfl
    · rw [List.eq_of_mem_replicate hc]
      rfl
  colonSpace := by simp [isSpace]

/-- Quotes, backslashes and control characters are escaped, and no other character. -/
def escapeChar (c : Char) : List Char :=
  if c = '"' then ['\\', '"']
  else if c = '\\' then ['\\', '\\']
  else if c = '\n' then ['\\', 'n']
  else if c = '\r' then ['\\', 'r']
  else if c = '\t' then ['\\', 't']
  else if c = '\x0c' then ['\\', 'f']
  else if c = '\x08' then ['\\', 'b']
  else if c.toNat < 32 then ['\\', 'u', '0', '0', Nat.digitChar (c.toNat / 16), Nat.digitChar (c.toNat % 16)]
  else [c]

def printText (text : String) : List Char := '"' :: (text.toList.flatMap escapeChar ++ ['"'])

def printInt (value : Int) : List Char :=
  if value < 0 then '-' :: Nat.toDigits 10 value.natAbs else Nat.toDigits 10 value.natAbs

mutual

def print (layout : Layout) (level : Nat) : Json → List Char
  | .null => ['n', 'u', 'l', 'l']
  | .bool true => ['t', 'r', 'u', 'e']
  | .bool false => ['f', 'a', 'l', 's', 'e']
  | .int value => printInt value
  | .str value => printText value
  | .arr [] => ['[', ']']
  | .arr (item :: rest) =>
      '[' :: (layout.gap (level + 1) ++ print layout (level + 1) item ++ printItems layout (level + 1) rest ++
        layout.gap level ++ [']'])
  | .obj [] => ['{', '}']
  | .obj ((key, item) :: rest) =>
      '{' :: (layout.gap (level + 1) ++ printText key ++ ':' :: (layout.colon ++ print layout (level + 1) item) ++
        printEntries layout (level + 1) rest ++ layout.gap level ++ ['}'])

/-- The items after the first one. -/
def printItems (layout : Layout) (level : Nat) : List Json → List Char
  | [] => []
  | item :: rest => ',' :: (layout.gap level ++ print layout level item ++ printItems layout level rest)

/-- The entries after the first one. -/
def printEntries (layout : Layout) (level : Nat) : List (String × Json) → List Char
  | [] => []
  | (key, item) :: rest =>
      ',' :: (layout.gap level ++ printText key ++ ':' :: (layout.colon ++ print layout level item) ++
        printEntries layout level rest)

end

mutual

/-- `sort_keys`: the entries of every object in the order of their keys. -/
def sortKeys : Json → Json
  | .arr items => .arr (sortKeysItems items)
  | .obj entries => .obj (sortEntries (sortKeysEntries entries))
  | value => value

def sortKeysItems : List Json → List Json
  | [] => []
  | item :: rest => sortKeys item :: sortKeysItems rest

def sortKeysEntries : List (String × Json) → List (String × Json)
  | [] => []
  | (key, item) :: rest => (key, sortKeys item) :: sortKeysEntries rest

end

def dumpsCanonical (value : Json) : String := String.ofList (print compact 0 (sortKeys value))

def dumpsIndent (value : Json) : String := String.ofList (print indented 0 value)

/-! ## Reading -/

def jsonInvalid : DiagnosticCode := ⟨"protocol-json-invalid"⟩

def jsonDuplicateKey : DiagnosticCode := ⟨"protocol-json-duplicate-key"⟩

def jsonFloat : DiagnosticCode := ⟨"protocol-json-float"⟩

def jsonIntegerRange : DiagnosticCode := ⟨"protocol-json-integer-range"⟩

def invalidJson {α : Type} (message : String) : Result α := error jsonInvalid ("invalid JSON: " ++ message)

def rejectConstant {α : Type} (raw : String) : Result α :=
  error jsonInvalid ("non-standard JSON constant is forbidden: " ++ raw)

def integerRange {α : Type} : Result α := error jsonIntegerRange "JSON integer is outside signed 64-bit range"

/-- At most nineteen digits, and a value in the signed 64-bit range. -/
def boundedInteger (digits : List Char) (value : Int) : Result Int :=
  if digits.length > 19 then integerRange
  else if -2 ^ 63 ≤ value ∧ value ≤ 2 ^ 63 - 1 then .ok value
  else integerRange

/-- The integer hook of the strict reader. -/
def parseInteger : List Char → Result Int
  | '-' :: digits => boundedInteger digits (-(Nat.ofDigitChars 10 digits 0 : Int))
  | digits => boundedInteger digits (Nat.ofDigitChars 10 digits 0 : Int)

def skipSpace (text : List Char) : List Char := text.dropWhile isSpace

def hexValue (c : Char) : Option Nat :=
  if c.isDigit then some (c.toNat - 48)
  else if 'a' ≤ c ∧ c ≤ 'f' then some (c.toNat - 87)
  else if 'A' ≤ c ∧ c ≤ 'F' then some (c.toNat - 55)
  else none

def hexCode (a b c d : Char) : Option Nat := do
  let a ← hexValue a
  let b ← hexValue b
  let c ← hexValue c
  let d ← hexValue d
  return ((a * 16 + b) * 16 + c) * 16 + d

def simpleEscape : Char → Option Char
  | '"' => some '"'
  | '\\' => some '\\'
  | '/' => some '/'
  | 'b' => some '\x08'
  | 'f' => some '\x0c'
  | 'n' => some '\n'
  | 'r' => some '\r'
  | 't' => some '\t'
  | _ => none

def isHighSurrogate (code : Nat) : Bool := 0xD800 ≤ code && code ≤ 0xDBFF

def isLowSurrogate (code : Nat) : Bool := 0xDC00 ≤ code && code ≤ 0xDFFF

/-- A lone surrogate is refused where it stands; the source reads on and refuses the value. -/
def loneSurrogate {α : Type} : Result α := error jsonUnicode "JSON contains an unpaired Unicode surrogate"

/-- The rest of a string after its opening quote. -/
def readText : List Char → Result (List Char × List Char)
  | [] => invalidJson "Unterminated string starting at"
  | '"' :: rest => .ok ([], rest)
  | '\\' :: 'u' :: a :: b :: c :: d :: rest =>
      match hexCode a b c d with
      | none => invalidJson "Invalid \\uXXXX escape"
      | some code =>
          if isHighSurrogate code then
            match rest with
            | '\\' :: 'u' :: e :: f :: g :: h :: rest =>
                match hexCode e f g h with
                | some low =>
                    if isLowSurrogate low then do
                      let (text, rest) ← readText rest
                      return (Char.ofNat (0x10000 + (code - 0xD800) * 0x400 + (low - 0xDC00)) :: text, rest)
                    else loneSurrogate
                | none => loneSurrogate
            | _ => loneSurrogate
          else if isLowSurrogate code then loneSurrogate
          else do
            let (text, rest) ← readText rest
            return (Char.ofNat code :: text, rest)
  | '\\' :: 'u' :: _ => invalidJson "Invalid \\uXXXX escape"
  | '\\' :: c :: rest =>
      match simpleEscape c with
      | some escaped => do
          let (text, rest) ← readText rest
          return (escaped :: text, rest)
      | none => invalidJson "Invalid \\escape: "
  | c :: rest =>
      if c.toNat < 32 then invalidJson "Invalid control character at"
      else do
        let (text, rest) ← readText rest
        return (c :: text, rest)

/-- The fraction and the exponent after the integer part of a number. -/
def readFraction (text : List Char) : List Char :=
  let fraction := match text with
    | '.' :: rest => match rest.takeWhile Char.isDigit with
        | [] => []
        | digits => '.' :: digits
    | _ => []
  let after := text.drop fraction.length
  let exponent := match after with
    | mark :: rest =>
        if mark = 'e' ∨ mark = 'E' then
          match rest with
          | sign :: rest =>
              if sign = '+' ∨ sign = '-' then
                match rest.takeWhile Char.isDigit with
                | [] => []
                | digits => mark :: sign :: digits
              else match (sign :: rest).takeWhile Char.isDigit with
                | [] => []
                | digits => mark :: digits
          | [] => []
        else []
    | [] => []
  fraction ++ exponent

variable (parseInt : List Char → Result Int)

/-- After the integer part of a number. -/
def finishNumber (raw rest : List Char) : Result (Json × List Char) :=
  match readFraction rest with
  | [] => do
      let value ← parseInt raw
      return (.int value, rest)
  | fraction => error jsonFloat ("floating-point JSON number is forbidden: " ++ String.ofList (raw ++ fraction))

def readNumber (sign : List Char) : List Char → Result (Json × List Char)
  | '0' :: rest => finishNumber parseInt (sign ++ ['0']) rest
  | c :: rest =>
      if c.isDigit then
        finishNumber parseInt (sign ++ c :: rest.takeWhile Char.isDigit) (rest.dropWhile Char.isDigit)
      else invalidJson "Expecting value"
  | [] => invalidJson "Expecting value"

/-- The first entry whose key an earlier entry has. -/
def repeatedKey? : List String → List (String × Json) → Option String
  | _, [] => none
  | seen, (key, _) :: rest => if key ∈ seen then some key else repeatedKey? (key :: seen) rest

def objectPairs (entries : List (String × Json)) : Result Json :=
  match repeatedKey? [] entries with
  | some key => error jsonDuplicateKey ("duplicate JSON object key: " ++ pyRepr key)
  | none => .ok (.obj entries)

mutual

/-- One value; every call takes a character of the text, so fuel of its length is enough. -/
def readValue : Nat → List Char → Result (Json × List Char)
  | 0, _ => depthExceeded
  | fuel + 1, text =>
      match text with
      | '"' :: rest => do
          let (value, rest) ← readText rest
          return (.str (String.ofList value), rest)
      | '{' :: rest =>
          match skipSpace rest with
          | '}' :: rest => .ok (.obj [], rest)
          | '"' :: rest => do
              let (entries, rest) ← readEntries fuel rest
              let value ← objectPairs entries
              return (value, rest)
          | _ => invalidJson "Expecting property name enclosed in double quotes"
      | '[' :: rest =>
          match skipSpace rest with
          | ']' :: rest => .ok (.arr [], rest)
          | rest => do
              let (items, rest) ← readItems fuel rest
              return (.arr items, rest)
      | 'n' :: 'u' :: 'l' :: 'l' :: rest => .ok (.null, rest)
      | 't' :: 'r' :: 'u' :: 'e' :: rest => .ok (.bool true, rest)
      | 'f' :: 'a' :: 'l' :: 's' :: 'e' :: rest => .ok (.bool false, rest)
      | 'N' :: 'a' :: 'N' :: _ => rejectConstant "NaN"
      | 'I' :: 'n' :: 'f' :: 'i' :: 'n' :: 'i' :: 't' :: 'y' :: _ => rejectConstant "Infinity"
      | '-' :: 'I' :: 'n' :: 'f' :: 'i' :: 'n' :: 'i' :: 't' :: 'y' :: _ => rejectConstant "-Infinity"
      | '-' :: rest => readNumber parseInt ['-'] rest
      | text => readNumber parseInt [] text

/-- The items of an array after its bracket. -/
def readItems : Nat → List Char → Result (List Json × List Char)
  | 0, _ => depthExceeded
  | fuel + 1, text => do
      let (item, rest) ← readValue fuel text
      match skipSpace rest with
      | ',' :: rest => do
          let (items, rest) ← readItems fuel (skipSpace rest)
          return (item :: items, rest)
      | ']' :: rest => return ([item], rest)
      | _ => invalidJson "Expecting ',' delimiter"

/-- The entries of an object after the quote that opens its first key. -/
def readEntries : Nat → List Char → Result (List (String × Json) × List Char)
  | 0, _ => depthExceeded
  | fuel + 1, text => do
      let (key, rest) ← readText text
      match skipSpace rest with
      | ':' :: rest => do
          let (item, rest) ← readValue fuel (skipSpace rest)
          match skipSpace rest with
          | ',' :: rest =>
              match skipSpace rest with
              | '"' :: rest => do
                  let (entries, rest) ← readEntries fuel rest
                  return ((String.ofList key, item) :: entries, rest)
              | _ => invalidJson "Expecting property name enclosed in double quotes"
          | '}' :: rest => return ([(String.ofList key, item)], rest)
          | _ => invalidJson "Expecting ',' delimiter"
      | _ => invalidJson "Expecting ':' delimiter"

end

def readDocument (text : List Char) : Result Json := do
  let start := skipSpace text
  let (value, rest) ← readValue parseInt (start.length + 1) start
  if skipSpace rest = [] then .ok value else invalidJson "Extra data"

/-- `json.loads` with the hooks of the strict reader. -/
def loads (text : String) : Result Json :=
  match text.toList with
  | '\ufeff' :: _ => invalidJson "Unexpected UTF-8 BOM (decode using utf-8-sig)"
  | chars => readDocument parseInteger chars

end AgentArtifacts.JsonText
