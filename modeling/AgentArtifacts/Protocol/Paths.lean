import AgentArtifacts.Library.Text
import AgentArtifacts.Protocol.Json

/-!
# Relative and absolute paths

The `posixpath` functions the planners call, and the safe relative path of the
protocol. A safe relative path is kept together with the text it was parsed
from, so its parts and its rendering never disagree.
-/

namespace AgentArtifacts

/-! ## Python string methods -/

/-- `str.isspace` for one character. -/
def isSpace (c : Char) : Bool :=
  let n := c.toNat
  (9 ≤ n && n ≤ 13) || (28 ≤ n && n ≤ 32) || n == 133 || n == 160 || n == 5760 ||
    (8192 ≤ n && n ≤ 8202) || n == 8232 || n == 8233 || n == 8239 || n == 8287 || n == 12288

theorem not_space_of_toNat {c : Char} (hlow : 45 ≤ c.toNat) (hhigh : c.toNat ≤ 122) : isSpace c = false := by
  unfold isSpace
  simp only [Bool.or_eq_false_iff, Bool.and_eq_false_imp, decide_eq_true_eq, decide_eq_false_iff_not,
    beq_eq_false_iff_ne]
  omega

theorem isUpper_eq (c : Char) : c.isUpper = decide (c.val ≥ 'A'.val ∧ c.val ≤ 'Z'.val) := rfl

theorem isLower_eq (c : Char) : c.isLower = (decide (c.val ≥ 'a'.val) && decide (c.val ≤ 'z'.val)) := rfl

theorem isAlpha_eq (c : Char) : c.isAlpha = (c.isUpper || c.isLower) := rfl

theorem not_space_of_alphanum {c : Char} (h : c.isAlphanum = true) : isSpace c = false := by
  simp only [Char.isAlphanum, isAlpha_eq, isUpper_eq, isLower_eq, Bool.or_eq_true, Bool.and_eq_true,
    decide_eq_true_eq] at h
  rcases h with (⟨hlow, hhigh⟩ | ⟨hlow, hhigh⟩) | hdigit
  · exact not_space_of_toNat (le_trans (by decide) hlow) (le_trans hhigh (by decide))
  · exact not_space_of_toNat (le_trans (by decide) hlow) hhigh
  · obtain ⟨hlow, hhigh⟩ : 48 ≤ c.toNat ∧ c.toNat ≤ 57 := Char.isDigit_iff_toNat.mp hdigit
    exact not_space_of_toNat (by omega) (by omega)

def pyStrip (text : String) : String := String.ofList (Text.strip isSpace text.toList)

def pyRstrip (c : Char) (text : String) : String :=
  String.ofList (Text.stripRight (· == c) text.toList)

def pyReplace (needle replacement text : String) : String :=
  String.ofList (Text.replaceAll needle.toList replacement.toList text.toList)

def pyIn (needle text : String) : Bool := Text.contains needle.toList text.toList

def startsWith (head text : String) : Bool := head.toList.isPrefixOf text.toList

def endsWith (tail text : String) : Bool := tail.toList.isSuffixOf text.toList

/-- `str.removeprefix`. -/
def removePrefix (head text : String) : String :=
  if startsWith head text then String.ofList (text.toList.drop head.toList.length) else text

/-- `str.removesuffix`. -/
def removeSuffix (tail text : String) : String :=
  if endsWith tail text then String.ofList (text.toList.take (text.toList.length - tail.toList.length)) else text

/-- `repr` of a text, up to the escapes of non-printable characters. -/
def pyRepr (text : String) : String :=
  let quote := if text.toList.contains '\'' && !text.toList.contains '"' then '"' else '\''
  let escape (c : Char) : List Char :=
    if c == '\\' then ['\\', '\\']
    else if c == '\n' then ['\\', 'n']
    else if c == '\r' then ['\\', 'r']
    else if c == '\t' then ['\\', 't']
    else if c == quote then ['\\', c]
    else [c]
  String.ofList (quote :: (text.toList.flatMap escape ++ [quote]))

/-- `str.split` on one character. -/
def splitChar (c : Char) (text : String) : List String :=
  (List.splitOn c text.toList).map String.ofList

/-! ## `posixpath` -/

def isAbs (path : String) : Bool := startsWith "/" path

/-- Three or more leading slashes collapse to one, two are kept. -/
def initialSlashes (path : String) : Nat :=
  if startsWith "///" path then 1
  else if startsWith "//" path then 2
  else if startsWith "/" path then 1
  else 0

/-- One component of the path appended to the components kept so far. -/
def normStep (absolute : Bool) (kept : List String) (component : String) : List String :=
  if component = "" ∨ component = "." then kept
  else if component ≠ ".." ∨ (absolute = false ∧ kept = []) ∨ kept.getLast? = some ".." then
    kept ++ [component]
  else kept.dropLast

def normPath (path : String) : String :=
  if path = "" then "."
  else
    let slashes := initialSlashes path
    let kept := (splitChar '/' path).foldl (normStep (slashes != 0)) []
    let normalized := String.ofList (List.replicate slashes '/') ++ slashJoin kept
    if normalized = "" then "." else normalized

def joinPath (base path : String) : String :=
  if isAbs path ∨ base = "" then path
  else if endsWith "/" base then base ++ path
  else base ++ "/" ++ path

/-- The part before the last slash, without the slashes that end it. -/
def dirName (path : String) : String :=
  let head := (path.toList.reverse.dropWhile (· != '/')).reverse
  if head.all (· == '/') then String.ofList head
  else String.ofList (Text.stripRight (· == '/') head)

/-- Components that take part in a common path. -/
def pathComponents (path : String) : List String :=
  (splitChar '/' path).filter fun component => component ≠ "" ∧ component ≠ "."

def commonComponents : List String → List String → List String
  | a :: as, b :: bs => if a = b then a :: commonComponents as bs else []
  | _, _ => []

/-- `none` stands for the error on mixing absolute and relative paths. -/
def commonPath (left right : String) : Option String :=
  if isAbs left = isAbs right then
    some ((if isAbs left then "/" else "") ++
      slashJoin (commonComponents (pathComponents left) (pathComponents right)))
  else none

/-- The normalized absolute paths that snapshots, locations and links record. -/
def isAbsolutePath (path : String) : Bool :=
  isAbs path && normPath path == path && path != "/" &&
    !path.toList.any (fun c => c == '\x00' || c == '\r' || c == '\n')

/-! ## Safe relative paths -/

variable [StandardLibrary]

def pathInvalid : DiagnosticCode := ⟨"protocol-path-invalid"⟩

def invalidPath {α : Type} (raw reason : String) : Result α :=
  error pathInvalid ("invalid relative path " ++ pyRepr raw ++ ": " ++ reason)

/-- A drive letter and a colon that end the path or are followed by a slash. -/
def hasWindowsDrive (raw : String) : Bool :=
  match raw.toList with
  | letter :: ':' :: [] => letter.isAlpha
  | letter :: ':' :: '/' :: _ => letter.isAlpha
  | _ => false

/-- Parts of a relative path; the empty list is not a path. -/
structure SafeRelativePath where
  parts : List String
deriving DecidableEq

def SafeRelativePath.str (path : SafeRelativePath) : String := slashJoin path.parts

def parseRelativePath (raw : String) : Result SafeRelativePath :=
  if raw = "" then invalidPath raw "path is empty"
  else if StandardLibrary.isNfc raw = false then
    invalidPath raw "path must use NFC Unicode normalization"
  else if isAbs raw ∨ hasWindowsDrive raw then invalidPath raw "absolute paths are forbidden"
  else if pyIn "\\" raw then invalidPath raw "backslash is not a protocol separator"
  else if raw.toList.any (fun c => c.toNat < 32 || c.toNat == 127) then
    invalidPath raw "control characters are forbidden"
  else
    let parts := splitChar '/' raw
    if parts.any (· == "") then invalidPath raw "empty path segments are forbidden"
    else if parts.any (fun part => part == "." || part == "..") then
      invalidPath raw "dot and parent segments are forbidden"
    else .ok ⟨parts⟩

def isSafeRelative (raw : String) : Bool := (parseRelativePath raw).toBool

example : normPath "/a//b/../c/./d" = "/a/c/d" := by decide

example : commonPath "/a/b" "/a/b/c" = some "/a/b" := by decide

end AgentArtifacts
