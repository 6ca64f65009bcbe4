import AgentArtifacts.Redaction.Rules

/-!
# Patterns of the baseline

The regular expressions of the baseline rules, written as trees, and where their matches end. The
ends are listed in the order in which `re` tries them, so the first one is the match.
-/

namespace AgentArtifacts.Security

/-! ## Matching -/

inductive Pattern where
  | empty
  | letter (admits : Char → Bool)
  /-- `^`. -/
  | first
  /-- `$`, which also stands before a last newline. -/
  | last
  /-- `\b`. -/
  | boundary (word : Char → Bool)
  | follow (a b : Pattern)
  | either (a b : Pattern)
  | repeated (least : Nat) (most : Option Nat) (body : Pattern)

/-- A place in a text: the letter before it, if there is one, and what comes behind. -/
structure Place where
  before : Option Char
  rest : List Char

/-- Exactly so many times. -/
def times (step : Place → List Place) : Nat → Place → List Place
  | 0, place => [place]
  | count + 1, place => (step place).flatMap (times step count)

/-- At most so many times, more of them first. -/
def upTo (step : Place → List Place) : Nat → Place → List Place
  | 0, place => [place]
  | count + 1, place => (step place).flatMap (upTo step count) ++ [place]

/-- Where a match ends that begins at a place. No body of a repetition matches the empty text, so
one without a bound is repeated at most once for each letter that is left. -/
def Pattern.ends : Pattern → Place → List Place
  | .empty, place => [place]
  | .letter admits, place =>
      match place.rest with
      | [] => []
      | c :: rest => if admits c then [⟨some c, rest⟩] else []
  | .first, place => if place.before.isNone then [place] else []
  | .last, place => if place.rest == [] || place.rest == ['\n'] then [place] else []
  | .boundary word, place => if place.before.any word != place.rest.head?.any word then [place] else []
  | .follow a b, place => (a.ends place).flatMap fun middle => b.ends middle
  | .either a b, place => a.ends place ++ b.ends place
  | .repeated least most body, place =>
      (times (fun middle => body.ends middle) least place).flatMap fun middle =>
        upTo (fun behind => body.ends behind) ((most.map (· - least)).getD middle.rest.length) middle

def Pattern.searchFrom (pattern : Pattern) : Option Char → List Char → Bool
  | before, [] => !(pattern.ends ⟨before, []⟩).isEmpty
  | before, c :: rest => !(pattern.ends ⟨before, c :: rest⟩).isEmpty || pattern.searchFrom (some c) rest

/-- `re.search`. -/
def Pattern.search (pattern : Pattern) (text : String) : Bool := pattern.searchFrom none text.toList

/-- The first match of a pattern in two parts: where the second part begins and where it ends. -/
def splitMatch (lead value : Pattern) (place : Place) : Option (Place × Place) :=
  ((lead.ends place).flatMap fun middle => (value.ends middle).map fun stop => (middle, stop)).head?

def between (middle stop : Place) : String :=
  String.ofList (middle.rest.take (middle.rest.length - stop.rest.length))

/-- The second parts of the matches that `re.finditer` finds; the first part is never empty. -/
def secondParts (lead value : Pattern) : Nat → Place → List String
  | 0, _ => []
  | count + 1, place =>
      match splitMatch lead value place with
      | some (middle, stop) => between middle stop :: secondParts lead value count stop
      | none =>
          match place.rest with
          | [] => []
          | c :: rest => secondParts lead value count ⟨some c, rest⟩

/-! ## Building -/

def Pattern.all (parts : List Pattern) : Pattern := parts.foldr .follow .empty

/-- One of the alternatives; there is at least one. -/
def Pattern.any : List Pattern → Pattern
  | [] => .empty
  | [only] => only
  | pattern :: more => .either pattern (.any more)

def Pattern.optional (pattern : Pattern) : Pattern := .repeated 0 (some 1) pattern

def literal (text : String) : Pattern := .all (text.toList.map fun c => .letter (· == c))

/-- The same under `re.IGNORECASE`, written in lower case. -/
def folded (text : String) : Pattern := .all (text.toList.map fun c => .letter fun other => Redactor.foldCase other == c)

def oneOf (letters : String) : Pattern := .letter fun c => letters.toList.contains c

/-- `\s*` and `\s+`. -/
def spaces (least : Nat) : Pattern := .repeated least none (.letter isSpace)

/-! ## Credentials -/

/-- `AKIA[0-9A-Z]{16}|gh[pousr]_[A-Za-z0-9]{20,}|xox[baprs]-[A-Za-z0-9-]{16,}`. -/
def secretPrefix : Pattern :=
  .any [
    .all [literal "AKIA", .repeated 16 (some 16) (.letter fun c => c.isDigit || c.isUpper)],
    .all [literal "gh", oneOf "pousr", literal "_", .repeated 20 none (.letter Char.isAlphanum)],
    .all [literal "xox", oneOf "baprs", literal "-", .repeated 16 none (.letter fun c => c.isAlphanum || c == '-')]]

/-- `(?i)(?:token|password|passwd|secret|api[_-]?key)`. -/
def sensitiveName : Pattern :=
  .any [folded "token", folded "password", folded "passwd", folded "secret",
    .all [folded "api", .optional (oneOf "_-"), folded "key"]]

def quote : Pattern := .optional (oneOf "\x22\x27")

/-- What stands before the value of an assignment. -/
def assignmentLead : Pattern := .all [quote, sensitiveName, quote, spaces 0, oneOf ":=", spaces 0, quote]

/-- `[^\s,;\"']{8,}`. -/
def assignmentValue : Pattern :=
  .repeated 8 none (.letter fun c => !isSpace c && !",;\x22\x27".toList.contains c)

def assignedSecrets (text : String) : List String :=
  secondParts assignmentLead assignmentValue (text.length + 1) ⟨none, text.toList⟩

/-! ## Shell -/

section Shell

variable (word : Char → Bool)

/-- `(?i)\b(?:curl|wget)\b[^|\n]{0,2048}\|\s*(?:/usr/bin/env\s+)?(?:sh|bash|zsh)\b`. -/
def pipeToInterpreter : Pattern :=
  .all [.boundary word, .any [folded "curl", folded "wget"], .boundary word,
    .repeated 0 (some 2048) (.letter fun c => c != '|' && c != '\n'), literal "|", spaces 0,
    .optional (.all [folded "/usr/bin/env", spaces 1]), .any [folded "sh", folded "bash", folded "zsh"],
    .boundary word]

/-- `(?:^|[;&|]\s*|\s)`. -/
def commandStart : Pattern := .any [.first, .all [oneOf ";&|", spaces 0], .letter isSpace]

/-- `(?:\s|$)`. -/
def commandEnd : Pattern := .either (.letter isSpace) .last

def privilegeEscalation : Pattern := .all [commandStart, folded "sudo", commandEnd]

/-- `(?i)\brm\s+(?:-[A-Za-z]*r[A-Za-z]*f|-rf|-fr)\s+(?:/|~|\$HOME|\$\{HOME\})(?:\s|$)`. -/
def destructiveBroadPath : Pattern :=
  let letters : Pattern := .repeated 0 none (.letter Redactor.isLetter)
  .all [.boundary word, folded "rm", spaces 1,
    .any [.all [literal "-", letters, folded "r", letters, folded "f"], folded "-rf", folded "-fr"], spaces 1,
    .any [literal "/", literal "~", folded "$home", folded "$\x7bhome\x7d"], commandEnd]

def dynamicEvaluation : Pattern := .all [commandStart, literal "eval", commandEnd]

/-- `\b(?:pip|pip3|python\s+-m\s+pip)\s+install\s+`. -/
def packageInstall : Pattern :=
  .all [.boundary word, .any [literal "pip", literal "pip3", .all [literal "python", spaces 1, literal "-m", spaces 1, literal "pip"]],
    spaces 1, literal "install", spaces 1]

def pinnedInstall : Pattern := .any [literal "==", literal "@sha256:", literal "--require-hashes"]

end Shell

/-- `^\s*RUN\s+`, in front of the command. -/
def runLead : Pattern := .all [.first, spaces 0, folded "run", spaces 1]

/-- `(.*)$`. -/
def runCommand : Pattern := .all [.repeated 0 none (.letter (· != '\n')), .last]

/-- The command that a line of a build file runs. -/
def runInstruction (line : String) : Option String :=
  (splitMatch runLead runCommand ⟨none, line.toList⟩).map fun found => between found.1 found.2

example : (pipeToInterpreter Char.isAlphanum).search "curl -s u | BASH" = true := by decide +kernel

example : assignedSecrets "token = \x22abcdefgh\x22, x" = ["abcdefgh"] := by decide +kernel

example : runInstruction "  run  pip install x" = some "pip install x" := by decide +kernel

/-! ## Lines -/

/-- What `str.splitlines` breaks lines at. -/
def isLineBreak (c : Char) : Bool :=
  ['\n', '\r', '\x0b', '\x0c', '\x1c', '\x1d', '\x1e', '\u0085', '\u2028', '\u2029'].contains c

/-- A letter of the first line. -/
def atFront (c : Char) : List (List Char) → List (List Char)
  | [] => [[c]]
  | line :: more => (c :: line) :: more

def lineLists : List Char → List (List Char)
  | [] => []
  | '\r' :: '\n' :: rest => [] :: lineLists rest
  | c :: rest => if isLineBreak c then [] :: lineLists rest else atFront c (lineLists rest)

def pySplitlines (text : String) : List String := (lineLists text.toList).map String.ofList

theorem length_lineLists (text : List Char) : (lineLists text).length ≤ text.length := by
  induction text using lineLists.induct with
  | case1 => exact Nat.le_refl 0
  | case2 rest ih =>
      simp only [lineLists, List.length_cons]
      omega
  | case3 c rest hpair hbreak ih =>
      rw [lineLists, if_pos hbreak]
      · simp only [List.length_cons]
        omega
      · exact hpair
  | case4 c rest hpair hbreak ih =>
      rw [lineLists, if_neg hbreak]
      · cases hlines : lineLists rest with
        | nil => simp [atFront]
        | cons line more =>
            rw [hlines] at ih
            simp only [atFront, List.length_cons] at ih ⊢
            omega
      · exact hpair

theorem length_pySplitlines (text : String) : (pySplitlines text).length ≤ text.length := by
  rw [pySplitlines, List.length_map, ← String.length_toList]
  exact length_lineLists text.toList

end AgentArtifacts.Security
