import AgentArtifacts.Library.MarkedValues
import AgentArtifacts.Protocol.Paths
import AgentArtifacts.Redaction

/-!
# The rules of the redactor

The five substitutions of `redact_text`, each given by what its pattern matches at the head of a
text: how much of the match is kept and how much is replaced by the mark.
-/

namespace AgentArtifacts.Redactor

open Substitution

/-! ## Letters -/

/-- The letter that a pattern with `re.IGNORECASE` sees. Four letters beyond ASCII have a case there. -/
def foldCase (c : Char) : Char :=
  if c = '\u0130' ∨ c = '\u0131' then 'i'
  else if c = '\u017f' then 's'
  else if c = '\u212a' then 'k'
  else c.toLower

def isLetter (c : Char) : Bool := (foldCase c).isLower

/-- `[a-z0-9+.-]`. -/
def isSchemeChar (c : Char) : Bool :=
  isLetter c || c.isDigit || c == '+' || c == '.' || c == '-'

/-- `[A-Za-z0-9_.-]`. -/
def isNameChar (c : Char) : Bool :=
  isLetter c || c.isDigit || c == '_' || c == '.' || c == '-'

/-- `[^/@\s]`. -/
def isUserInfoChar (c : Char) : Bool := c != '/' && c != '@' && !isSpace c

/-- `[^&#\s]`. -/
def isQueryChar (c : Char) : Bool := c != '&' && c != '#' && !isSpace c

/-- `[^\s,;&#]`. -/
def isAssignedChar (c : Char) : Bool := !isSpace c && c != ',' && c != ';' && c != '&' && c != '#'

/-! ## Credentials in a URL -/

/-- The scheme with its `://`. -/
def urlPrefix : List Char → Option Nat
  | [] => none
  | c :: rest =>
      let run := rest.takeWhile isSchemeChar
      if isLetter c && "://".toList.isPrefixOf (rest.drop run.length) then some (run.length + 4) else none

def urlRule : ValueRule Char where
  lead := urlPrefix
  value := isUserInfoChar
  closes rest := rest.head? == some '@'

/-- The `@` is part of the match. -/
def urlCredentials : Finder Char := fun text =>
  (urlRule.finder text).map fun found => (found.1, found.2 + 1)

/-! ## Credentials in a query -/

def queryNames : List String := ["token", "access_token", "api_key", "key", "secret", "password"]

def queryPrefix : List Char → Option Nat
  | [] => none
  | c :: rest =>
      if c == '?' || c == '&' then
        queryNames.findSome? fun name =>
          if (rest.take name.length).map foldCase = name.toList ∧ (rest.drop name.length).head? = some '=' then
            some (name.length + 2)
          else none
      else none

def queryRule : ValueRule Char where
  lead := queryPrefix
  value := isQueryChar
  closes _ := true

/-! ## Assignments -/

def sensitiveWords : List String :=
  ["token", "password", "passwd", "secret", "apikey", "api_key", "api-key", "credential", "auth"]

def isSensitive (name : List Char) : Bool :=
  sensitiveWords.any fun word => Text.contains word.toList (name.map foldCase)

/-- A name that contains a sensitive word, and the sign after it. -/
def assignmentPrefix (text : List Char) : Option Nat :=
  let name := text.takeWhile isNameChar
  let gap := (text.dropWhile isNameChar).takeWhile isSpace
  match (text.dropWhile isNameChar).dropWhile isSpace with
  | [] => none
  | c :: rest =>
      if isSensitive name && (c == ':' || c == '=') then
        some (name.length + gap.length + 1 + (rest.takeWhile isSpace).length)
      else none

def assignmentRule : ValueRule Char where
  lead := assignmentPrefix
  value := isAssignedChar
  closes _ := true

/-! ## Shapes of credentials -/

/-- The letters admitted at each place of the beginning, and the run behind it. -/
structure CredentialShape where
  lead : List String
  body : Char → Bool
  least : Nat
  /-- Whether the run is matched to its end. -/
  greedy : Bool

def leads : List String → List Char → Bool
  | [], _ => true
  | _ :: _, [] => false
  | letters :: more, c :: rest => letters.toList.contains c && leads more rest

def CredentialShape.matched? (shape : CredentialShape) (text : List Char) : Option Nat :=
  let run := (text.drop shape.lead.length).takeWhile shape.body
  if leads shape.lead text && decide (shape.least ≤ run.length) then
    some (shape.lead.length + if shape.greedy then run.length else shape.least)
  else none

def credentialShapes : List CredentialShape :=
  [⟨["g", "h", "pousr", "_"], Char.isAlphanum, 16, true⟩,
   ⟨["g", "i", "t", "h", "u", "b", "_", "p", "a", "t", "_"], fun c => c.isAlphanum || c == '_', 20, true⟩,
   ⟨["x", "o", "x", "bpsar", "-"], fun c => c.isAlphanum || c == '-', 10, true⟩,
   ⟨["A", "K", "I", "A"], fun c => c.isDigit || c.isUpper, 16, false⟩,
   ⟨["s", "k", "-"], Char.isAlphanum, 20, true⟩]

def credentialShape : Finder Char := fun text =>
  (credentialShapes.findSome? fun shape => shape.matched? text).map fun length => (0, length)

/-! ## Private keys -/

/-- `-----WORD(?: [A-Z]+)? PRIVATE KEY-----`. -/
def keyLine (word : String) (text : List Char) : Option Nat :=
  let opening := ("-----" ++ word).toList
  let closing := " PRIVATE KEY-----".toList
  let rest := text.drop opening.length
  let kind := (rest.drop 1).takeWhile Char.isUpper
  if opening.isPrefixOf text then
    if rest.head? == some ' ' && !kind.isEmpty && closing.isPrefixOf (rest.drop (kind.length + 1)) then
      some (opening.length + (kind.length + 1) + closing.length)
    else if closing.isPrefixOf rest then some (opening.length + closing.length)
    else none
  else none

/-- How far the next end line reaches. -/
def keyEnd : List Char → Option Nat
  | [] => none
  | c :: rest =>
      match keyLine "END" (c :: rest) with
      | some length => some length
      | none => (keyEnd rest).map (· + 1)

def privateKey : Finder Char := fun text =>
  match keyLine "BEGIN" text with
  | none => none
  | some length => (keyEnd (text.drop length)).map fun behind => (0, length + behind)

/-! ## The redactor -/

def hidePrivateKeys (text : List Char) : List Char := sub privateKey "[redacted private key]".toList text

def hideUrlCredentials (text : List Char) : List Char := sub urlCredentials "[redacted]@".toList text

def hideQuerySecrets (text : List Char) : List Char := sub queryRule.finder "[redacted]".toList text

def hideAssignmentSecrets (text : List Char) : List Char := sub assignmentRule.finder "[redacted]".toList text

def hideCredentialShapes (text : List Char) : List Char := sub credentialShape "[redacted]".toList text

def redactText (text : String) : String :=
  let redacted := hidePrivateKeys text.toList
  let redacted := hideUrlCredentials redacted
  let redacted := hideQuerySecrets redacted
  let redacted := hideAssignmentSecrets redacted
  String.ofList (hideCredentialShapes redacted)

def containsCredentialShape (text : String) : Bool :=
  search credentialShape text.toList || search privateKey text.toList

end AgentArtifacts.Redactor
