import AgentArtifacts.InstallState.Manifest
import AgentArtifacts.Registry.Model

/-!
# Readers of protocol documents

The fields that the native and the registry documents share. Both schema modules of
the source have their own copies of these readers, with their own diagnostic codes;
here they are the same readers with the code as a parameter.
-/

namespace AgentArtifacts.Schema

open Manifest (schemaMissingField schemaUnknownField requiredField optionalField choiceOf slugOf parseSha256)
open Registry (Capability sortedBy sortedSet ArtifactSelector)

/-! ## Checks -/

/-- A check that ends the reading. -/
def refuse (condition : Bool) (code : DiagnosticCode) (message : String) : Result Unit :=
  if condition then error code message else .ok ()

/-- A failure that is reported in other words. -/
def insteadOf {α : Type} (result : Result α) (code : DiagnosticCode) (message : String) : Result α :=
  match result with
  | .ok value => .ok value
  | .error _ => error code message

/-! ## Names of fields -/

def schemaExtensionKey : DiagnosticCode := ⟨"protocol-schema-extension-key"⟩

def isExtensionPart : List Char → Bool
  | [] => false
  | first :: rest => isLowerLetter first && rest.all fun c => isLowerAlphanumeric c || c == '-'

/-- Two or more parts joined by dots. -/
def isNamespacedExtension (key : String) : Bool :=
  let parts := splitChar '.' key
  2 ≤ parts.length && parts.all fun part => isExtensionPart part.toList

def looksLikeExtension (field : String) : Bool :=
  field.toList.contains '.' ||
    field.toList.any fun c => !(c.toNat < 128 && (c.isAlphanum || c == '_' || c == '-'))

def unknownField (extensions : Bool) (field : String) : Diagnostic :=
  if extensions && looksLikeExtension field then
    ⟨schemaExtensionKey, "invalid namespaced extension field " ++ pyRepr field⟩
  else ⟨schemaUnknownField, "unknown field " ++ pyRepr field⟩

/-- `validate_object_fields`. -/
def validateObjectFields (extensions : Bool) (required optional : List String) (entries : Dict) : Result Dict :=
  let names := entries.map Prod.fst
  let missing := (required.insertionSort (· ≤ ·)).filter (· ∉ names)
  let unknown := (names.insertionSort (· ≤ ·)).filter fun name =>
    decide (name ∉ required ++ optional) && !(extensions && isNamespacedExtension name)
  match missing.map (fun name => (⟨schemaMissingField, "missing required field " ++ pyRepr name⟩ : Diagnostic)) ++
      unknown.map (unknownField extensions) with
  | [] => .ok entries
  | diagnostics => .error diagnostics

/-- The members that no field of the document is known for. -/
def extensionsOf (known : List String) (entries : Dict) : Dict := entries.filter fun entry => entry.1 ∉ known

def asObject (code : DiagnosticCode) (label : String) : Json → Result Dict
  | .obj entries => .ok entries
  | _ => error code (label ++ " must be an object")

def asArray (code : DiagnosticCode) (message : String) : Json → Result (List Json)
  | .arr items => .ok items
  | _ => error code message

/-- An object with these fields, read by `body`. -/
def objectOf {α : Type} (code : DiagnosticCode) (label : String) (extensions : Bool) (required optional : List String)
    (body : Dict → Result α) (value : Json) : Result α := do
  let entries ← asObject code label value
  let fields ← validateObjectFields extensions required optional entries
  body fields

/-- A field that has a default where it is left out. -/
def defaultedField {α : Type} (fields : Dict) (name : String) (default : α) (parse : Json → Result α) : Result α :=
  match fields.get? name with
  | none => .ok default
  | some value => parse value

/-! ## Texts -/

def stringField (code : DiagnosticCode) (label : String) (singleLine : Bool) : Json → Result String
  | .str value =>
      if value = "" ∨ value ≠ pyStrip value then
        error code (label ++ " must be non-empty without surrounding whitespace")
      else if singleLine && (pyIn "\n" value || pyIn "\r" value) then error code (label ++ " must be one line")
      else .ok value
  | _ => error code (label ++ " must be a string")

def integerField (code : DiagnosticCode) (label : String) : Json → Result Int
  | .int value => .ok value
  | _ => error code (label ++ " must be an integer")

def schemaVersion (code : DiagnosticCode) (value : Json) : Result Int := do
  let version ← integerField code "schema_version" value
  refuse (version != 1) code ("unsupported schema_version " ++ toString version)
  return version

def protocolVersion (code : DiagnosticCode) (value : Json) : Result Int := do
  let version ← integerField code "protocol_version" value
  refuse (version != 1) code ("unsupported protocol_version " ++ toString version)
  return version

/-- `sorted(set(...))` of the items. -/
def stringsField (code : DiagnosticCode) (label : String) (allowEmpty : Bool) (value : Json) :
    Result (List String) := do
  let items ← asArray code (label ++ " must be an array") value
  refuse (!allowEmpty && items.isEmpty) code (label ++ " must not be empty")
  let texts ← items.mapM (stringField code (label ++ " item") true)
  return sortedSet texts

/-- A text that one of the readers of texts takes. -/
def textOf {α : Type} (code : DiagnosticCode) (label : String) (singleLine : Bool) (read : String → Result α)
    (value : Json) : Result α := do
  let raw ← stringField code label singleLine value
  read raw

def slug (code : DiagnosticCode) (message : String) (raw : String) : Result Slug :=
  match slugOf raw with
  | some value => .ok value
  | none => error code message

def capabilityInvalid : DiagnosticCode := ⟨"protocol-capability-invalid"⟩

def parseCapability (raw : String) : Result Capability :=
  if isSlug raw then .ok ⟨raw⟩ else error capabilityInvalid ("invalid capability name: " ++ pyRepr raw)

def capabilitiesField (code : DiagnosticCode) (label : String) (value : Json) : Result (List Capability) := do
  let names ← stringsField code label true value
  let capabilities ← names.mapM parseCapability
  return sortedBy Capability.value capabilities.dedup

/-- A set of names, each of which `read` takes. -/
def namedValues {α : Type} (code : DiagnosticCode) (label : String) (allowEmpty : Bool) (read : String → Result α)
    (value : Json) : Result (List α) := do
  let names ← stringsField code label allowEmpty value
  names.mapM read

/-! ## Texts of the source protocols -/

def isHttpsAuthority (authority : List Char) : Bool := !authority.isEmpty && !authority.contains '@'

/-- Credential-free HTTPS without a query or a fragment. -/
def safeHttpsUrl (raw : String) : Bool :=
  startsWith "https://" raw &&
    isHttpsAuthority ((removePrefix "https://" raw).toList.takeWhile (· != '/')) &&
    !raw.toList.any fun c => c == '?' || c == '#' || isSpace c

def isHostChar (c : Char) : Bool := c.isAlphanum || c == '.' || c == '-'

/-- `git@host:path`. -/
def isScpGit (raw : String) : Bool :=
  startsWith "git@" raw &&
    let rest := (removePrefix "git@" raw).toList
    let host := rest.takeWhile isHostChar
    match rest.dropWhile isHostChar with
    | ':' :: path => !host.isEmpty && !path.isEmpty && !path.any fun c => isSpace c || c == '?' || c == '#'
    | _ => false

def safeGitUrl (raw : String) : Bool := isScpGit raw || safeHttpsUrl raw

section Library

variable [StandardLibrary]

def digestField (code : DiagnosticCode) (label : String) (singleLine : Bool) (value : Json) : Result ObjectDigest := do
  let raw ← stringField code label singleLine value
  insteadOf (parseSha256 raw) code (label ++ " must be canonical SHA-256")

def pathsField (code : DiagnosticCode) (label : String) (allowEmpty : Bool) (value : Json) :
    Result (List SafeRelativePath) := do
  let names ← stringsField code label allowEmpty value
  let paths ← names.mapM parseRelativePath
  return sortedBy SafeRelativePath.parts paths.dedup

/-! ## Version bounds and selectors -/

def versionBoundsInvalid : DiagnosticCode := ⟨"protocol-version-bounds-invalid"⟩

def versionBounds (least bound : Option SemVer) : Result VersionBounds :=
  match least, bound with
  | some least, some bound =>
      if least.less bound then .ok ⟨some least, some bound⟩
      else error versionBoundsInvalid ("minimum " ++ least.str ++ " must precede maximum " ++ bound.str)
  | least, bound => .ok ⟨least, bound⟩

/-- A bound is read as one line by the registry documents only. -/
def boundsBody (code : DiagnosticCode) (singleLine : Bool) (fields : Dict) : Result VersionBounds := do
  let least ← optionalField fields "min_inclusive" (textOf code "min_inclusive" singleLine parseSemver)
  let bound ← optionalField fields "max_exclusive" (textOf code "max_exclusive" singleLine parseSemver)
  versionBounds least bound

def boundsFields : List String := ["min_inclusive", "max_exclusive"]

def boundsField (code : DiagnosticCode) (singleLine : Bool) : Json → Result VersionBounds :=
  objectOf code "version bounds" false [] boundsFields (boundsBody code singleLine)

/-- An artifact that two texts name. -/
def identityOf (code : DiagnosticCode) (message : String) (kind name : String) : Result ArtifactIdentity :=
  match choiceOf Manifest.artifactKinds ArtifactKind.value kind, slugOf name with
  | some kind, some name => .ok ⟨kind, name⟩
  | _, _ => error code message

def selectorBody (identityCode : DiagnosticCode) (message : String) (boundsCode : DiagnosticCode)
    (singleLine : Bool) (fields : Dict) : Result ArtifactSelector := do
  let kind ← requiredField fields "type" (stringField identityCode "type" singleLine)
  let name ← requiredField fields "name" (stringField identityCode "name" singleLine)
  let identity ← identityOf identityCode message kind name
  let version ← optionalField fields "version" (boundsField boundsCode singleLine)
  return ⟨identity, version⟩

end Library

/-! ## Writing -/

open Manifest (Fields present jsonObject)

/-- A document of some fields and of extensions. -/
def documentJson (table : Fields) (extensions : Dict) : Json := .obj (sortEntries (present table ++ extensions))

def stringArray (values : List String) : Json := .arr (values.map .str)

def boundsTable (bounds : VersionBounds) : Fields :=
  [("min_inclusive", bounds.minInclusive.map fun version => .str version.str),
    ("max_exclusive", bounds.maxExclusive.map fun version => .str version.str)]

def boundsToJson (bounds : VersionBounds) : Json := jsonObject (boundsTable bounds)

def selectorTable (selector : ArtifactSelector) : Fields :=
  [("type", some (.str selector.identity.kind.value)), ("name", some (.str selector.identity.name.value)),
    ("version", selector.version.map boundsToJson)]

def selectorToJson (selector : ArtifactSelector) : Json := jsonObject (selectorTable selector)

/-- Bounds that admit every version are left out of a document. -/
def optionalBounds (bounds : VersionBounds) : Option Json :=
  if bounds.minInclusive.isSome || bounds.maxExclusive.isSome then some (boundsToJson bounds) else none

def optionalArray {α : Type} (write : α → Json) (values : List α) : Option Json :=
  if values.isEmpty then none else some (.arr (values.map write))

end AgentArtifacts.Schema
