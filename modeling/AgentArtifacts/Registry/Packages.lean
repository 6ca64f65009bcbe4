import AgentArtifacts.Protocol.NativeSchema
import AgentArtifacts.Registry.Dependencies
import AgentArtifacts.Store.Objects

/-!
# Packages

The compiler of one canonical package. How a setup recipe is read is left open: the
package carries whatever its reader finds.
-/

namespace AgentArtifacts.Registry

open Native (parseArtifactManifest parseProvenance artifactManifestToJson)
open Schema (refuse insteadOf)

/-- What the validators of a registry read of a parsed manifest. -/
def declared (manifest : Native.ArtifactManifest) : ArtifactManifest where
  identity := manifest.identity
  version := manifest.version
  summary := manifest.summary
  compatibility := manifest.compatibility
  install := manifest.install
  setup := manifest.setup
  requiresAart := manifest.requiresAart
  requires := manifest.requires

def pinned (provenance : Native.Provenance) : IndexProvenance :=
  ⟨provenance.origin.url, provenance.origin.resolvedCommit, provenance.origin.path⟩

/-- The members of a package by their paths. -/
abbrev PackageEntries := List (String × SnapshotEntry)

variable [StandardLibrary]

def packageEntry (known : PackageEntries) (entry : SnapshotEntry) : Result PackageEntries := do
  let raw := entry.path.str
  refuse (decide (parseRelativePath raw ≠ .ok entry.path)) artifactInvalid
    ("package path is not canonical: " ++ pyRepr raw)
  refuse (decide (raw ∈ known.map Prod.fst)) artifactInvalid ("duplicate package path: " ++ raw)
  refuse (entry.kind == .symlink || entry.kind == .special) artifactInvalid
    ("canonical package forbids " ++ entry.kind.value ++ " entries: " ++ raw)
  refuse (entry.kind == .directory && (!entry.content.isEmpty || entry.executable)) artifactInvalid
    ("directory has file metadata: " ++ raw)
  return known ++ [(raw, entry)]

def payloadFiles (entries : PackageEntries) : PackageEntries :=
  entries.filter fun entry => startsWith "payload/" entry.1 && entry.2.kind == .file

def textPayload (entry : SnapshotEntry) : Result Unit :=
  refuse (decodeUtf8 entry.content).isNone artifactInvalid "text payload must be valid UTF-8"

def objectPayload (path : String) (entry : SnapshotEntry) : Result Dict :=
  match parseJson entry.content with
  | .ok (.obj fields) => .ok fields
  | _ => error artifactInvalid (path ++ " must be a strict JSON object")

/-- A string that is not empty. -/
def isText : Option Json → Bool
  | some (.str text) => text != ""
  | _ => false

def validatePrimaryPayload (kind : ArtifactKind) (entries : PackageEntries) : Result Unit := do
  let files := payloadFiles entries
  refuse files.isEmpty artifactInvalid "payload contains no files"
  match kind with
  | .skill =>
      match files.lookup "payload/SKILL.md" with
      | none => error artifactInvalid "skill payload requires payload/SKILL.md"
      | some entry => textPayload entry
  | .mcp =>
      match files.lookup "payload/mcp.json" with
      | none => error artifactInvalid "mcp payload requires payload/mcp.json"
      | some entry =>
          let _ ← objectPayload "payload/mcp.json" entry
          return ()
  | .hook =>
      match files.lookup "payload/hook.json" with
      | none => error artifactInvalid "hook payload requires payload/hook.json"
      | some entry =>
          let fields ← objectPayload "payload/hook.json" entry
          refuse (!isText (Dict.get? fields "name") || !isText (Dict.get? fields "command")) artifactInvalid
            "payload/hook.json requires non-empty string name and command fields"
  | kind =>
      match files.filter fun entry => endsWith ".md" entry.1 with
      | [entry] =>
          refuse (files.length != 1) artifactInvalid
            (kind.value ++ " payload requires exactly one Markdown document")
          textPayload entry.2
      | _ => error artifactInvalid (kind.value ++ " payload requires exactly one Markdown document")

def payloadFile (entry : String × SnapshotEntry) : Result TreeEntry := do
  let relative := removePrefix "payload/" entry.1
  let path ← insteadOf (parseRelativePath relative) artifactInvalid ("invalid payload path: " ++ relative)
  return .file path entry.2.executable entry.2.content.length (sha256Bytes entry.2.content)

def payloadDirectory (raw : String) : Result TreeEntry := do
  let path ← insteadOf (parseRelativePath raw) artifactInvalid ("invalid payload directory: " ++ raw)
  return .directory path

/-- Directories come from the paths of the files; empty ones are left out. -/
def payloadDigest (entries : PackageEntries) : Result ObjectDigest := do
  let files ← (payloadFiles entries).mapM payloadFile
  let directories := files.flatMap fun file =>
    (List.range file.path.parts.length).tail.map fun n => slashJoin (file.path.parts.take n)
  let above ← (sortedSet directories).mapM payloadDirectory
  insteadOf (treeDigest (files ++ above)) artifactInvalid "payload tree cannot be hashed"

def allowedRoots : List String :=
  ["artifact.json", "README.md", "SETUP.md", "provenance.json", "payload", "setup"]

def packageRoots (entries : PackageEntries) : Result Unit :=
  match entries.find? fun entry => (splitChar '/' entry.1).headD "" ∉ allowedRoots with
  | none => .ok ()
  | some entry => error artifactInvalid ("unexpected canonical package path: " ++ entry.1)

/-- The installer of a package that declares a setup, as the reader of recipes finds it. -/
def packageSetup (readSetup : Native.ArtifactManifest → PackageEntries → Result SetupInstaller)
    (manifest : Native.ArtifactManifest) (entries : PackageEntries) : Result (Option SetupInstaller) :=
  if manifest.setup.isSome then (readSetup manifest entries).map some
  else if entries.any fun entry => entry.1 == "SETUP.md" || startsWith "setup/" entry.1 then
    error artifactInvalid "setup content requires a declared setup reference"
  else .ok none

def packageProvenance (entries : PackageEntries) : Result (Option Native.Provenance) :=
  match entries.lookup "provenance.json" with
  | none => .ok none
  | some entry =>
      if entry.kind ≠ .file then error artifactInvalid "provenance.json must be a file"
      else (parseProvenance entry.content).map some

def packageManifest (entries : PackageEntries) : Result Native.ArtifactManifest :=
  match entries.lookup "artifact.json" with
  | none => error artifactInvalid "required file is missing: artifact.json"
  | some entry =>
      if entry.kind ≠ .file then error artifactInvalid "required file is missing: artifact.json"
      else parseArtifactManifest entry.content

def compilePackageEntries (readSetup : Native.ArtifactManifest → PackageEntries → Result SetupInstaller)
    (entries : PackageEntries) (expectedIdentity : Option ArtifactIdentity) : Result NativeArtifactPackage := do
  let manifest ← packageManifest entries
  refuse (expectedIdentity.any (· != manifest.identity)) artifactInvalid
    ("manifest identity " ++ manifest.identity.str ++ " does not match package path " ++
      (expectedIdentity.map ArtifactIdentity.str).getD "")
  packageRoots entries
  validatePrimaryPayload manifest.identity.kind entries
  let installer ← packageSetup readSetup manifest entries
  let provenance ← packageProvenance entries
  let digest ← payloadDigest entries
  return { manifest := declared manifest, provenance := provenance.map pinned,
           manifestDigest := jsonDigest (artifactManifestToJson manifest), payloadDigest := digest,
           setupInstaller := installer }

def compileNativePackage (readSetup : Native.ArtifactManifest → PackageEntries → Result SetupInstaller)
    (entries : List SnapshotEntry) (expectedIdentity : Option ArtifactIdentity) : Result NativeArtifactPackage := do
  let members ← entries.foldlM packageEntry []
  compilePackageEntries readSetup members expectedIdentity

end AgentArtifacts.Registry
