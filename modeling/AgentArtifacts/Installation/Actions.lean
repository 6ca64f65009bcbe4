import AgentArtifacts.Installation.JsonMerge
import AgentArtifacts.Installation.MemoryBlock
import AgentArtifacts.Installation.Model
import AgentArtifacts.Profiles

/-!
# From a stored object to operations

The destinations of an artifact in a profile, the actions a native package
projects to, and the operations these become once the state observed at each
destination is known. Hook templates are rendered here, memory blocks and JSON
merges are the ones of their own modules.
-/

namespace AgentArtifacts

variable [StandardLibrary]

/-! ## Ports -/

/-- What planning reads. State paths are read through the manifest table. -/
structure InstallReadPorts where
  readObject : ObjectDigest → Result (Option StoredObject)
  readState : String → Result (Option InstallState)
  inspectState : String → Result Observed
  inspectPath : String → Result Observed
  inspectLinkTarget : String → String → Result Observed

/-! ## Payloads -/

def isPayloadPath (raw : String) : Bool := startsWith "payload/" raw

/-- One entry below the payload, with its path taken relative to it. -/
def payloadMember (entry : TreeMember) : Result TreeMember :=
  let raw := entry.path.str
  match parseRelativePath (removePrefix "payload/" raw) with
  | .error _ => error installInvalid ("object payload path is invalid: " ++ raw)
  | .ok path =>
      match entry with
      | .directory _ => .ok (.directory path)
      | .file _ content executable => .ok (.file path content executable)

def TreeMember.isFile : TreeMember → Bool
  | .directory _ => false
  | .file _ _ _ => true

def payloadMembers (stored : StoredObject) : Result (List TreeMember) := do
  let entries := stored.candidate.entries.filter fun entry => isPayloadPath entry.path.str
  let members ← entries.mapM payloadMember
  if members.any (·.isFile) then return sortMembers members
  else error installInvalid "canonical object payload contains no files"

structure PayloadFile where
  path : String
  content : Bytes
  executable : Bool
deriving DecidableEq

def payloadFile (stored : StoredObject) (suffix : Option String) : Result PayloadFile :=
  let files := stored.candidate.entries.filterMap fun entry =>
    match entry with
    | .directory _ => none
    | .file path content executable =>
        if isPayloadPath path.str && (suffix.isNone || suffix == some path.str) then
          some (⟨path.str, content, executable⟩ : PayloadFile)
        else none
  match files with
  | [file] => .ok file
  | _ => error installInvalid ("canonical object must contain exactly one " ++
      suffix.getD "the primary payload file")

/-! ## Destinations -/

structure Destination where
  logical : String
  absolute : String
deriving DecidableEq

def destinationOf (path : String) (scope : InstallScope) (location : InstallLocation) :
    Result Destination :=
  let normalized := normPath path
  match scope with
  | .project =>
      match parseRelativePath normalized with
      | .error _ => error installInvalid ("project install destination is unsafe: " ++ path)
      | .ok _ =>
          let absolute := normPath (joinPath location.projectRoot normalized)
          if commonPath location.projectRoot absolute = some location.projectRoot then
            .ok ⟨normalized, absolute⟩
          else error installInvalid ("project install destination escapes root: " ++ path)
  | .user =>
      if !isAbs normalized || normalized == "/" then
        error installInvalid ("user install destination is not absolute: " ++ path)
      else .ok ⟨normalized, normalized⟩

def backupSuffix : String := ".agent-artifacts-bak"

/-- The place of the name in a directory target, or the directory itself. -/
def namedDirectory (dir name : String) : String := pyRstrip '/' (pyReplace "<name>" name dir)

def skillDirectory (dir name : String) : String :=
  if pyIn "<name>" dir then namedDirectory dir name else joinPath (namedDirectory dir name) name

def memoryTargetPath (target : MemoryTarget) (name : String) : String :=
  match target.kind with
  | .file => target.dest
  | .dir => joinPath target.dest (name ++ ".md")

/-- Every path the planner may write; the sidecar of a memory is observed in every mode. -/
def targetPaths (identity : ArtifactIdentity) (profile : Slug) (targets : ProfileTargets) :
    Result (List String) :=
  let name := identity.name.value
  let unsupported : Result (List String) :=
    error installInvalid ("profile " ++ pyRepr profile.value ++ " does not support canonical " ++
      identity.kind.value ++ " installs in this scope")
  match identity.kind with
  | .skill =>
      match targets.skills with
      | none => unsupported
      | some target =>
          .ok [if pyIn "<name>" target.dir then namedDirectory target.dir name
            else joinPath target.dir name]
  | .guideline =>
      match targets.guidelines with
      | none => unsupported
      | some target => .ok [joinPath target.dest (name ++ ".md")]
  | .mcp =>
      match targets.mcp with
      | none => unsupported
      | some spec => .ok [spec.file]
  | .hook =>
      match targets.hooks with
      | none => unsupported
      | some target => .ok [namedDirectory target.scriptsDir name, target.merge.file]
  | .memory =>
      match targets.memory with
      | none => unsupported
      | some target =>
          .ok [memoryTargetPath target name, memoryTargetPath target name ++ backupSuffix]

/-! ## Hook templates -/

mutual

/-- `repr` of a decoded value. -/
def pyReprValue : Json → String
  | .null => "None"
  | .bool b => if b then "True" else "False"
  | .int i => toString i
  | .str s => pyRepr s
  | .arr items => "[" ++ String.intercalate ", " (pyReprItems items) ++ "]"
  | .obj entries => "\x7b" ++ String.intercalate ", " (pyReprEntries entries) ++ "\x7d"

def pyReprItems : List Json → List String
  | [] => []
  | item :: rest => pyReprValue item :: pyReprItems rest

def pyReprEntries : List (String × Json) → List String
  | [] => []
  | (key, item) :: rest => (pyRepr key ++ ": " ++ pyReprValue item) :: pyReprEntries rest

end

/-- `str` of a decoded value. -/
def pyStr : Json → String
  | .str s => s
  | value => pyReprValue value

/-- The name of a placeholder that starts a text. -/
def placeholderAt : List Char → Option (List Char)
  | '$' :: '\x7b' :: rest =>
      let name := rest.takeWhile (· != '\x7d')
      if name ≠ [] ∧ (rest.drop name.length).head? = some '\x7d' then some name else none
  | _ => none

/-- Placeholders replaced from left to right; `skip` characters are still passed over. -/
def substitute (values : Dict) : Nat → List Char → List Char
  | _, [] => []
  | skip + 1, _ :: rest => substitute values skip rest
  | 0, c :: rest =>
      match placeholderAt (c :: rest) with
      | some name =>
          (pyStr ((values.get? (String.ofList name)).getD (.str ""))).toList ++
            substitute values (name.length + 2) rest
      | none => c :: substitute values 0 rest

def renderText (values : Dict) (text : String) : Json :=
  match placeholderAt text.toList with
  | some name =>
      if text.toList.length = name.length + 3 then (values.get? (String.ofList name)).getD .null
      else .str (String.ofList (substitute values 0 text.toList))
  | none => .str (String.ofList (substitute values 0 text.toList))

mutual

def renderTemplate (values : Dict) : Json → Json
  | .str text => renderText values text
  | .arr items => .arr (renderItems values items)
  | .obj entries => .obj (renderEntries values entries)
  | value => value

def renderItems (values : Dict) : List Json → List Json
  | [] => []
  | item :: rest => renderTemplate values item :: renderItems values rest

def renderEntries (values : Dict) : List (String × Json) → List (String × Json)
  | [] => []
  | (key, item) :: rest => (key, renderTemplate values item) :: renderEntries values rest

end

/-! ## Native actions -/

inductive NativeAction where
  | copy (destination : String)
  | write (destination : String) (content : Bytes) (restoresFrom : Option String)
  | merge (payload : MergePayload)
deriving DecidableEq

def NativeAction.destination : NativeAction → String
  | .copy destination => destination
  | .write destination _ _ => destination
  | .merge payload => payload.destination

/-- What was observed at the planned paths. -/
abbrev Snapshots := List (String × PathSnapshot)

/-- A path that was not observed is a missing key. -/
def snapshotAt (snapshots : Snapshots) (path : String) : Result PathSnapshot :=
  match snapshots.lookup path with
  | some snapshot => .ok snapshot
  | none => raised ("KeyError: " ++ pyRepr path)

def mcpAction (request : InstallRequest) (stored : StoredObject) (spec : MergeSpec)
    (snapshots : Snapshots) : Result (List NativeAction) := do
  let primary ← payloadFile stored (some "payload/mcp.json")
  let descriptor ← strictMapping primary.content primary.path
  let snapshot ← snapshotAt snapshots spec.file
  let _ ← existingMapping snapshot
  match (descriptor.get? "name").getD (.str request.identity.name.value) with
  | .str name =>
      if name = "" then error installInvalid "MCP descriptor has no canonical server name"
      else return [.merge ⟨spec.file, spec.jsonPath, .key, (descriptor.get? "server").getD (.obj []), [name]⟩]
  | _ => error installInvalid "MCP descriptor has no canonical server name"

def hookActions (request : InstallRequest) (stored : StoredObject) (target : HookTarget)
    (snapshots : Snapshots) : Result (List NativeAction) := do
  let primary ← payloadFile stored (some "payload/hook.json")
  let descriptor ← strictMapping primary.content primary.path
  let snapshot ← snapshotAt snapshots target.merge.file
  let _ ← existingMapping snapshot
  let scriptsDir := namedDirectory target.scriptsDir request.identity.name.value
  let values := match descriptor.get? "command" with
    | some (.str command) =>
        descriptor.set "command" (.str (pyReplace "$\x7bSCRIPT_DIR\x7d" scriptsDir command))
    | _ => descriptor
  let rendered := renderEntries values (target.merge.entryTemplate.getD [])
  return [.copy scriptsDir,
    .merge ⟨target.merge.file, target.merge.jsonPath, target.merge.mode, .obj rendered,
      target.merge.identity⟩]

/-- The text at a memory destination; nothing there is no text. -/
def existingText (snapshot : Observed) : Result (Option String) :=
  match snapshot with
  | .absent => .ok none
  | .file content _ =>
      match decodeUtf8 content with
      | some text => .ok (some text)
      | none => error installConflict "existing memory destination is not UTF-8"
  | _ => error installConflict "memory destination is not a regular file"

/-- Whether a text holds more than white space. -/
def isDisplaced (text : Option String) : Bool := pyStrip (text.getD "") != ""

def replaceActions (request : InstallRequest) (path : String) (existing : Option String)
    (text : String) : Result (List NativeAction) :=
  if isDisplaced existing && !request.force then
    error installConflict ("memory " ++ pyRepr request.identity.name.value ++ ": " ++ path ++
      " exists; use force to replace")
  else if !isDisplaced existing then .ok [.write path (encodeUtf8 text) none]
  else
    -- The displaced text is kept in a sidecar that the target names.
    .ok [.write (path ++ backupSuffix) (encodeUtf8 (existing.getD "")) none,
      .write path (encodeUtf8 text) (some (path ++ backupSuffix))]

def memoryActions (request : InstallRequest) (stored : StoredObject) (target : MemoryTarget)
    (snapshots : Snapshots) : Result (List NativeAction) := do
  let primary ← payloadFile stored none
  let text ← match decodeUtf8 primary.content with
    | some text => (.ok text : Result String)
    | none => error installInvalid "memory payload is not UTF-8"
  let path := memoryTargetPath target request.identity.name.value
  let snapshot ← snapshotAt snapshots path
  let existing ← existingText snapshot.state
  let plain : Result (List NativeAction) :=
    if request.memoryMode = .skip ∧ snapshot.state.isAbsent = false then
      error installInvalid "memory install was skipped and has no managed effect"
    else .ok [.write path (encodeUtf8 text) none]
  match target.kind, request.memoryMode with
  | .dir, _ => plain
  | .file, .skip => plain
  | .file, .replace => replaceActions request path existing text
  | .file, .prepend =>
      return [.write path (encodeUtf8 (memoryBlock existing request.identity.name.value text true)) none]
  | .file, .append =>
      return [.write path (encodeUtf8 (memoryBlock existing request.identity.name.value text false)) none]

def unsupportedKind : Result (List NativeAction) := raised "AssertionError"

def nativeActions (request : InstallRequest) (stored : StoredObject) (targets : ProfileTargets)
    (snapshots : Snapshots) : Result (List NativeAction) :=
  let name := request.identity.name.value
  match request.identity.kind with
  | .skill =>
      match targets.skills with
      | none => unsupportedKind
      | some target => .ok [.copy (skillDirectory target.dir name)]
  | .guideline =>
      match targets.guidelines with
      | none => unsupportedKind
      | some target => do
          let primary ← payloadFile stored none
          return [.write (joinPath target.dest (name ++ ".md")) primary.content none]
  | .mcp =>
      match targets.mcp with
      | none => unsupportedKind
      | some spec => mcpAction request stored spec snapshots
  | .hook =>
      match targets.hooks with
      | none => unsupportedKind
      | some target => hookActions request stored target snapshots
  | .memory =>
      match targets.memory with
      | none => unsupportedKind
      | some target => memoryActions request stored target snapshots

/-! ## Operations -/

/-- Where links of a request point to. -/
def linkPayloadRoot (request : InstallRequest) (stored : StoredObject) : String :=
  request.mutableLocalPayloadRoot.getD (joinPath stored.root "payload")

def linkSemanticsOf (request : InstallRequest) : LinkSemantics :=
  if request.mutableLocalPayloadRoot.isSome then .mutableLocal else .immutableObject

/-- Whether a link of an operation replaces something other than itself. -/
def linkOverwrites (snapshot : Observed) (target : String) : Bool :=
  !snapshot.isAbsent && snapshot != .symlink target true

def convertCopy (request : InstallRequest) (stored : StoredObject) (ports : InstallReadPorts)
    (boundary : String) (payload : List TreeMember) (destination : Destination) (snapshot : PathSnapshot) :
    Result InstallOperation := do
  let tree ← match DirectoryTree.ofMembers payload with
    | some tree => (.ok tree : Result DirectoryTree)
    | none => raised "copy-tree operation is not exactly bound"
  let desired ← treeMembersDigest tree
  match request.mode with
  | .symlink =>
      let root := linkPayloadRoot request stored
      let targetState ← ports.inspectLinkTarget root boundary
      if targetState.kind = "tree" ∧ targetState.digest? = some desired then
        return { destination := destination.logical, absoluteDestination := destination.absolute
                 precondition := snapshot.state, overwrote := linkOverwrites snapshot.state root
                 action := .link "payload" root targetState (linkSemanticsOf request) }
      else error installConflict "link payload tree changed, is missing, or is not a real directory"
  | .copy =>
      return { destination := destination.logical, absoluteDestination := destination.absolute
               precondition := snapshot.state
               overwrote := !snapshot.state.isAbsent && snapshot.state.digest? != some desired
               action := .copyTree "payload" tree }

def isManagedBlock (request : InstallRequest) : Bool :=
  request.identity.kind == .memory && (request.memoryMode == .prepend || request.memoryMode == .append)

/-- The payload file a write is recorded under; a package with several files has none. -/
def writeSource (primary : Result PayloadFile) : PayloadFile :=
  match primary with
  | .ok file => file
  | .error _ => ⟨"payload", [], false⟩

def convertWrite (request : InstallRequest) (stored : StoredObject) (ports : InstallReadPorts)
    (boundary : String) (primary : Result PayloadFile) (content : Bytes) (restoresFrom : Option String)
    (destination : Destination) (snapshot : PathSnapshot) : Result InstallOperation := do
  let source := writeSource primary
  let desired := fileSnapshotDigest content source.executable
  if request.mode = .symlink ∧ request.identity.kind = .guideline then
    let target := joinPath (linkPayloadRoot request stored) (removePrefix "payload/" source.path)
    let targetState ← ports.inspectLinkTarget target boundary
    if targetState.kind = "file" ∧ targetState.digest? = some desired then
      return { destination := destination.logical, absoluteDestination := destination.absolute
               precondition := snapshot.state, overwrote := linkOverwrites snapshot.state target
               action := .link source.path target targetState (linkSemanticsOf request) }
    else error installConflict "link payload file changed, is missing, or is not a regular file"
  else
    return { destination := destination.logical, absoluteDestination := destination.absolute
             precondition := snapshot.state
             overwrote := !snapshot.state.isAbsent && snapshot.state.digest? != some desired
             action := .writeFile source.path content source.executable (isManagedBlock request)
               restoresFrom }

def convertMerge (request : InstallRequest) (payload : MergePayload) (destination : Destination)
    (snapshot : PathSnapshot) : Result InstallOperation := do
  let evidence ← mergeIdentityEvidence payload
  let merged ← mergedContent payload snapshot evidence request.force
  return { destination := destination.logical, absoluteDestination := destination.absolute
           precondition := snapshot.state
           overwrote := payload.mode == .key && !snapshot.state.isAbsent &&
             snapshot.state.digest? != some (fileSnapshotDigest merged false)
           action := .mergeJson payload.jsonPath payload.mode
             (if payload.identity = [] then [request.identity.name.value] else payload.identity)
             evidence (jsonDigest payload.value.normalize) merged }

/-- One action bound to its destination and to the state observed there. -/
def convertAction (request : InstallRequest) (stored : StoredObject) (location : InstallLocation)
    (snapshots : Snapshots) (ports : InstallReadPorts) (boundary : String) (payload : List TreeMember)
    (action : NativeAction) : Result InstallOperation := do
  let destination ← destinationOf action.destination request.scope location
  let snapshot ← snapshotAt snapshots action.destination
  let operation ← match action with
    | .copy _ => convertCopy request stored ports boundary payload destination snapshot
    | .write _ content restoresFrom =>
        convertWrite request stored ports boundary (payloadFile stored none) content restoresFrom
          destination snapshot
    | .merge mergePayload => convertMerge request mergePayload destination snapshot
  if operation.valid then return operation else raised "install operation is not exactly bound"

def convertActions (request : InstallRequest) (stored : StoredObject) (location : InstallLocation)
    (snapshots : Snapshots) (ports : InstallReadPorts) (boundary : String)
    (actions : List NativeAction) : Result (List InstallOperation) := do
  let payload ← payloadMembers stored
  actions.mapM (convertAction request stored location snapshots ports boundary payload)

end AgentArtifacts
