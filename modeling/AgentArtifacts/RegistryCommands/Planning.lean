import AgentArtifacts.Maintenance.Workspace

/-!
# Reviewed changes to a registry workspace

A maintainer's command plans the files that it wants to stand in the workspace and, below
one directory, the removal of the others. Values whose constructors refuse them are raised.
-/

namespace AgentArtifacts.RegistryCommands

open Maintenance (setEntry)
open Manifest (validDigest)
open Registry (entryAt sortedBy)
open Schema (refuse)

def registryCommandInvalid : DiagnosticCode := ⟨"registry-command-invalid"⟩

def commandError {α : Type} (message : String) : Result α := error registryCommandInvalid message

/-! ## Changes -/

inductive RegistryOperation where
  | init
  | scaffold
  | collection
  | format
  | lock
  | build
  | migrate
  | vendor
  | vendorBatch
  | publish
  | revendor
deriving DecidableEq

def RegistryOperation.value : RegistryOperation → String
  | .init => "init"
  | .scaffold => "scaffold"
  | .collection => "collection"
  | .format => "format"
  | .lock => "lock"
  | .build => "build"
  | .migrate => "migrate"
  | .vendor => "vendor"
  | .vendorBatch => "vendor-batch"
  | .publish => "publish"
  | .revendor => "revendor"

inductive WorkspaceChangeKind where
  | added
  | changed
  | unchanged
  | removed
deriving DecidableEq

def WorkspaceChangeKind.value : WorkspaceChangeKind → String
  | .added => "added"
  | .changed => "changed"
  | .unchanged => "unchanged"
  | .removed => "removed"

/-- `after_digest` is missing for a removal only. -/
structure RegistryWorkspaceChange where
  path : SafeRelativePath
  kind : WorkspaceChangeKind
  content : Bytes
  beforeDigest : Option ObjectDigest
  afterDigest : Option ObjectDigest
  executable : Bool
deriving DecidableEq

/-- The files that a plan may write outside the four directories. -/
def managedFiles : List String :=
  ["aart-registry.json", "aart-source.json", "aart.lock.json", "aart.index.json", ".gitignore",
    ".github/workflows/aart-registry.yml", ".github/ISSUE_TEMPLATE/usage-report.yml",
    ".github/workflows/aart-usage-dashboard.yml", ".github/workflows/aart-usage-validate.yml"]

def managedRoots : List String := ["entries", "artifacts", "collections", "security"]

def managedPath (path : SafeRelativePath) : Bool :=
  managedFiles.contains path.str || managedRoots.contains (path.parts.headD "")

structure RegistryWorkspacePlan where
  operation : RegistryOperation
  expectedSnapshotDigest : ObjectDigest
  nextSnapshotDigest : ObjectDigest
  changes : List RegistryWorkspaceChange
  reviewDigest : ObjectDigest
deriving DecidableEq

def RegistryWorkspacePlan.changedPaths (plan : RegistryWorkspacePlan) : Nat :=
  plan.changes.countP fun change => change.kind != .unchanged

section Planning

variable [StandardLibrary]

/-- The constructor of a change. -/
def registryWorkspaceChange (change : RegistryWorkspaceChange) : Result RegistryWorkspaceChange :=
  let removal := change.kind == .removed
  if !managedPath change.path || (!removal && !change.afterDigest.any validDigest) ||
      (!removal && change.afterDigest != some (sha256Bytes change.content)) ||
      !change.beforeDigest.all validDigest then
    raised "registry workspace change is invalid"
  else if removal && (change.afterDigest.isSome || !change.content.isEmpty || !change.beforeDigest.any validDigest) then
    raised "removed workspace file names only what it removes"
  else if change.kind == .added && change.beforeDigest.isSome then
    raised "added workspace file cannot have a previous digest"
  else if change.kind == .changed && (change.beforeDigest.isNone || change.beforeDigest == change.afterDigest) then
    raised "changed workspace file requires distinct digests"
  else if change.kind == .unchanged && change.beforeDigest != change.afterDigest then
    raised "unchanged workspace file requires equal digests"
  else .ok change

def digestJson : Option ObjectDigest → Json
  | none => .null
  | some digest => .str digest.str

def changeJson (change : RegistryWorkspaceChange) : Json :=
  .obj [("after_digest", digestJson change.afterDigest), ("before_digest", digestJson change.beforeDigest),
    ("executable", .bool change.executable), ("kind", .str change.kind.value), ("path", .str change.path.str)]

def sortChanges (changes : List RegistryWorkspaceChange) : List RegistryWorkspaceChange :=
  sortedBy (fun change => change.path.str) changes

def registryWorkspaceReviewDigest (operation : RegistryOperation) (expected next : ObjectDigest)
    (changes : List RegistryWorkspaceChange) : ObjectDigest :=
  jsonDigest (.obj [("changes", .arr ((sortChanges changes).map changeJson)),
    ("expected_snapshot_digest", .str expected.str), ("next_snapshot_digest", .str next.str),
    ("operation", .str operation.value)])

/-- The constructor of a plan; it sorts the changes. -/
def registryWorkspacePlan (plan : RegistryWorkspacePlan) : Result RegistryWorkspacePlan :=
  let ordered := sortChanges plan.changes
  if !validDigest plan.expectedSnapshotDigest || !validDigest plan.nextSnapshotDigest || ordered.isEmpty ||
      decide (¬ (ordered.map (·.path)).Nodup) || !validDigest plan.reviewDigest ||
      plan.reviewDigest != registryWorkspaceReviewDigest plan.operation plan.expectedSnapshotDigest
        plan.nextSnapshotDigest ordered then
    raised "registry workspace plan is invalid"
  else .ok { plan with changes := ordered }

/-- `_files`: the entries of a snapshot that has a digest have distinct paths. -/
def files (snapshot : SourceSnapshot) : Result (List SnapshotEntry) :=
  match sourceSnapshotDigest snapshot with
  | .error _ => commandError "registry command requires one safe inert workspace snapshot"
  | .ok _ => .ok snapshot.entries

/-- `_path`, which asserts that the text is a path. -/
def assertedPath (raw : String) : Result SafeRelativePath :=
  match parseRelativePath raw with
  | .error _ => raised raw
  | .ok path => .ok path

/-- A file that a command wants: its path, its content and whether it is executable. -/
structure DesiredFile where
  path : String
  content : Bytes
  executable : Bool
deriving DecidableEq

/-- `_change`. -/
def workspaceChange (desired : DesiredFile) (before : Option SnapshotEntry) : Result RegistryWorkspaceChange := do
  let path ← assertedPath desired.path
  let kind := match before with
    | none => WorkspaceChangeKind.added
    | some entry =>
        if entry.content = desired.content ∧ entry.executable = desired.executable then .unchanged else .changed
  registryWorkspaceChange ⟨path, kind, desired.content, before.map fun entry => sha256Bytes entry.content,
    some (sha256Bytes desired.content), desired.executable⟩

/-- `_removal`. -/
def workspaceRemoval (before : SnapshotEntry) : Result RegistryWorkspaceChange := do
  let path ← assertedPath before.path.str
  registryWorkspaceChange ⟨path, .removed, [], some (sha256Bytes before.content), none, before.executable⟩

/-! ## Projection -/

/-- The directory above a change. -/
def requireParent (output : List SnapshotEntry) (parent : SafeRelativePath) : Result (List SnapshotEntry) :=
  match entryAt output parent.str with
  | some existing =>
      if existing.kind ≠ .directory then
        commandError ("registry change parent is not a directory: " ++ parent.str)
      else .ok output
  | none => .ok (output ++ [directoryAt parent])

/-- The digest of what stands at the path of a change. -/
def actualDigest (path : String) : Option SnapshotEntry → Result (Option ObjectDigest)
  | none => .ok none
  | some before =>
      if before.kind ≠ .file then commandError ("registry change target is not a regular file: " ++ path)
      else .ok (some (sha256Bytes before.content))

/-- `del`. -/
def deleteEntry (output : List SnapshotEntry) (path : String) : List SnapshotEntry :=
  output.filter fun entry => entry.path.str ≠ path

/-- A removal leaves the directories that held the file. -/
def projectChange (output : List SnapshotEntry) (change : RegistryWorkspaceChange) : Result (List SnapshotEntry) := do
  let actual ← actualDigest change.path.str (entryAt output change.path.str)
  refuse (actual != change.beforeDigest) registryCommandInvalid
    ("registry change precondition changed: " ++ change.path.str)
  if change.kind = .removed then return deleteEntry output change.path.str
  else
    let written := setEntry output ⟨change.path, .file, change.content, change.executable⟩
    (properAncestors change.path).foldlM requireParent written

/-- `_project_changes`. -/
def projectChanges (snapshot : SourceSnapshot) (changes : List RegistryWorkspaceChange) : Result SourceSnapshot := do
  let current ← files snapshot
  let output ← changes.foldlM projectChange current
  return SourceSnapshot.of snapshot.origin output

/-! ## Plans -/

/-- The files below a directory that are no longer named. -/
def prunedFiles (current : List SnapshotEntry) (desired : List DesiredFile) : Option String → List SnapshotEntry
  | none => []
  | some directory => current.filter fun entry =>
      startsWith (directory ++ "/") entry.path.str && entry.isFile &&
        decide (entry.path.str ∉ desired.map DesiredFile.path)

/-- `_plan`. -/
def planWorkspace (operation : RegistryOperation) (snapshot : SourceSnapshot) (desired : List DesiredFile)
    (pruneUnder : Option String) : Result RegistryWorkspacePlan := do
  let current ← files snapshot
  let expected ← sourceSnapshotDigest snapshot
  let written ← (sortedBy DesiredFile.path desired).mapM fun file => workspaceChange file (entryAt current file.path)
  let removed ← (prunedFiles current desired pruneUnder).mapM workspaceRemoval
  let changes := written ++ removed
  let projected ← projectChanges snapshot changes
  let next ← sourceSnapshotDigest projected
  registryWorkspacePlan ⟨operation, expected, next, changes,
    registryWorkspaceReviewDigest operation expected next changes⟩

/-- `project_registry_workspace_plan`. -/
def projectRegistryWorkspacePlan (snapshot : SourceSnapshot) (plan : RegistryWorkspacePlan) : Result SourceSnapshot := do
  let current ← sourceSnapshotDigest snapshot
  refuse (current != plan.expectedSnapshotDigest) registryCommandInvalid "registry workspace changed after plan review"
  let projected ← projectChanges snapshot plan.changes
  match sourceSnapshotDigest projected with
  | .error _ => commandError "registry plan no longer produces its reviewed snapshot"
  | .ok digest =>
      refuse (digest != plan.nextSnapshotDigest) registryCommandInvalid
        "registry plan no longer produces its reviewed snapshot"
      return projected

end Planning

end AgentArtifacts.RegistryCommands
