import AgentArtifacts.RegistryCommands.Planning
import Mathlib.Data.Prod.Lex

/-!
# The checkout of a registry

The reader of a checkout walks its managed part, directories before files, and refuses what
is no plain file or directory. The applier writes the changes of a reviewed plan one after
the other, each over the file that the plan saw, and reads the checkout again. Every step of
input and output succeeds that the state of the checkout lets succeed.
-/

namespace AgentArtifacts.RegistryCommands

open Maintenance (setEntry)
open Registry (entryAt sortedBy)
open Schema (refuse)

def registryWorkspaceInvalid : DiagnosticCode := ⟨"registry-workspace-invalid"⟩

def registryWorkspaceStale : DiagnosticCode := ⟨"registry-workspace-stale"⟩

def registryWorkspaceApplyFailed : DiagnosticCode := ⟨"registry-workspace-apply-failed"⟩

def maxEntries : Nat := 100000

def maxFileBytes : Nat := 16 * 1024 * 1024

def maxTotalBytes : Nat := 256 * 1024 * 1024

/-- What stands below the root, the managed part and the rest; some of the links lead to directories. -/
structure Checkout where
  entries : List SnapshotEntry
  directoryLinks : List String

/-- A file tree: paths are names without slashes, and everything stands in directories. -/
structure Checkout.Sound (checkout : Checkout) : Prop where
  named : ∀ entry ∈ checkout.entries, entry.path.parts ≠ [] ∧ ∀ part ∈ entry.path.parts, '/' ∉ part.toList
  distinct : (checkout.entries.map (·.path.str)).Nodup
  closed : ∀ entry ∈ checkout.entries, ∀ parent ∈ properAncestors entry.path, directoryAt parent ∈ checkout.entries
  bare : ∀ entry ∈ checkout.entries, entry.kind = .directory → entry = directoryAt entry.path

/-! ## Reading -/

def rootFiles : List String :=
  ["aart-registry.json", "aart-source.json", "aart.lock.json", "aart.index.json", ".gitignore"]

def githubDirectories : List String := [".github", ".github/workflows", ".github/ISSUE_TEMPLATE"]

def githubFiles : List String :=
  [".github/ISSUE_TEMPLATE/usage-report.yml", ".github/workflows/aart-registry.yml",
    ".github/workflows/aart-usage-dashboard.yml", ".github/workflows/aart-usage-validate.yml"]

/-- `_managed`. -/
def managed (relative : String) : Bool :=
  rootFiles.contains relative || githubDirectories.contains relative || githubFiles.contains relative ||
    managedRoots.contains ((splitChar '/' relative).headD "")

def lastName (path : SafeRelativePath) : String := path.parts.getLastD ""

/-- What a walk lists among the directories. -/
def Checkout.amongDirectories (checkout : Checkout) (entry : SnapshotEntry) : Bool :=
  entry.kind == .directory || (entry.kind == .symlink && checkout.directoryLinks.contains entry.path.str)

/-- A walk goes down into the managed directories. -/
def entered (path : SafeRelativePath) : Bool :=
  (properAncestors path).all fun above => lastName above != ".git" && managed above.str

def Checkout.listed (checkout : Checkout) (entry : SnapshotEntry) : Bool :=
  entered entry.path &&
    if checkout.amongDirectories entry then lastName entry.path != ".git" && managed entry.path.str
    else !startsWith ".git/" entry.path.str && managed entry.path.str

/-- `os.walk` from the top: in each directory its directories by name and then its files by name. -/
def walkKey (amongDirectories : Bool) (path : SafeRelativePath) : Lex (List String × Lex (Nat × String)) :=
  toLex (path.parts.dropLast, toLex (if amongDirectories then 0 else 1, lastName path))

def Checkout.walked (checkout : Checkout) : List SnapshotEntry :=
  sortedBy (fun entry => walkKey (checkout.amongDirectories entry) entry.path) (checkout.entries.filter checkout.listed)

structure Reading where
  entries : List SnapshotEntry := []
  totalBytes : Nat := 0

section Reading

variable [StandardLibrary]

def workspacePath (raw : String) : Result SafeRelativePath :=
  match parseRelativePath raw with
  | .error _ => error registryWorkspaceInvalid "registry path is unsafe"
  | .ok path => .ok path

def readChild (checkout : Checkout) (reading : Reading) (entry : SnapshotEntry) : Result Reading := do
  let relative := entry.path.str
  if checkout.amongDirectories entry then
    refuse (entry.kind != .directory) registryWorkspaceInvalid ("registry managed directory is unsafe: " ++ relative)
    let path ← workspacePath relative
    return { reading with entries := reading.entries ++ [directoryAt path] }
  else
    refuse (entry.kind != .file) registryWorkspaceInvalid ("registry managed file is unsafe: " ++ relative)
    refuse (decide (maxFileBytes < entry.content.length)) registryWorkspaceInvalid "registry file exceeds size bound"
    let totalBytes := reading.totalBytes + entry.content.length
    refuse (decide (maxTotalBytes < totalBytes)) registryWorkspaceInvalid "registry exceeds total-size bound"
    let path ← workspacePath relative
    let entries := reading.entries ++ [⟨path, .file, entry.content, entry.executable⟩]
    refuse (decide (maxEntries < entries.length)) registryWorkspaceInvalid "registry exceeds entry bound"
    return ⟨entries, totalBytes⟩

/-- `FilesystemRegistryWorkspace.snapshot`. -/
def Checkout.snapshot (checkout : Checkout) : Result SourceSnapshot := do
  let reading ← checkout.walked.foldlM (readChild checkout) {}
  return SourceSnapshot.of .local reading.entries

end Reading

/-! ## Writing -/

/-- `_safe_path`. -/
def Checkout.safePath (checkout : Checkout) (path : SafeRelativePath) : Result Unit :=
  refuse ((properAncestors path).any fun above => (entryAt checkout.entries above.str).any (·.kind != .directory))
    registryWorkspaceInvalid ("registry path parent is not a real directory: " ++ path.str)

/-- `mkdir` of one directory that may be there. -/
def makeDirectory (entries : List SnapshotEntry) (directory : SafeRelativePath) : List SnapshotEntry :=
  if (entryAt entries directory.str).isSome then entries else entries ++ [directoryAt directory]

/-- `_write`: the file is written aside and moved over what stands at its path, which is no directory. -/
def Checkout.write (checkout : Checkout) (path : SafeRelativePath) (content : Bytes) (executable : Bool) :
    Result Checkout := do
  checkout.safePath path
  refuse ((entryAt checkout.entries path.str).any (·.kind == .directory)) registryWorkspaceApplyFailed
    "cannot write registry file: Is a directory"
  let written := setEntry checkout.entries ⟨path, .file, content, executable⟩
  return { checkout with entries := (properAncestors path).foldl makeDirectory written }

/-- `os.unlink`, which passes over a file that is not there. -/
def Checkout.unlink (checkout : Checkout) (path : SafeRelativePath) (failure : String) : Result Checkout := do
  refuse ((entryAt checkout.entries path.str).any (·.kind == .directory)) registryWorkspaceApplyFailed
    (failure ++ ": Is a directory")
  return { checkout with entries := deleteEntry checkout.entries path.str }

/-- `_remove`. -/
def Checkout.remove (checkout : Checkout) (path : SafeRelativePath) : Result Checkout := do
  checkout.safePath path
  checkout.unlink path "cannot remove registry file"

/-- What stood at a path before a change. -/
structure Backup where
  path : SafeRelativePath
  content : Option Bytes
  executable : Bool
deriving DecidableEq

/-- `_backup`. -/
def Checkout.backup (checkout : Checkout) (path : SafeRelativePath) : Result Backup := do
  checkout.safePath path
  match entryAt checkout.entries path.str with
  | none => return ⟨path, none, false⟩
  | some entry =>
      refuse (entry.kind != .file) registryWorkspaceInvalid
        ("registry mutation target is not a regular file: " ++ path.str)
      refuse (decide (maxFileBytes < entry.content.length)) registryWorkspaceInvalid
        "registry file changed while being read"
      return ⟨path, some entry.content, entry.executable⟩

/-! ## Rollback -/

def Checkout.restore (checkout : Checkout) (backup : Backup) : Result Checkout :=
  match backup.content with
  | none => checkout.unlink backup.path "cannot roll back registry file"
  | some content => checkout.write backup.path content backup.executable

def Checkout.restoreAll : Checkout → List Backup → Result Unit × Checkout
  | checkout, [] => (.ok (), checkout)
  | checkout, backup :: rest =>
      match checkout.restore backup with
      | .error diagnostics => (.error diagnostics, checkout)
      | .ok next => next.restoreAll rest

/-- `rmdir`, which passes over what is not there or not empty. -/
def Checkout.removeDirectory (checkout : Checkout) (directory : String) : Result Checkout :=
  match entryAt checkout.entries directory with
  | none => .ok checkout
  | some entry =>
      if entry.kind != .directory then
        error registryWorkspaceApplyFailed "cannot roll back registry directory: Not a directory"
      else if checkout.entries.any fun other => startsWith (directory ++ "/") other.path.str then .ok checkout
      else .ok { checkout with entries := deleteEntry checkout.entries directory }

def Checkout.removeDirectories : Checkout → List String → Result Unit × Checkout
  | checkout, [] => (.ok (), checkout)
  | checkout, directory :: rest =>
      match checkout.removeDirectory directory with
      | .error diagnostics => (.error diagnostics, checkout)
      | .ok next => next.removeDirectories rest

/-- The directories above the files that were not there, the deepest first. -/
def addedDirectories (backups : List Backup) : List String :=
  let parents := (backups.filter fun backup => backup.content.isNone).flatMap fun backup =>
    (properAncestors backup.path).map SafeRelativePath.str
  let deepestFirst := fun text : String => -((text.toList.count '/' : Nat) : Int)
  sortedBy deepestFirst (sortedBy id parents.dedup)

/-- `_rollback`. -/
def Checkout.rollback (checkout : Checkout) (backups : List Backup) (preserved : List String) : Result Unit × Checkout :=
  match checkout.restoreAll backups.reverse with
  | (.error diagnostics, restored) => (.error diagnostics, restored)
  | (.ok (), restored) =>
      restored.removeDirectories ((addedDirectories backups).filter fun directory => directory ∉ preserved)

/-- The failure of a step, unless the rollback fails itself. -/
def Checkout.abandon {α : Type} (checkout : Checkout) (backups : List Backup) (preserved : List String)
    (failure : List Diagnostic) : Result α × Checkout :=
  match checkout.rollback backups preserved with
  | (.ok (), restored) => (.error failure, restored)
  | (.error diagnostics, restored) => (.error diagnostics, restored)

/-! ## Applying -/

structure RegistryApplyReceipt where
  reviewDigest : ObjectDigest
  snapshotDigest : ObjectDigest
  changedPaths : Nat
deriving DecidableEq

section Applying

variable [StandardLibrary]

def Checkout.perform (checkout : Checkout) (change : RegistryWorkspaceChange) : Result Checkout :=
  if change.kind = .removed then checkout.remove change.path
  else checkout.write change.path change.content change.executable

/-- Whether the file that a change replaces is not the one that the plan saw. -/
def Backup.stale (backup : Backup) (change : RegistryWorkspaceChange) : Bool :=
  backup.content.map sha256Bytes != change.beforeDigest ||
    (backup.content.isSome && backup.executable != change.executable)

/-- The changes of a plan, one after the other. -/
def Checkout.applyChanges (preserved : List String) :
    Checkout → List Backup → List RegistryWorkspaceChange → Result (List Backup) × Checkout
  | checkout, backups, [] => (.ok backups, checkout)
  | checkout, backups, change :: rest =>
      if change.kind = .unchanged then applyChanges preserved checkout backups rest
      else
        match checkout.backup change.path with
        | .error diagnostics => checkout.abandon backups preserved diagnostics
        | .ok backup =>
            if backup.stale change then
              checkout.abandon backups preserved
                [⟨registryWorkspaceStale, "registry mutation target changed after review: " ++ change.path.str⟩]
            else
              match checkout.perform change with
              | .error diagnostics => checkout.abandon (backups ++ [backup]) preserved diagnostics
              | .ok next => applyChanges preserved next (backups ++ [backup]) rest

/-- `_apply_locked`. -/
def Checkout.applyLocked (checkout : Checkout) (plan : RegistryWorkspacePlan) : Result RegistryApplyReceipt × Checkout :=
  match checkout.snapshot with
  | .error diagnostics => (.error diagnostics, checkout)
  | .ok current =>
      match projectRegistryWorkspacePlan current plan with
      | .error _ => (error registryWorkspaceStale "registry workspace changed after review", checkout)
      | .ok projected =>
          let preserved := (current.entries.filter fun entry => entry.kind == .directory).map (·.path.str)
          match checkout.applyChanges preserved [] plan.changes with
          | (.error diagnostics, left) => (.error diagnostics, left)
          | (.ok backups, left) =>
              match left.snapshot with
              | .error diagnostics => left.abandon backups preserved diagnostics
              | .ok verified =>
                  if verified ≠ projected then
                    left.abandon backups preserved [⟨registryWorkspaceApplyFailed, "registry apply verification failed"⟩]
                  else (.ok ⟨plan.reviewDigest, plan.nextSnapshotDigest, plan.changedPaths⟩, left)

end Applying

end AgentArtifacts.RegistryCommands
