import AgentArtifacts.InstallState.Model
import AgentArtifacts.Installation.Model

/-!
# The world of the local adapter

Paths hold nodes, state paths hold manifests, and one reference index and one
object store belong to the data root. Inspection turns a node into a snapshot,
and restoring a snapshot puts back the node it was taken of, for every kind of
node except the ones the adapter refuses to recreate. What planning relies on of the
codec of manifests is that a manifest written by the store is read back as the state that
was written, whenever the reader accepts it.
-/

/-! ## The manifest codec -/

namespace AgentArtifacts

class ManifestCodec where
  installStateBytes : InstallState → Bytes
  parseInstallState : Bytes → Result InstallState
  parse_bytes : ∀ {state parsed : InstallState},
    parseInstallState (installStateBytes state) = .ok parsed → parsed = state

export ManifestCodec (installStateBytes parseInstallState)

/-- The codec of a table of states: a state is written as its place in the table,
and nothing else is a manifest. -/
@[reducible] def tableCodec (states : List InstallState) : ManifestCodec where
  installStateBytes state := List.replicate (states.idxOf state + 1) 123
  parseInstallState data :=
    match states[data.length - 1]? with
    | some state => .ok state
    | none => error ⟨"install-state-invalid"⟩ "installation state is not in the table"
  parse_bytes := by
    intro state parsed h
    simp only [List.length_replicate, Nat.add_sub_cancel] at h
    by_cases hmem : state ∈ states
    · rw [List.getElem?_idxOf hmem] at h
      exact (Except.ok.inj h).symm
    · have hnone : states[states.idxOf state]? = none := by
        rw [List.idxOf_eq_length hmem]
        simp
      rw [hnone] at h
      exact absurd h (by simp [error])

/-! ## Nodes and snapshots -/

/-! ## Nodes -/

/-- What lies at a path. An unreadable node is one that inspection rejects: an
empty directory, a tree with links or special entries, an oversized file. -/
inductive Node where
  | absent
  | file (content : Bytes) (executable : Bool)
  | directory (tree : DirectoryTree)
  | symlink (target : String)
  | special (digest : ObjectDigest)
  | unreadable (reason : String)
deriving DecidableEq

/-- `resolves` tells whether the link at a path with a target leads somewhere,
and `direct` whether a path below a boundary is reached without a link. -/
structure World where
  files : String → Node
  manifests : String → Node
  references : ReferenceIndex
  objects : ObjectDigest → Option StoredObject
  resolves : String → String → Bool
  direct : String → String → Bool

namespace World

def setFile (world : World) (path : String) (node : Node) : World :=
  { world with files := Function.update world.files path node }

def setManifest (world : World) (path : String) (node : Node) : World :=
  { world with manifests := Function.update world.manifests path node }

def setReferences (world : World) (references : ReferenceIndex) : World :=
  { world with references := references }

@[simp] theorem setFile_files (world : World) (path : String) (node : Node) :
    (world.setFile path node).files = Function.update world.files path node := rfl

@[simp] theorem setFile_manifests (world : World) (path : String) (node : Node) :
    (world.setFile path node).manifests = world.manifests := rfl

@[simp] theorem setFile_references (world : World) (path : String) (node : Node) :
    (world.setFile path node).references = world.references := rfl

@[simp] theorem setFile_resolves (world : World) (path : String) (node : Node) :
    (world.setFile path node).resolves = world.resolves := rfl

@[simp] theorem setManifest_files (world : World) (path : String) (node : Node) :
    (world.setManifest path node).files = world.files := rfl

@[simp] theorem setManifest_manifests (world : World) (path : String) (node : Node) :
    (world.setManifest path node).manifests = Function.update world.manifests path node := rfl

@[simp] theorem setManifest_references (world : World) (path : String) (node : Node) :
    (world.setManifest path node).references = world.references := rfl

@[simp] theorem setReferences_files (world : World) (references : ReferenceIndex) :
    (world.setReferences references).files = world.files := rfl

@[simp] theorem setReferences_manifests (world : World) (references : ReferenceIndex) :
    (world.setReferences references).manifests = world.manifests := rfl

@[simp] theorem setReferences_references (world : World) (references : ReferenceIndex) :
    (world.setReferences references).references = references := rfl

end World

variable [StandardLibrary]

/-! ## Inspection -/

def installIoFailed : DiagnosticCode := ⟨"install-io-failed"⟩

/-- The snapshot of a node, or why it cannot be taken. -/
def observe (resolves : String → Bool) : Node → Except String Observed
  | .absent => .ok .absent
  | .file content executable => .ok (.file content executable)
  | .directory tree =>
      if (treeMembersDigest tree).toBool then .ok (.tree tree) else .error "tree members cannot be hashed"
  | .symlink target => .ok (.symlink target (resolves target))
  | .special digest => .ok (.special digest)
  | .unreadable reason => .error reason

def inspectNode (path : String) (resolves : String → Bool) (node : Node) : Result Observed :=
  if isAbsolutePath path then
    match observe resolves node with
    | .ok observed => .ok observed
    | .error reason => error installIoFailed ("cannot inspect install path " ++ path ++ ": " ++ reason)
  else error installIoFailed ("install inspection path is unsafe: " ++ path)

namespace World

def inspectPath (world : World) (path : String) : Result Observed :=
  inspectNode path (world.resolves path) (world.files path)

def inspectState (world : World) (path : String) : Result Observed :=
  inspectNode path (world.resolves path) (world.manifests path)

/-- The snapshot of a link target that lies below its boundary and is reached
from it without another link. -/
def inspectLinkTarget (world : World) (path boundary : String) : Result Observed :=
  if !isAbsolutePath path || !isAbsolutePath boundary then
    error installIoFailed "link target or boundary is unsafe"
  else if commonPath boundary path ≠ some boundary then
    error installIoFailed "link target escapes its reviewed boundary"
  else if !world.direct path boundary then
    error installIoFailed "link target crosses an unreviewed intermediate symlink"
  else world.inspectPath path

def readState [ManifestCodec] (world : World) (path : String) : Result (Option InstallState) := do
  match ← world.inspectState path with
  | .absent => return none
  | .file content _ => (parseInstallState content).map some
  | _ => error installIoFailed ("installation state is not a regular file: " ++ path)

end World

theorem inspectNode_eq_ok {path : String} {resolves : String → Bool} {node : Node}
    {observed : Observed} (h : inspectNode path resolves node = .ok observed) :
    isAbsolutePath path = true ∧ observe resolves node = .ok observed := by
  unfold inspectNode at h
  split at h
  · rename_i habs
    split at h
    · rename_i found hfound
      refine ⟨habs, ?_⟩
      rw [hfound, Except.ok.inj h]
    · exact absurd h (by simp [error])
  · exact absurd h (by simp [error])

/-- Only a regular file is observed as one. -/
theorem node_of_observe_file {resolves : String → Bool} {node : Node} {content : Bytes}
    {executable : Bool} (h : observe resolves node = .ok (.file content executable)) :
    node = .file content executable := by
  cases node with
  | file found bit => simpa [observe] using h
  | directory tree =>
      simp only [observe] at h
      split at h <;> exact absurd h (by simp)
  | absent => exact absurd h (by simp [observe])
  | symlink target => exact absurd h (by simp [observe])
  | special digest => exact absurd h (by simp [observe])
  | unreadable reason => exact absurd h (by simp [observe])

/-! ## Restoring -/

/-- The node a snapshot is restored to. -/
def restoredNode : Observed → Except String Node
  | .absent => .ok .absent
  | .file content executable => .ok (.file content executable)
  | .tree tree => .ok (.directory tree)
  | .symlink target _ => .ok (.symlink target)
  | .special _ => .error "cannot restore unsafe install path kind: special"

def Observed.restorable : Observed → Bool
  | .special _ => false
  | _ => true

/-- Restoring what was observed puts the observed node back. -/
theorem restoredNode_of_observe {resolves : String → Bool} {node : Node} {observed : Observed}
    (h : observe resolves node = .ok observed) (hrestorable : observed.restorable = true) :
    restoredNode observed = .ok node := by
  cases node with
  | absent => rw [← Except.ok.inj h]; rfl
  | file content executable => rw [← Except.ok.inj h]; rfl
  | symlink target => rw [← Except.ok.inj h]; rfl
  | special digest =>
      rw [← Except.ok.inj h] at hrestorable
      exact absurd hrestorable (by simp [Observed.restorable])
  | unreadable reason => exact absurd h (by simp [observe])
  | directory tree =>
      simp only [observe] at h
      split at h
      · rw [← Except.ok.inj h]; rfl
      · exact absurd h (by simp)

end AgentArtifacts
