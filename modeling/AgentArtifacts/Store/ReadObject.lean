import AgentArtifacts.Redaction
import AgentArtifacts.Store.EnvelopeReading

/-!
# Reading an object

An object is read from its directory: every limit is checked on the way, and what was found
is made a candidate of the digest that the directory is named by. A directory that holds the
entries of a candidate is read as that candidate, in whatever order it is visited.
-/

namespace AgentArtifacts.ObjectStore

def storeUnavailable : DiagnosticCode := ⟨"store-unavailable"⟩

def storeUnsafeEntry : DiagnosticCode := ⟨"store-unsafe-entry"⟩

/-- A directory on the way: how far it is below the root, and what it holds. -/
structure Visit where
  depth : Nat
  children : List SnapshotEntry
deriving DecidableEq

/-- A directory on disk as it is walked over: its directories in the order of the visits. The
path of a child is its text below the root, as yet unchecked. -/
abbrev DiskTree := List Visit

deriving instance DecidableEq for Envelope

structure StoredObject [StandardLibrary] where
  candidate : Envelope
  root : String
deriving DecidableEq

section Reading

variable [StandardLibrary] [Redaction]

/-- `_error`. -/
def storeFault {α : Type} (code : DiagnosticCode) (message : String) : Result α :=
  error code (Redaction.redactText message)

/-- `_unavailable`. -/
def unavailable {α : Type} (message : String) : Result α := storeFault storeUnavailable message

structure Walked where
  entries : List SnapshotEntry := []
  fileCount : Nat := 0
  entryCount : Nat := 0
  totalBytes : Nat := 0
deriving DecidableEq

def readFile (state : Walked) (child : SnapshotEntry) (path : SafeRelativePath) : Result Walked :=
  let fileCount := state.fileCount + 1
  let totalBytes := state.totalBytes + child.content.length
  if fileCount > maxFiles ∨ child.content.length > maxFileBytes then
    storeFault storeInvalid "artifact object exceeds file bounds"
  else if totalBytes > maxTotalBytes then storeFault storeInvalid "artifact object exceeds total-size bound"
  else .ok { state with entries := state.entries ++ [⟨path, .file, child.content, child.executable⟩], fileCount, totalBytes }

def readChild (state : Walked) (child : SnapshotEntry) : Result Walked :=
  let relative := child.path.str
  let entryCount := state.entryCount + 1
  if entryCount > maxEntries then storeFault storeInvalid "artifact object exceeds maximum entry count"
  else
    match parseRelativePath relative with
    | .error _ => storeFault storeUnsafeEntry ("artifact object path is unsafe: " ++ pyRepr relative)
    | .ok path =>
        match child.kind with
        | .symlink => storeFault storeUnsafeEntry ("artifact object symlink is forbidden: " ++ relative)
        | .directory => .ok { state with entries := state.entries ++ [directoryAt path], entryCount }
        | .special => storeFault storeUnsafeEntry ("artifact object special file is forbidden: " ++ relative)
        | .file => readFile { state with entryCount } child path

def readDirectory (state : Walked) (visit : Visit) : Result Walked :=
  if visit.depth > maxEntryDepth then storeFault storeInvalid "artifact object exceeds maximum depth"
  else visit.children.foldlM readChild state

/-- `_read_candidate`. -/
def readCandidate (tree : DiskTree) (expected : ObjectDigest) : Result Envelope := do
  let walked ← tree.foldlM readDirectory {}
  makeObjectCandidate walked.entries (some expected)

/-- `read_object`, of a store whose directories are real. -/
def readObject (root : String) (target : Option DiskTree) (digest : ObjectDigest) : Result (Option StoredObject) :=
  match target with
  | none => .ok none
  | some tree => do
      let candidate ← readCandidate tree digest
      return some ⟨candidate, root⟩

/-! ## A directory that holds a candidate -/

/-- The directory holds the entries, each once, and has no directories but theirs. -/
structure HoldsEntries (tree : DiskTree) (entries : List SnapshotEntry) : Prop where
  members : (tree.flatMap (·.children)).Perm entries
  depths : ∀ visit ∈ tree, visit.depth = 0 ∨
    ∃ directory ∈ entries, directory.kind = .directory ∧ directory.path.parts.length = visit.depth

/-- What is left to check of children, one after another. -/
structure Walkable (state : Walked) (children : List SnapshotEntry) : Prop where
  paths : ∀ child ∈ children, Canonical child.path
  shape : ∀ child ∈ children, child.plain
  count : state.entryCount + children.length ≤ maxEntries
  files : state.fileCount + fileCount children ≤ maxFiles
  bytes : state.totalBytes + totalBytes children ≤ maxTotalBytes

def Walked.after (state : Walked) (children : List SnapshotEntry) : Walked :=
  ⟨state.entries ++ children, state.fileCount + AgentArtifacts.fileCount children, state.entryCount + children.length,
    state.totalBytes + AgentArtifacts.totalBytes children⟩

omit [StandardLibrary] [Redaction] in
theorem fileCount_cons (child : SnapshotEntry) (rest : List SnapshotEntry) :
    fileCount (child :: rest) = child.files + fileCount rest := by
  rw [fileCount, List.countP_cons, SnapshotEntry.files, fileCount]
  omega

omit [StandardLibrary] [Redaction] in
theorem totalBytes_cons (child : SnapshotEntry) (rest : List SnapshotEntry) :
    totalBytes (child :: rest) = child.octets + totalBytes rest := by
  cases hfile : child.isFile <;> simp [totalBytes, SnapshotEntry.octets, hfile]

omit [StandardLibrary] [Redaction] in
theorem fileCount_singleton (child : SnapshotEntry) : fileCount [child] = child.files := fileCount_cons child []

omit [StandardLibrary] [Redaction] in
theorem totalBytes_singleton (child : SnapshotEntry) : totalBytes [child] = child.octets := totalBytes_cons child []

variable {state : Walked}

theorem readChild_eq_ok {child : SnapshotEntry} {rest : List SnapshotEntry}
    (h : Walkable state (child :: rest)) : readChild state child = .ok (state.after [child]) := by
  have hparsed : parseRelativePath child.path.str = .ok child.path := h.paths child List.mem_cons_self
  have hplain := h.shape child List.mem_cons_self
  have hcount := h.count
  have hfiles := h.files
  have hbytes := h.bytes
  rw [List.length_cons] at hcount
  rw [fileCount_cons] at hfiles
  rw [totalBytes_cons] at hbytes
  obtain ⟨path, kind, content, executable⟩ := child
  unfold readChild
  simp only [hparsed, if_neg (by omega : ¬ state.entryCount + 1 > maxEntries)]
  cases kind with
  | symlink => exact hplain.elim
  | special => exact hplain.elim
  | directory =>
      obtain ⟨hcontent, hbit⟩ : content = [] ∧ executable = false := hplain
      subst hcontent hbit
      simp [Walked.after, directoryAt, fileCount, totalBytes, SnapshotEntry.isFile]
  | file =>
      have hlength : content.length ≤ maxFileBytes := hplain
      simp only [SnapshotEntry.files, SnapshotEntry.octets, SnapshotEntry.isFile, beq_self_eq_true, if_true] at hfiles hbytes
      dsimp only
      rw [readFile, if_neg (by dsimp only; omega), if_neg (by dsimp only; omega)]
      simp [Walked.after, fileCount, totalBytes, SnapshotEntry.isFile]

omit [Redaction] in
theorem Walkable.tail {child : SnapshotEntry} {rest : List SnapshotEntry}
    (h : Walkable state (child :: rest)) : Walkable (state.after [child]) rest := by
  have hcount := h.count
  have hfiles := h.files
  have hbytes := h.bytes
  rw [List.length_cons] at hcount
  rw [fileCount_cons] at hfiles
  rw [totalBytes_cons] at hbytes
  refine ⟨fun other hother => h.paths other (List.mem_cons_of_mem _ hother),
    fun other hother => h.shape other (List.mem_cons_of_mem _ hother), ?_, ?_, ?_⟩
  · simp only [Walked.after, List.length_singleton]
    omega
  · simp only [Walked.after, fileCount_singleton]
    omega
  · simp only [Walked.after, totalBytes_singleton]
    omega

omit [StandardLibrary] [Redaction] in
theorem after_cons (state : Walked) (child : SnapshotEntry) (rest : List SnapshotEntry) :
    (state.after [child]).after rest = state.after (child :: rest) := by
  simp only [Walked.after, fileCount_cons child rest, totalBytes_cons child rest, fileCount_singleton,
    totalBytes_singleton, List.length_cons, List.length_nil, List.append_assoc, List.singleton_append]
  congr 1 <;> omega

/-- By the children, each of which is checked against those before it. -/
theorem readChildren_eq_ok {children : List SnapshotEntry} (h : Walkable state children) :
    children.foldlM readChild state = .ok (state.after children) := by
  induction children generalizing state with
  | nil =>
      rw [List.foldlM_nil, Walked.after, List.append_nil]
      rfl
  | cons child rest ih =>
      rw [List.foldlM_cons, readChild_eq_ok h, ← after_cons state child rest]
      exact ih h.tail

omit [Redaction] in
theorem Walkable.append {children others : List SnapshotEntry} (h : Walkable state (children ++ others)) :
    Walkable state children ∧ Walkable (state.after children) others := by
  induction children generalizing state with
  | nil =>
      have hcount := h.count
      refine ⟨⟨by simp, by simp, ?_, ?_, ?_⟩, ?_⟩
      · simp only [List.nil_append, List.length_nil] at hcount ⊢
        omega
      · have hfiles := h.files
        simp only [List.nil_append] at hfiles
        simp only [fileCount, List.countP_nil]
        omega
      · have hbytes := h.bytes
        simp only [List.nil_append] at hbytes
        simp only [totalBytes, List.filter_nil, List.map_nil, List.sum_nil]
        omega
      · have hsame : state.after [] = state := by simp [Walked.after, fileCount, totalBytes]
        rw [hsame]
        exact h
  | cons child rest ih =>
      obtain ⟨hrest, hothers⟩ := ih h.tail
      rw [after_cons] at hothers
      refine ⟨⟨?_, ?_, ?_, ?_, ?_⟩, hothers⟩
      · exact fun other hother => h.paths other (List.mem_append_left _ hother)
      · exact fun other hother => h.shape other (List.mem_append_left _ hother)
      · have hcount := h.count
        rw [List.length_append] at hcount
        omega
      · have hfiles := h.files
        rw [fileCount, List.countP_append] at hfiles
        rw [fileCount]
        omega
      · have hbytes := h.bytes
        rw [totalBytes, List.filter_append, List.map_append, List.sum_append] at hbytes
        rw [totalBytes]
        omega

theorem readDirectories_eq_ok {tree : DiskTree} (hdepth : ∀ visit ∈ tree, visit.depth ≤ maxEntryDepth)
    (h : Walkable state (tree.flatMap (·.children))) :
    tree.foldlM readDirectory state = .ok (state.after (tree.flatMap (·.children))) := by
  induction tree generalizing state with
  | nil => simp [Walked.after, fileCount, totalBytes, pure, Except.pure]
  | cons visit rest ih =>
      rw [List.forall_mem_cons] at hdepth
      rw [List.flatMap_cons] at h ⊢
      obtain ⟨hchildren, hrest⟩ := h.append
      rw [List.foldlM_cons, readDirectory, if_neg (by omega), readChildren_eq_ok hchildren]
      refine (ih hdepth.2 hrest).trans ?_
      simp only [Walked.after, fileCount, totalBytes, List.append_assoc, List.countP_append, List.length_append,
        List.filter_append, List.map_append, List.sum_append, Nat.add_assoc]

/-- A directory that holds what was written of a candidate is read as the candidate. -/
theorem readCandidate_written (candidate : Envelope) {tree : DiskTree} (h : HoldsEntries tree candidate.entries) :
    readCandidate tree candidate.digest = .ok candidate := by
  obtain ⟨hcollectable, hcount⟩ := collectable_of_normalized candidate.normalized
  have hchildren := hcollectable.perm h.members.symm
  have hdepth : ∀ visit ∈ tree, visit.depth ≤ maxEntryDepth := by
    intro visit hvisit
    obtain hroot | ⟨directory, hdirectory, _, hlength⟩ := h.depths visit hvisit
    · rw [hroot]
      exact Nat.zero_le _
    · rw [← hlength]
      exact hcollectable.depth directory hdirectory
  have hwalk : Walkable {} (tree.flatMap (·.children)) := by
    refine ⟨hchildren.paths, hchildren.shape, ?_, ?_, ?_⟩
    · rw [h.members.length_eq, Nat.zero_add]
      exact hcount
    · rw [Nat.zero_add]
      exact hchildren.files
    · rw [Nat.zero_add]
      exact hchildren.bytes
  unfold readCandidate
  rw [readDirectories_eq_ok hdepth hwalk]
  exact makeObjectCandidate_of_perm candidate (by simpa [Walked.after] using h.members.symm)

end Reading

end AgentArtifacts.ObjectStore
