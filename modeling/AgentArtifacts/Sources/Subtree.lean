import AgentArtifacts.Sources.SnapshotDigest

/-!
# One subtree of a snapshot

`take_subtree` re-roots what stands below a path of an immutable snapshot, or the one file
that stands at it, and digests what it took.
-/

namespace AgentArtifacts

structure TakenSubtree where
  path : SafeRelativePath
  snapshot : SourceSnapshot
  inputDigest : ObjectDigest
  files : Nat
  totalBytes : Nat
deriving DecidableEq

def subtreeError {α : Type} (message : String) : Result α := error sourceInvalid message

def symlinkTarget (entry : SnapshotEntry) (link : String) : Result String :=
  match decodeUtf8 entry.content with
  | none => subtreeError ("subtree symlink target is not UTF-8: " ++ link)
  | some target => if target = "" then subtreeError ("subtree symlink has an empty target: " ++ link) else .ok target

/-- `_escapes`. -/
def escapesSubtree (link target : String) : Bool :=
  isAbs target ||
    (normPath (joinPath (dirName link) target) == ".." ||
      startsWith "../" (normPath (joinPath (dirName link) target)))

/-- The entries that are taken, under the names they get. -/
def subtreeMembers (snapshot : SourceSnapshot) (path : SafeRelativePath) : List (String × SnapshotEntry) :=
  let lead := path.str ++ "/"
  let below := (snapshot.entries.filter fun entry => startsWith lead entry.path.str).map fun entry =>
    (removePrefix lead entry.path.str, entry)
  match snapshot.entries.find? fun entry => entry.path.str == path.str with
  | some entry => if entry.kind = .file then [(path.parts.getLastD "", entry)] else below
  | none => below

/-- The loop over the members: what was taken so far. -/
structure Taking where
  entries : List SnapshotEntry := []
  files : Nat := 0
  totalBytes : Nat := 0

section Taking

variable [StandardLibrary]

def takeFile (limits : SnapshotLimits) (state : Taking) (relative : String) (path : SafeRelativePath)
    (entry : SnapshotEntry) : Result Taking :=
  if limits.maxFiles < state.files + 1 then subtreeError "the subtree exceeds the configured file-count limit"
  else if limits.maxFileBytes < entry.content.length then
    subtreeError ("the subtree file exceeds the configured size limit: " ++ relative)
  else if limits.maxTotalBytes < state.totalBytes + entry.content.length then
    subtreeError "the subtree exceeds the configured total-size limit"
  else
    .ok { entries := state.entries ++ [⟨path, .file, entry.content, entry.executable⟩], files := state.files + 1,
          totalBytes := state.totalBytes + entry.content.length }

def takeMember (limits : SnapshotLimits) (state : Taking) (member : String × SnapshotEntry) : Result Taking :=
  match parseRelativePath member.1 with
  | .error _ => subtreeError ("the subtree contains an unsafe relative path: " ++ member.2.path.str)
  | .ok path =>
      if limits.maxDepth < path.parts.length then
        subtreeError ("the subtree exceeds the configured directory depth: " ++ member.1)
      else
        match member.2.kind with
        | .symlink => do
            let target ← symlinkTarget member.2 member.1
            if escapesSubtree member.1 target then
              subtreeError ("the subtree symlink " ++ member.1 ++ " leaves it, targeting " ++ target)
            else
              subtreeError ("a canonical package cannot carry the subtree symlink " ++ member.1 ++ " targeting " ++ target)
        | .special => subtreeError ("the subtree contains a special file: " ++ member.1)
        | .directory => .ok { state with entries := state.entries ++ [directoryAt path] }
        | .file => takeFile limits state member.1 path member.2

/-- `take_subtree`. -/
def takeSubtree (snapshot : SourceSnapshot) (path : SafeRelativePath) (limits : SnapshotLimits) : Result TakenSubtree :=
  if snapshot.origin ≠ .immutableGit then
    subtreeError "a vendored subtree must be taken from an immutable Git snapshot"
  else do
    let state ← (subtreeMembers snapshot path).foldlM (takeMember limits) {}
    if state.files = 0 then subtreeError ("the requested subtree holds no files: " ++ path.str)
    else
      let taken := SourceSnapshot.of .immutableGit state.entries
      let digest ← sourceSnapshotDigest taken
      return ⟨path, taken, digest, state.files, state.totalBytes⟩

/-! ## What a taken subtree holds -/

variable {limits : SnapshotLimits}

/-- A taken subtree carries the digest of what it holds. -/
theorem takeSubtree_eq_ok {snapshot : SourceSnapshot} {path : SafeRelativePath}
    {subtree : TakenSubtree} (h : takeSubtree snapshot path limits = .ok subtree) :
    subtree.path = path ∧ sourceSnapshotDigest subtree.snapshot = .ok subtree.inputDigest := by
  unfold takeSubtree at h
  split at h
  · exact absurd h (by simp [subtreeError, error])
  · obtain ⟨state, _, h⟩ := Result.of_bind_ok h
    split at h
    · exact absurd h (by simp [subtreeError, error])
    · obtain ⟨digest, hdigest, h⟩ := Result.of_bind_ok h
      obtain rfl := Except.ok.inj h
      exact ⟨rfl, hdigest⟩

/-- The files of one step, as they are counted. -/
theorem takeMember_counts {state next : Taking} {member : String × SnapshotEntry}
    (hcount : state.files = fileCount state.entries) (h : takeMember limits state member = .ok next) :
    next.files = fileCount next.entries := by
  unfold takeMember at h
  split at h
  · exact absurd h (by simp [subtreeError, error])
  split at h
  · exact absurd h (by simp [subtreeError, error])
  split at h
  · obtain ⟨target, _, h⟩ := Result.of_bind_ok h
    split at h <;> exact absurd h (by simp [subtreeError, error])
  · exact absurd h (by simp [subtreeError, error])
  · obtain rfl := Except.ok.inj h
    rw [fileCount_snoc]
    exact hcount
  · unfold takeFile at h
    split at h
    · exact absurd h (by simp [subtreeError, error])
    split at h
    · exact absurd h (by simp [subtreeError, error])
    split at h
    · exact absurd h (by simp [subtreeError, error])
    · obtain rfl := Except.ok.inj h
      rw [fileCount_snoc]
      exact congrArg (· + 1) hcount

theorem takeMembers_count {members : List (String × SnapshotEntry)} {state final : Taking}
    (hcount : state.files = fileCount state.entries) (h : members.foldlM (takeMember limits) state = .ok final) :
    final.files = fileCount final.entries := by
  induction members generalizing state with
  | nil =>
      obtain rfl := Except.ok.inj h
      exact hcount
  | cons member rest ih =>
      rw [List.foldlM_cons] at h
      obtain ⟨next, hnext, h⟩ := Result.of_bind_ok h
      exact ih (takeMember_counts hcount hnext) h

/-- A taken subtree holds a file. -/
theorem exists_file_of_takeSubtree {snapshot : SourceSnapshot} {path : SafeRelativePath}
    {subtree : TakenSubtree} (h : takeSubtree snapshot path limits = .ok subtree) :
    ∃ entry ∈ subtree.snapshot.entries, entry.kind = .file := by
  unfold takeSubtree at h
  split at h
  · exact absurd h (by simp [subtreeError, error])
  · obtain ⟨state, hstate, h⟩ := Result.of_bind_ok h
    split at h
    · exact absurd h (by simp [subtreeError, error])
    · rename_i hfiles
      obtain ⟨digest, hdigest, h⟩ := Result.of_bind_ok h
      obtain rfl := Except.ok.inj h
      rw [takeMembers_count rfl hstate] at hfiles
      obtain ⟨entry, hentry, hfile⟩ := List.countP_pos_iff.mp (Nat.pos_of_ne_zero hfiles)
      exact ⟨entry, (perm_sortByPath _).mem_iff.mpr hentry, by simpa [SnapshotEntry.isFile] using hfile⟩

end Taking

end AgentArtifacts
