import AgentArtifacts.Protocol.Hashing

/-!
# Path snapshots

What the adapter observes at one path. A snapshot binds its exact state: the
content and executable bit of a file, every member of a directory tree, the
target of a link and whether it resolves. Under collision freedom the digest of
a snapshot determines the bytes it was taken of.
-/

namespace AgentArtifacts

/-! ## Directory trees -/

inductive TreeMember where
  | directory (path : SafeRelativePath)
  | file (path : SafeRelativePath) (content : Bytes) (executable : Bool)
deriving DecidableEq

def TreeMember.path : TreeMember → SafeRelativePath
  | .directory path => path
  | .file path _ _ => path

/-- The directories above a member. -/
def properAncestors (path : SafeRelativePath) : List SafeRelativePath :=
  (List.range path.parts.length).filterMap fun n =>
    if n = 0 then none else some ⟨path.parts.take n⟩

def holdsAncestors (members : List TreeMember) : Bool :=
  members.all fun member => (properAncestors member.path).all fun ancestor =>
    members.contains (.directory ancestor)

/-- The members of a directory that exists on disk, in path order: there is at
least one, and every directory above a member is a member. -/
structure DirectoryTree where
  members : List TreeMember
  nonempty : members ≠ []
  sorted : members.Pairwise fun a b => a.path.str < b.path.str
  closed : holdsAncestors members = true
deriving DecidableEq

def sortMembers (members : List TreeMember) : List TreeMember :=
  members.insertionSort fun a b => a.path.str ≤ b.path.str

/-- The members brought into path order, if they form a directory. -/
def DirectoryTree.ofMembers (members : List TreeMember) : Option DirectoryTree :=
  let ordered := sortMembers members
  if h : ordered ≠ [] ∧ (ordered.Pairwise fun a b => a.path.str < b.path.str) ∧
      holdsAncestors ordered = true then
    some ⟨ordered, h.1, h.2.1, h.2.2⟩
  else none

section Digests

variable [StandardLibrary]

def TreeMember.entry : TreeMember → TreeEntry
  | .directory path => .directory path
  | .file path content executable =>
      .file path executable content.length (sha256Bytes content)

def treeMembersDigest (tree : DirectoryTree) : Result ObjectDigest :=
  treeDigest (tree.members.map TreeMember.entry)

def fileSnapshotDigest (content : Bytes) (executable : Bool) : ObjectDigest :=
  sha256Bytes (encodeUtf8 "file" ++ [0] ++ (if executable then [120] else [45]) ++
    Framing.bigEndian 8 content.length ++ content)

def linkSnapshotDigest (target : String) : ObjectDigest :=
  sha256Bytes (encodeUtf8 "symlink" ++ [0] ++ encodeUtf8 target)

end Digests

/-! ## Snapshots -/

inductive Observed where
  | absent
  | file (content : Bytes) (executable : Bool)
  | tree (directory : DirectoryTree)
  | symlink (target : String) (targetExists : Bool)
  | special (digest : ObjectDigest)
deriving DecidableEq

structure PathSnapshot where
  path : String
  state : Observed
deriving DecidableEq

def Observed.isAbsent : Observed → Bool
  | .absent => true
  | _ => false

def Observed.kind : Observed → String
  | .absent => "absent"
  | .file _ _ => "file"
  | .tree _ => "tree"
  | .symlink _ _ => "symlink"
  | .special _ => "special"

variable [StandardLibrary]

/-- A tree whose members cannot be hashed has no digest, and is never observed. -/
def Observed.digest? : Observed → Option ObjectDigest
  | .absent => none
  | .file content executable => some (fileSnapshotDigest content executable)
  | .tree directory => (treeMembersDigest directory).toOption
  | .symlink target _ => some (linkSnapshotDigest target)
  | .special digest => some digest

/-! ## Digests determine contents -/

theorem fileSnapshotDigest_injective (hfree : CollisionFree) {a b : Bytes} {x y : Bool}
    (h : fileSnapshotDigest a x = fileSnapshotDigest b y) : a = b ∧ x = y := by
  have hbytes := sha256Bytes_injective hfree h
  simp only [List.append_assoc] at hbytes
  have hmarked := List.append_cancel_left (List.append_cancel_left hbytes)
  have hbit : (if x = true then ([120] : Bytes) else [45]).length =
      (if y = true then ([120] : Bytes) else [45]).length := by
    cases x <;> cases y <;> rfl
  obtain ⟨hmarker, hrest⟩ := List.append_inj hmarked hbit
  have hcontent := (List.append_inj hrest (by simp)).2
  refine ⟨hcontent, ?_⟩
  cases x <;> cases y <;> simp_all

private theorem pairwise_sortTree (tree : DirectoryTree) :
    sortTree (tree.members.map TreeMember.entry) = tree.members.map TreeMember.entry := by
  refine List.Pairwise.insertionSort_eq ?_
  rw [List.pairwise_map]
  refine tree.sorted.imp ?_
  intro a b hab
  have hpath (member : TreeMember) : (TreeMember.entry member).path = member.path := by
    cases member <;> rfl
  rw [hpath, hpath]
  exact le_of_lt hab

private theorem members_eq_of_records (hfree : CollisionFree) {left right : List TreeMember}
    {records : List Bytes}
    (hleft : List.Forall₂ (fun entry record => treeRecord entry = .ok record)
      (left.map TreeMember.entry) records)
    (hright : List.Forall₂ (fun entry record => treeRecord entry = .ok record)
      (right.map TreeMember.entry) records) : left = right := by
  induction left generalizing right records with
  | nil =>
      cases hleft
      cases right with
      | nil => rfl
      | cons b bs => cases hright
  | cons a as ih =>
      cases hleft with
      | cons ha has =>
          cases right with
          | nil => cases hright
          | cons b bs =>
              cases hright with
              | cons hb hbs =>
                  have hrest : as = bs := ih has hbs
                  have hhead := treeRecord_injective ha hb
                  cases a with
                  | directory p =>
                      cases b with
                      | directory q =>
                          simp only [TreeMember.entry] at hhead
                          rw [hhead, hrest]
                      | file q c y => exact hhead.elim
                  | file p c x =>
                      cases b with
                      | directory q => exact hhead.elim
                      | file q d y =>
                          simp only [TreeMember.entry, digestOctets_sha256Bytes] at hhead
                          obtain ⟨hp, hx, -, hc⟩ := hhead
                          rw [hp, hx, hfree hc, hrest]

variable {digest : ObjectDigest}

theorem treeMembersDigest_injective (hfree : CollisionFree) {a b : DirectoryTree} (ha : treeMembersDigest a = .ok digest)
    (hb : treeMembersDigest b = .ok digest) : a = b := by
  obtain ⟨records, hra, hrb⟩ := treeDigest_records_eq hfree ha hb
  rw [pairwise_sortTree] at hra hrb
  have hmembers := members_eq_of_records hfree (treeRecords_eq_ok hra).1 (treeRecords_eq_ok hrb).1
  cases a
  cases b
  simpa using hmembers

/-! ## Kinds of digests -/

omit [StandardLibrary] in
theorem encodeUtf8_file : encodeUtf8 "file" = [102, 105, 108, 101] := by decide

omit [StandardLibrary] in
theorem encodeUtf8_symlink : encodeUtf8 "symlink" = [115, 121, 109, 108, 105, 110, 107] := by decide

omit [StandardLibrary] in
theorem treeHeader_eq : treeHeader = [65, 65, 82, 84, 45, 84, 82, 69, 69, 45, 86, 49, 0] := by decide

theorem fileSnapshotDigest_ne_link (hfree : CollisionFree) (content : Bytes) (executable : Bool)
    (target : String) : fileSnapshotDigest content executable ≠ linkSnapshotDigest target := by
  intro heq
  have hbytes := sha256Bytes_injective hfree heq
  rw [encodeUtf8_file, encodeUtf8_symlink] at hbytes
  exact absurd hbytes (by simp)

variable {tree : DirectoryTree}

theorem treeMembersDigest_payload
    (h : treeMembersDigest tree = .ok digest) : ∃ rest, digest = sha256Bytes (treeHeader ++ rest) := by
  unfold treeMembersDigest treeDigest at h
  simp only at h
  split at h
  · obtain ⟨records, _, h⟩ := Result.of_bind_ok h
    exact ⟨_, (Except.ok.inj h).symm⟩
  · exact absurd h (by simp [invalidTree, error])

theorem treeMembersDigest_ne_file (hfree : CollisionFree)
    (h : treeMembersDigest tree = .ok digest) (content : Bytes) (executable : Bool) :
    digest ≠ fileSnapshotDigest content executable := by
  rintro rfl
  obtain ⟨rest, heq⟩ := treeMembersDigest_payload h
  have hbytes := sha256Bytes_injective hfree heq
  rw [encodeUtf8_file, treeHeader_eq] at hbytes
  exact absurd hbytes (by simp)

theorem treeMembersDigest_ne_link (hfree : CollisionFree)
    (h : treeMembersDigest tree = .ok digest) (target : String) : digest ≠ linkSnapshotDigest target := by
  rintro rfl
  obtain ⟨rest, heq⟩ := treeMembersDigest_payload h
  have hbytes := sha256Bytes_injective hfree heq
  rw [encodeUtf8_symlink, treeHeader_eq] at hbytes
  exact absurd hbytes (by simp)

/-- Only a file has the digest of a file. -/
theorem Observed.eq_file_of_digest (hfree : CollisionFree) {observed : Observed} {content : Bytes}
    {executable : Bool} (hspecial : ∀ digest, observed ≠ .special digest)
    (h : observed.digest? = some (fileSnapshotDigest content executable)) :
    observed = .file content executable := by
  cases observed with
  | absent => exact absurd h (by simp [Observed.digest?])
  | file found bit =>
      obtain ⟨rfl, rfl⟩ := fileSnapshotDigest_injective hfree (Option.some.inj h)
      rfl
  | tree directory =>
      cases hdigest : treeMembersDigest directory with
      | error diagnostics => exact absurd h (by simp [Observed.digest?, hdigest, Except.toOption])
      | ok digest =>
          have heq : digest = fileSnapshotDigest content executable := by
            simpa [Observed.digest?, hdigest, Except.toOption] using h
          exact absurd heq (treeMembersDigest_ne_file hfree hdigest content executable)
  | symlink target targetExists =>
      exact absurd (Option.some.inj h).symm (fileSnapshotDigest_ne_link hfree content executable target)
  | special digest => exact absurd rfl (hspecial digest)

/-- Only a tree has the digest of a tree. -/
theorem Observed.eq_tree_of_digest (hfree : CollisionFree) {observed : Observed}
    (htree : treeMembersDigest tree = .ok digest)
    (hspecial : ∀ digest, observed ≠ .special digest) (h : observed.digest? = some digest) :
    observed = .tree tree := by
  cases observed with
  | absent => exact absurd h (by simp [Observed.digest?])
  | file content executable =>
      exact absurd (Option.some.inj h).symm (treeMembersDigest_ne_file hfree htree content executable)
  | tree directory =>
      cases hdigest : treeMembersDigest directory with
      | error diagnostics => exact absurd h (by simp [Observed.digest?, hdigest, Except.toOption])
      | ok found =>
          have heq : found = digest := by simpa [Observed.digest?, hdigest, Except.toOption] using h
          rw [heq] at hdigest
          rw [treeMembersDigest_injective hfree hdigest htree]
  | symlink target targetExists =>
      exact absurd (Option.some.inj h).symm (treeMembersDigest_ne_link hfree htree target)
  | special found => exact absurd rfl (hspecial found)

end AgentArtifacts
