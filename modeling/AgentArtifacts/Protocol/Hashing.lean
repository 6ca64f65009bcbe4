import AgentArtifacts.Library.Framing
import AgentArtifacts.Protocol.Paths

/-!
# Document and tree hashing

Digests of bytes, of canonical JSON and of trees. A tree is hashed as the
frames of its records in path order; the records determine the paths, the
executable bits and the content digests of the tree.
-/

namespace AgentArtifacts

variable [StandardLibrary]

def sha256Bytes (data : Bytes) : ObjectDigest :=
  ⟨String.ofList (Framing.hexChars (StandardLibrary.sha256 data))⟩

def jsonDigest (value : Json) : ObjectDigest := sha256Bytes (canonicalJsonBytes value)

/-- Distinct bytes have distinct digests, as reviews and proofs of ownership assume. -/
def CollisionFree : Prop := Function.Injective StandardLibrary.sha256

/-- `bytes.fromhex` of the digest text. -/
def digestOctets (digest : ObjectDigest) : Bytes := Framing.unhexChars digest.value.toList

@[simp] theorem digestOctets_sha256Bytes (data : Bytes) :
    digestOctets (sha256Bytes data) = StandardLibrary.sha256 data := by
  simp [digestOctets, sha256Bytes, Framing.unhexChars_hexChars]

theorem sha256Bytes_injective (hfree : CollisionFree) {a b : Bytes}
    (h : sha256Bytes a = sha256Bytes b) : a = b := by
  have hraw := congrArg digestOctets h
  rw [digestOctets_sha256Bytes, digestOctets_sha256Bytes] at hraw
  exact hfree hraw

/-! ## Trees -/

inductive TreeEntry where
  | directory (path : SafeRelativePath)
  | file (path : SafeRelativePath) (executable : Bool) (size : Nat) (contentDigest : ObjectDigest)
deriving DecidableEq

def TreeEntry.path : TreeEntry → SafeRelativePath
  | .directory path => path
  | .file path _ _ _ => path

def treeInvalid : DiagnosticCode := ⟨"protocol-tree-invalid"⟩

def invalidTree {α : Type} (message : String) : Result α := error treeInvalid message

/-- Lengths have to fit the eight octets of their frame. -/
def checkedFrame (data : Bytes) : Result Bytes :=
  if data.length < 256 ^ 8 then .ok (Framing.frame data) else invalidTree "int too big to convert"

def treeRecord (entry : TreeEntry) : Result Bytes :=
  if parseRelativePath entry.path.str ≠ .ok entry.path then
    invalidTree ("tree entry path is not canonical: " ++ entry.path.str)
  else do
    let path ← checkedFrame (encodeUtf8 entry.path.str)
    match entry with
    | .directory _ => return 68 :: path
    | .file _ executable size contentDigest =>
        if size < 256 ^ 8 then
          return 70 :: path ++ (if executable then [1] else [0]) ++ Framing.bigEndian 8 size ++
            digestOctets contentDigest
        else invalidTree ("file entry has incomplete metadata: " ++ entry.path.str)

/-- Records in the order of the entries, each in its frame. -/
def treeRecords : List TreeEntry → Result (List Bytes)
  | [] => .ok []
  | entry :: rest => do
      let record ← treeRecord entry
      let _ ← checkedFrame record
      let records ← treeRecords rest
      return record :: records

def treeHeader : Bytes := encodeUtf8 "AART-TREE-V1" ++ [0]

def sortTree (entries : List TreeEntry) : List TreeEntry :=
  entries.insertionSort fun a b => a.path.str ≤ b.path.str

def treeDigest (entries : List TreeEntry) : Result ObjectDigest :=
  let ordered := sortTree entries
  if (ordered.map (·.path.str)).Nodup then do
    let records ← treeRecords ordered
    return sha256Bytes (treeHeader ++ records.flatMap Framing.frame)
  else invalidTree "duplicate tree path"

/-! ## The hashed records determine the tree -/

omit [StandardLibrary] in
theorem checkedFrame_eq_ok {data framed : Bytes} (h : checkedFrame data = .ok framed) :
    data.length < 256 ^ 8 ∧ framed = Framing.frame data := by
  unfold checkedFrame at h
  split at h
  · exact ⟨‹_›, (Except.ok.inj h).symm⟩
  · exact absurd h (by simp [invalidTree, error])

/-- What a record of an entry consists of. -/
theorem treeRecord_eq_ok {entry : TreeEntry} {record : Bytes} (h : treeRecord entry = .ok record) :
    parseRelativePath entry.path.str = .ok entry.path ∧
      (encodeUtf8 entry.path.str).length < 256 ^ 8 ∧
      match entry with
      | .directory path => record = 68 :: Framing.frame (encodeUtf8 path.str)
      | .file path executable size contentDigest =>
          size < 256 ^ 8 ∧
            record = 70 :: Framing.frame (encodeUtf8 path.str) ++
              (if executable then [1] else [0]) ++ Framing.bigEndian 8 size ++
              digestOctets contentDigest := by
  unfold treeRecord at h
  split at h
  · exact absurd h (by simp [invalidTree, error])
  · rename_i hcanonical
    have hparsed : parseRelativePath entry.path.str = .ok entry.path := by
      simpa using hcanonical
    obtain ⟨framed, hframe, hrest⟩ := Result.of_bind_ok h
    obtain ⟨hlen, rfl⟩ := checkedFrame_eq_ok hframe
    refine ⟨hparsed, hlen, ?_⟩
    cases entry with
    | directory path =>
        exact (Except.ok.inj hrest).symm
    | file path executable size contentDigest =>
        simp only at hrest ⊢
        split at hrest
        · exact ⟨‹_›, (Except.ok.inj hrest).symm⟩
        · exact absurd hrest (by simp [invalidTree, error])

private theorem path_eq_of_str_eq {a b : SafeRelativePath} (ha : parseRelativePath a.str = .ok a)
    (hb : parseRelativePath b.str = .ok b) (h : a.str = b.str) : a = b := by
  rw [h, hb] at ha
  exact (Except.ok.inj ha).symm

theorem treeRecord_injective {a b : TreeEntry} {record : Bytes} (ha : treeRecord a = .ok record)
    (hb : treeRecord b = .ok record) :
    match a, b with
    | .directory p, .directory q => p = q
    | .file p x m c, .file q y n d => p = q ∧ x = y ∧ m = n ∧ digestOctets c = digestOctets d
    | _, _ => False := by
  obtain ⟨hpa, hla, hra⟩ := treeRecord_eq_ok ha
  obtain ⟨hpb, hlb, hrb⟩ := treeRecord_eq_ok hb
  cases a with
  | directory p =>
      cases b with
      | directory q =>
          simp only [TreeEntry.path] at hpa hpb hla hlb hra hrb ⊢
          rw [hra] at hrb
          have hframe : Framing.frame (encodeUtf8 p.str) ++ [] = Framing.frame (encodeUtf8 q.str) ++ [] := by
            simpa using hrb
          have htext := (Framing.frame_append_inj hla hlb hframe).1
          exact path_eq_of_str_eq hpa hpb (encodeUtf8_injective htext)
      | file q y n d =>
          simp only at hra hrb
          rw [hra] at hrb
          exact absurd hrb.2 (by simp)
  | file p x m c =>
      cases b with
      | directory q =>
          simp only at hra hrb
          rw [hrb] at hra
          exact absurd hra.2 (by simp)
      | file q y n d =>
          simp only [TreeEntry.path] at hpa hpb hla hlb hra hrb ⊢
          have heq := hra.2.symm.trans hrb.2
          simp only [List.cons_append, List.append_assoc, List.cons.injEq, true_and] at heq
          obtain ⟨htext, hmeta⟩ := Framing.frame_append_inj hla hlb heq
          have hbit : (if x = true then ([1] : Bytes) else [0]).length =
              (if y = true then ([1] : Bytes) else [0]).length := by
            cases x <;> cases y <;> rfl
          obtain ⟨hexec, htail⟩ := List.append_inj hmeta hbit
          obtain ⟨hsize, hdigest⟩ := List.append_inj htail (by simp)
          have hx : x = y := by
            cases x <;> cases y <;> simp_all
          exact ⟨path_eq_of_str_eq hpa hpb (encodeUtf8_injective htext), hx,
            Framing.bigEndian_injective hra.1 hrb.1 hsize, hdigest⟩

/-- Records of a tree that was hashed, entry by entry. -/
theorem treeRecords_eq_ok {entries : List TreeEntry} {records : List Bytes}
    (h : treeRecords entries = .ok records) :
    List.Forall₂ (fun entry record => treeRecord entry = .ok record) entries records ∧
      ∀ record ∈ records, record.length < 256 ^ 8 := by
  induction entries generalizing records with
  | nil =>
      obtain rfl : [] = records := Except.ok.inj h
      exact ⟨.nil, by simp⟩
  | cons entry rest ih =>
      simp only [treeRecords] at h
      obtain ⟨record, hrecord, h⟩ := Result.of_bind_ok h
      obtain ⟨framed, hframe, h⟩ := Result.of_bind_ok h
      obtain ⟨others, hothers, h⟩ := Result.of_bind_ok h
      obtain rfl : record :: others = records := Except.ok.inj h
      obtain ⟨hall, hlen⟩ := ih hothers
      refine ⟨.cons hrecord hall, ?_⟩
      intro part hpart
      rcases List.mem_cons.mp hpart with rfl | hpart
      · exact (checkedFrame_eq_ok hframe).1
      · exact hlen part hpart

/-- Equal digests of trees in path order come from equal lists of records. -/
theorem treeDigest_records_eq (hfree : CollisionFree) {left right : List TreeEntry}
    {digest : ObjectDigest} (hleft : treeDigest left = .ok digest)
    (hright : treeDigest right = .ok digest) :
    ∃ records, treeRecords (sortTree left) = .ok records ∧
      treeRecords (sortTree right) = .ok records := by
  have hinv {entries : List TreeEntry} (h : treeDigest entries = .ok digest) :
      ∃ records, treeRecords (sortTree entries) = .ok records ∧
        digest = sha256Bytes (treeHeader ++ records.flatMap Framing.frame) := by
    unfold treeDigest at h
    simp only at h
    split at h
    · obtain ⟨records, hrecords, h⟩ := Result.of_bind_ok h
      exact ⟨records, hrecords, (Except.ok.inj h).symm⟩
    · exact absurd h (by simp [invalidTree, error])
  obtain ⟨ls, hls, hl⟩ := hinv hleft
  obtain ⟨rs, hrs, hr⟩ := hinv hright
  have hpayload := sha256Bytes_injective hfree (hl.symm.trans hr)
  have hframes := List.append_cancel_left hpayload
  have heq : ls = rs :=
    Framing.flatMap_frame_injective (treeRecords_eq_ok hls).2 (treeRecords_eq_ok hrs).2 hframes
  exact ⟨ls, hls, heq ▸ hrs⟩

end AgentArtifacts
