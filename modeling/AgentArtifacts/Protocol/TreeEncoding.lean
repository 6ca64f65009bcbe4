import AgentArtifacts.InstallState.Manifest
import AgentArtifacts.Protocol.Hashing

/-!
# The encoding of trees

The items of a tree as their caller states them. What is hashed of accepted items
determines every one of them, and it does not depend on their order.
-/

namespace AgentArtifacts

open Manifest (validDigest)

inductive EntryKind where
  | file
  | directory
deriving DecidableEq

/-- A `TreeEntry` of the source with all its members, before they are checked. -/
structure TreeItem where
  path : SafeRelativePath
  kind : EntryKind
  executable : Bool := false
  size : Int := 0
  contentDigest : Option ObjectDigest := none
deriving DecidableEq

/-- What the record of an item demands of its members besides the path. -/
def TreeItem.entry (item : TreeItem) : Result TreeEntry :=
  match item.kind with
  | .directory =>
      if item.executable || item.size != 0 || item.contentDigest.isSome then
        invalidTree ("directory entry has file metadata: " ++ item.path.str)
      else .ok (.directory item.path)
  | .file =>
      match item.contentDigest with
      | none => invalidTree ("file entry has incomplete metadata: " ++ item.path.str)
      | some digest =>
          if item.size < 0 ∨ item.size > 2 ^ 64 - 1 then
            invalidTree ("file entry has incomplete metadata: " ++ item.path.str)
          else if validDigest digest then .ok (.file item.path item.executable item.size.toNat digest)
          else invalidTree ("file entry has invalid content digest: " ++ item.path.str)

def sortItems (items : List TreeItem) : List TreeItem := items.insertionSort fun a b => a.path.str ≤ b.path.str

section Encoding

variable [StandardLibrary]

def checkedItem (item : TreeItem) : Result TreeEntry :=
  if parseRelativePath item.path.str ≠ .ok item.path then
    invalidTree ("tree entry path is not canonical: " ++ item.path.str)
  else item.entry

/-- The bytes that are hashed. -/
def treePayload (items : List TreeItem) : Result Bytes :=
  let ordered := sortItems items
  if (ordered.map (·.path.str)).Nodup then do
    let entries ← ordered.mapM checkedItem
    let records ← treeRecords entries
    return treeHeader ++ records.flatMap Framing.frame
  else invalidTree "duplicate tree path"

/-- `tree_digest`. -/
def treeItemsDigest (items : List TreeItem) : Result ObjectDigest := (treePayload items).map sha256Bytes

/-! ## Items and entries -/

omit [StandardLibrary] in
/-- An entry has every member of the item that it was checked of. -/
theorem entry_eq_ok {item : TreeItem} {entry : TreeEntry} :
    item.entry = .ok entry ↔
      match entry with
      | .directory path => item = ⟨path, .directory, false, 0, none⟩
      | .file path executable size digest =>
          item = ⟨path, .file, executable, size, some digest⟩ ∧ size ≤ 2 ^ 64 - 1 ∧ validDigest digest = true := by
  obtain ⟨path, kind, executable, size, contentDigest⟩ := item
  cases kind with
  | directory =>
      simp only [TreeItem.entry]
      split
      · rename_i hextra
        refine iff_of_false (by simp [invalidTree, error]) ?_
        cases entry with
        | directory other =>
            intro h
            simp only [TreeItem.mk.injEq] at h
            simp [h] at hextra
        | file other x n digest => simp
      · rename_i hbare
        simp only [Bool.or_eq_true, bne_iff_ne, ne_eq, not_or, not_not, Bool.not_eq_true, Option.isSome_eq_false_iff,
          Option.isNone_iff_eq_none] at hbare
        obtain ⟨⟨hexecutable, hsize⟩, hdigest⟩ := hbare
        cases entry with
        | directory other => simp [hexecutable, hsize, hdigest]
        | file other x n digest => simp
  | file =>
      simp only [TreeItem.entry]
      cases contentDigest with
      | none =>
          cases entry with
          | directory other => simp [invalidTree, error]
          | file other x n digest => simp [invalidTree, error]
      | some known =>
          dsimp only
          split
          · rename_i hsize
            refine iff_of_false (by simp [invalidTree, error]) ?_
            cases entry with
            | directory other => simp
            | file other x n digest =>
                rintro ⟨h, hbound, _⟩
                simp only [TreeItem.mk.injEq] at h
                omega
          · rename_i hsize
            split
            · rename_i hvalid
              cases entry with
              | directory other => simp
              | file other x n digest =>
                  simp only [Except.ok.injEq, TreeEntry.file.injEq, TreeItem.mk.injEq, Option.some.injEq]
                  constructor
                  · rintro ⟨rfl, rfl, rfl, rfl⟩
                    exact ⟨⟨rfl, trivial, rfl, by omega, rfl⟩, by omega, hvalid⟩
                  · rintro ⟨⟨rfl, _, rfl, hn, rfl⟩, _⟩
                    exact ⟨rfl, rfl, by omega, rfl⟩
            · rename_i hinvalid
              refine iff_of_false (by simp [invalidTree, error]) ?_
              cases entry with
              | directory other => simp
              | file other x n digest =>
                  rintro ⟨h, _, hvalid⟩
                  simp only [TreeItem.mk.injEq, Option.some.injEq] at h
                  exact hinvalid (h.2.2.2.2 ▸ hvalid)

theorem checkedItem_eq_ok {item : TreeItem} {entry : TreeEntry} :
    checkedItem item = .ok entry ↔ parseRelativePath item.path.str = .ok item.path ∧ item.entry = .ok entry := by
  unfold checkedItem
  split
  · rename_i hpath
    simp [invalidTree, error, hpath]
  · rename_i hpath
    simp [not_not.mp hpath]

/-- Items with one entry are the same item. -/
theorem checkedItem_injective {a b : TreeItem} {entry : TreeEntry} (ha : checkedItem a = .ok entry)
    (hb : checkedItem b = .ok entry) : a = b := by
  have hleft := entry_eq_ok.mp (checkedItem_eq_ok.mp ha).2
  have hright := entry_eq_ok.mp (checkedItem_eq_ok.mp hb).2
  cases entry with
  | directory path => exact hleft.trans hright.symm
  | file path executable size digest => exact hleft.1.trans hright.1.symm

/-! ## Records and entries -/

omit [StandardLibrary] in
theorem hexDigit_of_lowerHex {c : Char} (h : isLowerHex c = true) : ∃ n < 16, Framing.hexDigit n = c := by
  simp only [isLowerHex, Bool.or_eq_true, Bool.and_eq_true, decide_eq_true_eq, Char.le_def, UInt32.le_iff_toNat_le] at h
  have hback : Char.ofNat c.toNat = c := Char.ofNat_toNat c
  rcases h with ⟨hlow, hhigh⟩ | ⟨hlow, hhigh⟩
  · have hlow' : 48 ≤ c.toNat := hlow
    have hhigh' : c.toNat ≤ 57 := hhigh
    refine ⟨c.toNat - 48, by omega, ?_⟩
    rw [Framing.hexDigit, if_pos (by omega), show 48 + (c.toNat - 48) = c.toNat by omega, hback]
  · have hlow' : 97 ≤ c.toNat := hlow
    have hhigh' : c.toNat ≤ 102 := hhigh
    refine ⟨c.toNat - 87, by omega, ?_⟩
    rw [Framing.hexDigit, if_neg (by omega), show 87 + (c.toNat - 87) = c.toNat by omega, hback]

omit [StandardLibrary] in
/-- The octets of a valid digest determine it. -/
theorem digest_eq_of_octets {a b : ObjectDigest} (ha : validDigest a = true) (hb : validDigest b = true)
    (h : digestOctets a = digestOctets b) : a = b := by
  simp only [validDigest, Bool.and_eq_true, beq_iff_eq, List.all_eq_true] at ha hb
  have hchars : a.value.toList = b.value.toList :=
    Framing.unhexChars_injective (by omega) (by omega) (fun c hc => hexDigit_of_lowerHex (ha.2 c hc))
      (fun c hc => hexDigit_of_lowerHex (hb.2 c hc)) h
  cases a
  cases b
  exact congrArg ObjectDigest.mk (String.toList_inj.mp hchars)

omit [StandardLibrary] in
theorem validDigest_of_entry {item : TreeItem} {path : SafeRelativePath} {executable : Bool} {size : Nat}
    {digest : ObjectDigest} (h : item.entry = .ok (.file path executable size digest)) : validDigest digest = true :=
  (entry_eq_ok.mp h).2.2

/-- Checked entries with one record are the same. -/
theorem entry_eq_of_treeRecord {a b : TreeItem} {left right : TreeEntry} {record : Bytes} (ha : checkedItem a = .ok left)
    (hb : checkedItem b = .ok right) (hl : treeRecord left = .ok record) (hr : treeRecord right = .ok record) :
    left = right := by
  have hsame := treeRecord_injective hl hr
  have hleft := (checkedItem_eq_ok.mp ha).2
  have hright := (checkedItem_eq_ok.mp hb).2
  cases left with
  | directory p =>
      cases right with
      | directory q => rw [show p = q from hsame]
      | file q y n d => exact hsame.elim
  | file p x m c =>
      cases right with
      | directory q => exact hsame.elim
      | file q y n d =>
          obtain ⟨rfl, rfl, rfl, hoctets⟩ := hsame
          rw [digest_eq_of_octets (validDigest_of_entry hleft) (validDigest_of_entry hright) hoctets]

theorem items_eq_of_records {left right : List TreeItem} {entries others : List TreeEntry} {records : List Bytes}
    (hleft : List.Forall₂ (fun item entry => checkedItem item = .ok entry) left entries)
    (hright : List.Forall₂ (fun item entry => checkedItem item = .ok entry) right others)
    (hl : List.Forall₂ (fun entry record => treeRecord entry = .ok record) entries records)
    (hr : List.Forall₂ (fun entry record => treeRecord entry = .ok record) others records) : left = right := by
  induction hleft generalizing right others records with
  | nil =>
      cases hl
      cases hr
      cases hright
      rfl
  | cons ha _ ih =>
      cases hl with
      | cons hrecord hrecords =>
          cases hr with
          | cons hrecord' hrecords' =>
              cases hright with
              | cons hb hothers =>
                  obtain rfl := entry_eq_of_treeRecord ha hb hrecord hrecord'
                  rw [checkedItem_injective ha hb, ih hothers hrecords hrecords']

/-! ## Order -/

omit [StandardLibrary] in
theorem perm_sortItems (items : List TreeItem) : (sortItems items).Perm items := List.perm_insertionSort _ _

omit [StandardLibrary] in
theorem pairwise_sortItems (items : List TreeItem) : (sortItems items).Pairwise fun a b => a.path.str ≤ b.path.str := by
  have : Std.Total fun a b : TreeItem => a.path.str ≤ b.path.str := ⟨fun _ _ => le_total _ _⟩
  have : IsTrans TreeItem fun a b => a.path.str ≤ b.path.str := ⟨fun _ _ _ => le_trans⟩
  exact List.pairwise_insertionSort _ _

omit [StandardLibrary] in
/-- Items with distinct paths have one order. -/
theorem sortItems_eq_of_perm {left right : List TreeItem} (hperm : left.Perm right)
    (hdistinct : ((sortItems left).map (·.path.str)).Nodup) : sortItems left = sortItems right := by
  have hboth : (sortItems left).Perm (sortItems right) :=
    (perm_sortItems left).trans (hperm.trans (perm_sortItems right).symm)
  refine hboth.eq_of_pairwise (fun x y hx hy hxy hyx => ?_) (pairwise_sortItems left) (pairwise_sortItems right)
  exact List.inj_on_of_nodup_map hdistinct hx (hboth.mem_iff.mpr hy) (le_antisymm hxy hyx)

/-- What accepted items are hashed as. -/
theorem treePayload_eq_ok {items : List TreeItem} {payload : Bytes} (h : treePayload items = .ok payload) :
    ((sortItems items).map (·.path.str)).Nodup ∧ ∃ entries records, (sortItems items).mapM checkedItem = .ok entries ∧
      treeRecords entries = .ok records ∧ payload = treeHeader ++ records.flatMap Framing.frame := by
  unfold treePayload at h
  dsimp only at h
  split at h
  · rename_i hdistinct
    obtain ⟨entries, hentries, h⟩ := Result.of_bind_ok h
    obtain ⟨records, hrecords, h⟩ := Result.of_bind_ok h
    exact ⟨hdistinct, entries, records, hentries, hrecords, (Except.ok.inj h).symm⟩
  · cases h

/-- Accepted items are hashed as the same bytes exactly where they are the same items in any
order, that is, where each item of one tree is an item of the other. -/
theorem treePayload_eq_iff_perm {left right : List TreeItem} {digest other : ObjectDigest}
    (hleft : treeItemsDigest left = .ok digest) (hright : treeItemsDigest right = .ok other) :
    (treePayload left = treePayload right ↔ left.Perm right) ∧
      (left.Perm right ↔ ∀ item, item ∈ left ↔ item ∈ right) := by
  obtain ⟨payload, hpayload, _⟩ := Result.of_map_ok hleft
  obtain ⟨payload', hpayload', _⟩ := Result.of_map_ok hright
  obtain ⟨hdistinct, entries, records, hentries, hrecords, rfl⟩ := treePayload_eq_ok hpayload
  obtain ⟨hdistinct', entries', records', hentries', hrecords', rfl⟩ := treePayload_eq_ok hpayload'
  have hnodup : left.Nodup := (perm_sortItems left).nodup_iff.mp (List.Nodup.of_map _ hdistinct)
  have hnodup' : right.Nodup := (perm_sortItems right).nodup_iff.mp (List.Nodup.of_map _ hdistinct')
  refine ⟨⟨?_, ?_⟩, fun h item => h.mem_iff, (List.perm_ext_iff_of_nodup hnodup hnodup').mpr⟩
  · intro hsame
    rw [hpayload, hpayload'] at hsame
    have hframes := List.append_cancel_left (Except.ok.inj hsame)
    obtain ⟨hall, hshort⟩ := treeRecords_eq_ok hrecords
    obtain ⟨hall', hshort'⟩ := treeRecords_eq_ok hrecords'
    obtain rfl := Framing.flatMap_frame_injective hshort hshort' hframes
    have hsorted : sortItems left = sortItems right :=
      items_eq_of_records (Result.forall₂_of_mapM_ok hentries) (Result.forall₂_of_mapM_ok hentries') hall hall'
    exact (perm_sortItems left).symm.trans (hsorted ▸ perm_sortItems right)
  · intro hperm
    unfold treePayload
    rw [sortItems_eq_of_perm hperm hdistinct]

end Encoding

/-! ## A tree in two orders -/

section Sample

local instance treeLibrary : StandardLibrary := pythonLibrary (fun _ => List.replicate 32 0) fun _ => true

def zeros : ObjectDigest := ⟨String.ofList (List.replicate 64 '0')⟩

def directoryItem : TreeItem := { path := ⟨["a"]⟩, kind := .directory }

def fileItem : TreeItem := { path := ⟨["a", "b"]⟩, kind := .file, executable := true, size := 3, contentDigest := some zeros }

/-- A directory and a file below it, in either order. -/
theorem treePayload_of_swapped :
    treeItemsDigest [directoryItem, fileItem] = .ok zeros ∧ treeItemsDigest [fileItem, directoryItem] = .ok zeros ∧
      treePayload [directoryItem, fileItem] = treePayload [fileItem, directoryItem] := by
  have hleft : treeItemsDigest [directoryItem, fileItem] = .ok zeros := by rfl
  have hright : treeItemsDigest [fileItem, directoryItem] = .ok zeros := by rfl
  exact ⟨hleft, hright, (treePayload_eq_iff_perm hleft hright).1.mpr (List.Perm.swap _ _ _)⟩

end Sample

end AgentArtifacts
