import AgentArtifacts.Sources.Model

/-!
# What the digest of a snapshot determines

A snapshot is hashed where its paths are canonical and distinct and it has only files and
bare directories. Its digest then determines its entries, contents and executable bits
included.
-/

namespace AgentArtifacts

/-- The constructor of a snapshot. -/
def SourceSnapshot.of (origin : SnapshotOrigin) (entries : List SnapshotEntry) : SourceSnapshot where
  origin
  entries := sortByPath entries
  sorted := List.Pairwise.insertionSort_eq (sortByPath_pairwise entries)

section Hashing

variable [StandardLibrary]

/-- An entry that can be hashed: a file, or a directory that carries nothing. -/
def SnapshotEntry.Hashable (entry : SnapshotEntry) : Prop :=
  match entry.kind with
  | .directory => entry.content = [] ∧ entry.executable = false
  | .file => True
  | _ => False

/-- A snapshot that has a tree. -/
structure HashableEntries (entries : List SnapshotEntry) : Prop where
  paths : ∀ entry ∈ entries, Canonical entry.path
  distinct : (entries.map (·.path.str)).Nodup
  kinds : ∀ entry ∈ entries, entry.Hashable

/-- An entry as it is hashed. -/
def SnapshotEntry.hashed (entry : SnapshotEntry) : TreeEntry :=
  if entry.kind = .directory then .directory entry.path
  else .file entry.path entry.executable entry.content.length (sha256Bytes entry.content)

theorem snapshotTreeEntry_eq_ok {seen : List String} {entry : SnapshotEntry} {hashed : TreeEntry} :
    snapshotTreeEntry seen entry = .ok hashed ↔
      Canonical entry.path ∧ entry.path.str ∉ seen ∧ entry.Hashable ∧ hashed = entry.hashed := by
  have hcanonical : (parseRelativePath entry.path.str).toOption = some entry.path ↔ Canonical entry.path := by
    unfold Canonical
    cases parseRelativePath entry.path.str with
    | error diagnostics => simp [Except.toOption]
    | ok path => simp [Except.toOption]
  unfold snapshotTreeEntry SnapshotEntry.Hashable SnapshotEntry.hashed
  dsimp only
  by_cases hpath : Canonical entry.path ∧ entry.path.str ∉ seen
  · rw [if_neg (by rw [ne_eq, hcanonical]; tauto)]
    cases entry.kind with
    | directory =>
        by_cases hbare : entry.content = [] ∧ entry.executable = false
        · rw [if_neg (by simp [hbare])]
          simp [hpath, hbare, eq_comm]
        · rw [if_pos (by simpa [or_iff_not_imp_left] using fun h => by simpa [h] using hbare)]
          simp [hbare, error]
    | file => simp [hpath, eq_comm]
    | symlink => simp [error]
    | special => simp [error]
  · rw [if_pos (by rw [ne_eq, hcanonical]; tauto)]
    simp only [error]
    exact iff_of_false (by simp) fun h => hpath ⟨h.1, h.2.1⟩

theorem snapshotTree_eq_ok {seen : List String} {entries : List SnapshotEntry} {tree : List TreeEntry} :
    snapshotTree seen entries = .ok tree ↔
      HashableEntries entries ∧ (∀ entry ∈ entries, entry.path.str ∉ seen) ∧ tree = entries.map SnapshotEntry.hashed := by
  induction entries generalizing seen tree with
  | nil =>
      rw [snapshotTree]
      constructor
      · intro h
        exact ⟨⟨by simp, by simp, by simp⟩, by simp, (Except.ok.inj h).symm⟩
      · rintro ⟨_, _, rfl⟩
        rfl
  | cons entry rest ih =>
      rw [snapshotTree]
      constructor
      · intro h
        obtain ⟨hashed, hhashed, h⟩ := Result.of_bind_ok h
        obtain ⟨others, hothers, h⟩ := Result.of_bind_ok h
        obtain rfl := Except.ok.inj h
        obtain ⟨hpath, hnew, hkind, rfl⟩ := snapshotTreeEntry_eq_ok.mp hhashed
        obtain ⟨hrest, hseen, rfl⟩ := ih.mp hothers
        have hfresh : entry.path.str ∉ rest.map (·.path.str) := by
          rintro hmem
          obtain ⟨other, hother, hsame⟩ := List.mem_map.mp hmem
          exact hseen other hother (by simp [hsame])
        refine ⟨⟨?_, List.nodup_cons.mpr ⟨hfresh, hrest.distinct⟩, ?_⟩, ?_, rfl⟩
        · exact List.forall_mem_cons.mpr ⟨hpath, hrest.paths⟩
        · exact List.forall_mem_cons.mpr ⟨hkind, hrest.kinds⟩
        · exact List.forall_mem_cons.mpr ⟨hnew, fun other hother hmem => hseen other hother (by simp [hmem])⟩
      · rintro ⟨hentries, hseen, rfl⟩
        obtain ⟨hfresh, hdistinct⟩ := List.nodup_cons.mp hentries.distinct
        obtain ⟨hpath, hpaths⟩ := List.forall_mem_cons.mp hentries.paths
        obtain ⟨hkind, hkinds⟩ := List.forall_mem_cons.mp hentries.kinds
        obtain ⟨hnew, hold⟩ := List.forall_mem_cons.mp hseen
        rw [snapshotTreeEntry_eq_ok.mpr ⟨hpath, hnew, hkind, rfl⟩]
        have hrest : snapshotTree (seen ++ [entry.path.str]) rest = .ok (rest.map SnapshotEntry.hashed) := by
          refine ih.mpr ⟨⟨hpaths, hdistinct, hkinds⟩, fun other hother hmem => ?_, rfl⟩
          rcases List.mem_append.mp hmem with hmem | hmem
          · exact hold other hother hmem
          · exact hfresh (List.mem_map.mpr ⟨other, hother, List.mem_singleton.mp hmem⟩)
        simp only [bind, Except.bind, hrest, pure, Except.pure, List.map_cons]

theorem hashable_of_digest {snapshot : SourceSnapshot} {digest : ObjectDigest}
    (h : sourceSnapshotDigest snapshot = .ok digest) : HashableEntries snapshot.entries := by
  obtain ⟨tree, htree, _⟩ := Result.of_bind_ok h
  exact (snapshotTree_eq_ok.mp htree).1

theorem path_hashed (entry : SnapshotEntry) : entry.hashed.path = entry.path := by
  unfold SnapshotEntry.hashed
  split <;> rfl

/-- The tree of a snapshot is in path order already. -/
theorem sortTree_hashed (snapshot : SourceSnapshot) :
    sortTree (snapshot.entries.map SnapshotEntry.hashed) = snapshot.entries.map SnapshotEntry.hashed := by
  refine List.Pairwise.insertionSort_eq ?_
  rw [List.pairwise_map, ← snapshot.sorted]
  refine (sortByPath_pairwise _).imp fun {a b} hab => ?_
  rw [path_hashed, path_hashed]
  exact hab

/-- Entries with one record are the same. -/
theorem entry_eq_of_record (hfree : CollisionFree) {a b : SnapshotEntry} {record : Bytes} (ha : a.Hashable)
    (hb : b.Hashable) (hleft : treeRecord a.hashed = .ok record) (hright : treeRecord b.hashed = .ok record) : a = b := by
  have hsame := treeRecord_injective hleft hright
  unfold SnapshotEntry.hashed at hsame
  unfold SnapshotEntry.Hashable at ha hb
  obtain ⟨p, k, c, x⟩ := a
  obtain ⟨q, l, d, y⟩ := b
  dsimp only at ha hb hsame
  cases k with
  | directory =>
      cases l with
      | directory =>
          obtain ⟨rfl, rfl⟩ := ha
          obtain ⟨rfl, rfl⟩ := hb
          obtain rfl : p = q := hsame
          rfl
      | file => exact hsame.elim
      | symlink => exact hb.elim
      | special => exact hb.elim
  | file =>
      cases l with
      | directory => exact hsame.elim
      | file =>
          obtain ⟨rfl, rfl, _, hdigest⟩ := hsame
          rw [digestOctets_sha256Bytes, digestOctets_sha256Bytes] at hdigest
          obtain rfl := hfree hdigest
          rfl
      | symlink => exact hb.elim
      | special => exact hb.elim
  | symlink => exact ha.elim
  | special => exact ha.elim

theorem entries_eq_of_records (hfree : CollisionFree) {left right : List SnapshotEntry} {records : List Bytes}
    (hleft : ∀ entry ∈ left, entry.Hashable) (hright : ∀ entry ∈ right, entry.Hashable)
    (hl : List.Forall₂ (fun entry record => treeRecord entry = .ok record) (left.map SnapshotEntry.hashed) records)
    (hr : List.Forall₂ (fun entry record => treeRecord entry = .ok record) (right.map SnapshotEntry.hashed) records) :
    left = right := by
  induction left generalizing right records with
  | nil =>
      cases hl
      cases right with
      | nil => rfl
      | cons b bs => cases hr
  | cons a as ih =>
      cases hl with
      | cons ha has =>
          cases right with
          | nil => cases hr
          | cons b bs =>
              cases hr with
              | cons hb hbs =>
                  obtain ⟨hfirst, hothers⟩ := List.forall_mem_cons.mp hleft
                  obtain ⟨hfirst', hothers'⟩ := List.forall_mem_cons.mp hright
                  rw [entry_eq_of_record hfree hfirst hfirst' ha hb, ih hothers hothers' has hbs]

/-- Snapshots with one digest have the same entries. -/
theorem SourceSnapshot.entries_eq_of_digest (hfree : CollisionFree) {left right : SourceSnapshot} {digest : ObjectDigest}
    (hleft : sourceSnapshotDigest left = .ok digest) (hright : sourceSnapshotDigest right = .ok digest) :
    left.entries = right.entries := by
  obtain ⟨tree, htree, hl⟩ := Result.of_bind_ok hleft
  obtain ⟨tree', htree', hr⟩ := Result.of_bind_ok hright
  obtain ⟨hentries, _, rfl⟩ := snapshotTree_eq_ok.mp htree
  obtain ⟨hentries', _, rfl⟩ := snapshotTree_eq_ok.mp htree'
  obtain ⟨records, hrecords, hrecords'⟩ := treeDigest_records_eq hfree hl hr
  rw [sortTree_hashed] at hrecords hrecords'
  exact entries_eq_of_records hfree hentries.kinds hentries'.kinds (treeRecords_eq_ok hrecords).1
    (treeRecords_eq_ok hrecords').1

end Hashing

end AgentArtifacts
