import AgentArtifacts.Registry.Packages
import AgentArtifacts.Store.PathTexts
import AgentArtifacts.Vendoring.Model

/-!
# Verifying a vendored copy

The taken subtree is rebuilt from the package: its payload files less the authored ones,
and the directories above them. Its digest is compared with the recorded one. It is the
recorded one exactly where the copied files are the taken ones and the subtree has no
directory but those above its files.
-/

namespace AgentArtifacts.Vendoring

open Registry (PackageEntries sortedBy)

structure CopyIntegrity where
  recorded : ObjectDigest
  recomputed : ObjectDigest
  files : Nat
deriving DecidableEq

def CopyIntegrity.matches (integrity : CopyIntegrity) : Bool := integrity.recorded == integrity.recomputed

/-- What the paths of the payload begin with. -/
def payloadLead (base : String) (payloadRoot : SafeRelativePath) : String := base ++ "/" ++ payloadRoot.str ++ "/"

def excludedPaths (base : String) (authored : List String) : List String :=
  authored.map fun relative => base ++ "/" ++ relative

/-- A file of the payload that is not authored. -/
def isCopied (base : String) (payloadRoot : SafeRelativePath) (authored : List String) (item : String × SnapshotEntry) :
    Bool :=
  startsWith (payloadLead base payloadRoot) item.1 && !(excludedPaths base authored).contains item.1 &&
    item.2.kind == .file

section Verifying

variable [StandardLibrary]

def copiedEntry (base : String) (payloadRoot : SafeRelativePath) (item : String × SnapshotEntry) : Result SnapshotEntry :=
  match parseRelativePath (removePrefix (payloadLead base payloadRoot) item.1) with
  | .error _ => vendorError ("the vendored payload holds an unsafe path: " ++ item.1)
  | .ok path => .ok ⟨path, .file, item.2.content, item.2.executable⟩

/-- The directories above the copied files. -/
def copiedDirectories (entries : List SnapshotEntry) : List String :=
  ((entries.flatMap fun entry => properAncestors entry.path).map SafeRelativePath.str).dedup

/-- `_path` asserts that the path is read. -/
def directoryNamed (raw : String) : Result SnapshotEntry :=
  match parseRelativePath raw with
  | .error _ => raised raw
  | .ok path => .ok (directoryAt path)

/-- The entries of the subtree that a package is a copy of. -/
def rebuiltEntries (files : PackageEntries) (base : String) (payloadRoot : SafeRelativePath) (authored : List String) :
    Result (List SnapshotEntry × List SnapshotEntry) := do
  let entries ← ((sortedBy Prod.fst files).filter (isCopied base payloadRoot authored)).mapM (copiedEntry base payloadRoot)
  if entries.isEmpty then
    vendorError ("the vendored package holds no copied payload file under " ++ payloadLead base payloadRoot ++
      "; it cannot be checked against the origin it records")
  else
    let directories ← (copiedDirectories entries).mapM directoryNamed
    return (entries, directories)

/-- `verify_vendored_copy`. -/
def verifyVendoredCopy (files : PackageEntries) (base : String) (payloadRoot : SafeRelativePath) (authored : List String)
    (recorded : ObjectDigest) : Result CopyIntegrity := do
  let (entries, directories) ← rebuiltEntries files base payloadRoot authored
  let digest ← sourceSnapshotDigest (SourceSnapshot.of .immutableGit (entries ++ directories))
  return ⟨recorded, digest, entries.length⟩

end Verifying

/-! ## What a verified copy is -/

open Native (textOf_relativePath)
open Registry (PackageEntries sortedBy mem_sortedBy perm_sortedBy)

/-- The directories of the subtree are those above its files, as in every Git tree. -/
def ClosedSubtree (subtree : TakenSubtree) : Prop :=
  ∀ path, directoryAt path ∈ subtree.snapshot.entries ↔
    ∃ entry ∈ subtree.snapshot.entries, entry.kind = .file ∧ path ∈ properAncestors entry.path

/-- The copied files are the taken ones: the same paths, contents and executable bits. -/
def HoldsCopy (files : PackageEntries) (base : String) (payloadRoot : SafeRelativePath) (authored : List String)
    (subtree : TakenSubtree) : Prop :=
  ∀ path content executable,
    (∃ item ∈ files, isCopied base payloadRoot authored item = true ∧ item.1 = payloadLead base payloadRoot ++ path ∧
      item.2.content = content ∧ item.2.executable = executable) ↔
    ∃ entry ∈ subtree.snapshot.entries, entry.kind = .file ∧ entry.path.str = path ∧ entry.content = content ∧
      entry.executable = executable

section Rebuilding

variable [StandardLibrary] {base : String} {payloadRoot : SafeRelativePath} {authored : List String}

/-- A copied item gives the entry that stands at its path below the payload. -/
theorem copiedEntry_eq_ok {item : String × SnapshotEntry} {entry : SnapshotEntry}
    (hitem : isCopied base payloadRoot authored item = true) :
    copiedEntry base payloadRoot item = .ok entry ↔
      Canonical entry.path ∧ item.1 = payloadLead base payloadRoot ++ entry.path.str ∧
        entry = ⟨entry.path, .file, item.2.content, item.2.executable⟩ := by
  have hlead : startsWith (payloadLead base payloadRoot) item.1 = true := by
    simp only [isCopied, Bool.and_eq_true] at hitem
    exact hitem.1.1
  have hwhole := Manifest.append_removePrefix hlead
  unfold copiedEntry
  constructor
  · intro h
    split at h
    · exact absurd h (by simp [vendorError, error])
    · rename_i path hpath
      obtain rfl := Except.ok.inj h
      refine ⟨canonical_of_parse hpath, ?_, rfl⟩
      rw [textOf_relativePath _ _ hpath]
      exact hwhole.symm
  · rintro ⟨hcanonical, htext, hentry⟩
    have hrest : removePrefix (payloadLead base payloadRoot) item.1 = entry.path.str :=
      append_left_text (hwhole.trans htext)
    have hparse : parseRelativePath entry.path.str = .ok entry.path := hcanonical
    rw [hrest, hparse]
    exact congrArg Except.ok hentry.symm

theorem directoryNamed_eq_ok {raw : String} {entry : SnapshotEntry} :
    directoryNamed raw = .ok entry ↔ ∃ path, Canonical path ∧ path.str = raw ∧ entry = directoryAt path := by
  unfold directoryNamed
  constructor
  · intro h
    split at h
    · exact absurd h (by simp [raised, error])
    · rename_i path hpath
      exact ⟨path, canonical_of_parse hpath, textOf_relativePath _ _ hpath, (Except.ok.inj h).symm⟩
  · rintro ⟨path, hpath, rfl, rfl⟩
    have hparse : parseRelativePath path.str = .ok path := hpath
    rw [hparse]

omit [StandardLibrary] in
theorem mem_of_mapM_ok {α β : Type} {f : α → Result β} {items : List α} {results : List β}
    (h : items.mapM f = .ok results) {result : β} : result ∈ results ↔ ∃ item ∈ items, f item = .ok result := by
  constructor
  · exact exists_of_forall₂_mem (Result.forall₂_of_mapM_ok h)
  · rintro ⟨item, hitem, hresult⟩
    obtain ⟨other, hother, hsame⟩ := Result.ok_of_mapM_ok h hitem
    obtain rfl := Except.ok.inj (hresult.symm.trans hsame)
    exact hother

omit [StandardLibrary] in
/-- Results that determine the keys of their items are distinct where the keys are. -/
theorem nodup_of_mapM_ok {α β κ : Type} {f : α → Result β} {key : α → κ} {items : List α} {results : List β}
    (hitems : (items.map key).Nodup)
    (hkey : ∀ a ∈ items, ∀ b ∈ items, ∀ result, f a = .ok result → f b = .ok result → key a = key b)
    (h : items.mapM f = .ok results) : results.Nodup := by
  have hall := Result.forall₂_of_mapM_ok h
  clear h
  induction hall with
  | nil => exact List.nodup_nil
  | @cons item result rest others hfirst hrest ih =>
      rw [List.map_cons, List.nodup_cons] at hitems
      have hothers : ∀ a ∈ rest, ∀ b ∈ rest, ∀ result, f a = .ok result → f b = .ok result → key a = key b :=
        fun a ha b hb => hkey a (List.mem_cons_of_mem _ ha) b (List.mem_cons_of_mem _ hb)
      refine List.nodup_cons.mpr ⟨fun hmem => hitems.1 ?_, ih hitems.2 hothers⟩
      obtain ⟨other, hother, hsame⟩ := exists_of_forall₂_mem hrest hmem
      have hkeys := hkey other (List.mem_cons_of_mem _ hother) item List.mem_cons_self result hsame hfirst
      exact List.mem_map.mpr ⟨other, hother, hkeys⟩

omit [StandardLibrary] in
theorem mem_copiedDirectories {entries : List SnapshotEntry} {raw : String} :
    raw ∈ copiedDirectories entries ↔ ∃ entry ∈ entries, ∃ path ∈ properAncestors entry.path, path.str = raw := by
  simp only [copiedDirectories, List.mem_dedup, List.mem_map, List.mem_flatMap]
  constructor
  · rintro ⟨path, ⟨entry, hentry, hpath⟩, htext⟩
    exact ⟨entry, hentry, path, hpath, htext⟩
  · rintro ⟨entry, hentry, path, hpath, htext⟩
    exact ⟨path, ⟨entry, hentry, hpath⟩, htext⟩

/-- What stands among the rebuilt entries. -/
structure Rebuilt (files : PackageEntries) (base : String) (payloadRoot : SafeRelativePath) (authored : List String)
    (entries directories : List SnapshotEntry) : Prop where
  nonempty : entries ≠ []
  readable : ∀ item ∈ files, isCopied base payloadRoot authored item = true →
    ∃ entry, copiedEntry base payloadRoot item = .ok entry
  files : ∀ entry, entry ∈ entries ↔ ∃ item ∈ files, isCopied base payloadRoot authored item = true ∧
    copiedEntry base payloadRoot item = .ok entry
  directories : ∀ entry, entry ∈ directories ↔
    ∃ path, entry = directoryAt path ∧ ∃ file ∈ entries, path ∈ properAncestors file.path

theorem rebuilt_of_ok {files : PackageEntries} {entries directories : List SnapshotEntry}
    (h : rebuiltEntries files base payloadRoot authored = .ok (entries, directories)) :
    Rebuilt files base payloadRoot authored entries directories := by
  obtain ⟨copied, hcopied, h⟩ := Result.of_bind_ok h
  split at h
  · exact absurd h (by simp [vendorError, error])
  rename_i hempty
  obtain ⟨above, habove, h⟩ := Result.of_bind_ok h
  obtain ⟨rfl, rfl⟩ := Prod.mk.inj (Except.ok.inj h)
  have hfiles (entry : SnapshotEntry) : entry ∈ copied ↔ ∃ item ∈ files,
      isCopied base payloadRoot authored item = true ∧ copiedEntry base payloadRoot item = .ok entry := by
    rw [mem_of_mapM_ok hcopied]
    simp only [List.mem_filter, mem_sortedBy, and_assoc]
  refine ⟨fun hnil => hempty (by rw [hnil]; rfl), fun item hitem hcopy => ?_, hfiles, fun entry => ?_⟩
  · have hmem : item ∈ (sortedBy Prod.fst files).filter (isCopied base payloadRoot authored) :=
      List.mem_filter.mpr ⟨mem_sortedBy.mpr hitem, hcopy⟩
    obtain ⟨entry, _, hentry⟩ := Result.ok_of_mapM_ok hcopied hmem
    exact ⟨entry, hentry⟩
  have hcanonical {file : SnapshotEntry} (hfile : file ∈ copied) : Canonical file.path := by
    obtain ⟨item, _, hitem, hentry⟩ := (hfiles file).mp hfile
    exact ((copiedEntry_eq_ok hitem).mp hentry).1
  rw [mem_of_mapM_ok habove]
  constructor
  · rintro ⟨raw, hraw, hentry⟩
    obtain ⟨path, hpath, htext, rfl⟩ := directoryNamed_eq_ok.mp hentry
    obtain ⟨file, hfile, ancestor, hancestor, hsame⟩ := mem_copiedDirectories.mp hraw
    refine ⟨path, rfl, file, hfile, ?_⟩
    have heq : path = ancestor := by
      rw [ancestor_of_text (hcanonical hfile) hancestor, parseRelativePath_parts hpath, hsame, htext]
    rw [heq]
    exact hancestor
  · rintro ⟨path, rfl, file, hfile, hpath⟩
    have hraw : path.str ∈ copiedDirectories copied := mem_copiedDirectories.mpr ⟨file, hfile, path, hpath, rfl⟩
    obtain ⟨found, _, hfound⟩ := Result.ok_of_mapM_ok habove hraw
    obtain ⟨other, hother, hsame, rfl⟩ := directoryNamed_eq_ok.mp hfound
    have heq : other = path := by
      rw [ancestor_of_text (hcanonical hfile) hpath, parseRelativePath_parts hother, hsame]
    rw [← heq]
    exact ⟨other.str, by rw [heq]; exact hraw, heq ▸ hfound⟩

/-- The rebuilt entries have no path twice. -/
theorem nodup_rebuilt {files : PackageEntries} {entries directories : List SnapshotEntry}
    (hkeys : (files.map Prod.fst).Nodup) (h : rebuiltEntries files base payloadRoot authored = .ok (entries, directories)) :
    entries.Nodup ∧ directories.Nodup := by
  obtain ⟨copied, hcopied, h⟩ := Result.of_bind_ok h
  split at h
  · exact absurd h (by simp [vendorError, error])
  obtain ⟨above, habove, h⟩ := Result.of_bind_ok h
  obtain ⟨rfl, rfl⟩ := Prod.mk.inj (Except.ok.inj h)
  constructor
  · have hitems : (((sortedBy Prod.fst files).filter (isCopied base payloadRoot authored)).map Prod.fst).Nodup :=
      (((perm_sortedBy Prod.fst files).map Prod.fst).nodup_iff.mpr hkeys).sublist (List.filter_sublist.map _)
    refine nodup_of_mapM_ok hitems (fun a ha b hb entry hleft hright => ?_) hcopied
    have hfirst := ((copiedEntry_eq_ok (List.mem_filter.mp ha).2).mp hleft).2.1
    have hsecond := ((copiedEntry_eq_ok (List.mem_filter.mp hb).2).mp hright).2.1
    exact hfirst.trans hsecond.symm
  · have htexts : ((copiedDirectories copied).map id).Nodup := by
      rw [List.map_id]
      exact List.nodup_dedup _
    refine nodup_of_mapM_ok htexts (fun a _ b _ entry hleft hright => ?_) habove
    obtain ⟨path, _, rfl, hpath⟩ := directoryNamed_eq_ok.mp hleft
    obtain ⟨again, _, rfl, hagain⟩ := directoryNamed_eq_ok.mp hright
    exact congrArg (fun found : SnapshotEntry => found.path.str) (hpath.symm.trans hagain)

end Rebuilding

section Verified

variable [StandardLibrary] {files : PackageEntries} {base : String} {payloadRoot : SafeRelativePath}
  {authored : List String} {subtree : TakenSubtree}

/-- The verification of a copy reports that it matches. -/
def CopyMatches (files : PackageEntries) (base : String) (payloadRoot : SafeRelativePath) (authored : List String)
    (recorded : ObjectDigest) : Prop :=
  ∃ integrity, verifyVendoredCopy files base payloadRoot authored recorded = .ok integrity ∧ integrity.matches = true

theorem kind_of_copied {item : String × SnapshotEntry} {entry : SnapshotEntry}
    (hitem : isCopied base payloadRoot authored item = true) (h : copiedEntry base payloadRoot item = .ok entry) :
    entry.kind = .file := by
  rw [((copiedEntry_eq_ok hitem).mp h).2.2]

/-- What the rebuilt entries say of a subtree that they are the entries of. -/
theorem holds_of_rebuilt {entries directories : List SnapshotEntry}
    (hrebuilt : Rebuilt files base payloadRoot authored entries directories)
    (hmem : ∀ entry, entry ∈ subtree.snapshot.entries ↔ entry ∈ entries ∨ entry ∈ directories) :
    ClosedSubtree subtree ∧ HoldsCopy files base payloadRoot authored subtree := by
  have hkind {entry : SnapshotEntry} (hentry : entry ∈ entries) : entry.kind = .file := by
    obtain ⟨item, _, hitem, hcopied⟩ := (hrebuilt.files entry).mp hentry
    exact kind_of_copied hitem hcopied
  have hfile (entry : SnapshotEntry) : entry ∈ subtree.snapshot.entries ∧ entry.kind = .file ↔ entry ∈ entries := by
    rw [hmem]
    constructor
    · rintro ⟨hentry | hentry, hfile⟩
      · exact hentry
      · obtain ⟨path, rfl, _⟩ := (hrebuilt.directories entry).mp hentry
        exact absurd hfile (by simp [directoryAt])
    · exact fun hentry => ⟨Or.inl hentry, hkind hentry⟩
  constructor
  · intro path
    have hdirectory : directoryAt path ∈ subtree.snapshot.entries ↔ directoryAt path ∈ directories := by
      rw [hmem]
      refine or_iff_right fun hentry => ?_
      exact absurd (hkind hentry) (by simp [directoryAt])
    rw [hdirectory, hrebuilt.directories]
    constructor
    · rintro ⟨found, hfound, file, hentry, hpath⟩
      have hsame : path = found := congrArg SnapshotEntry.path hfound
      have hin := (hfile file).mpr hentry
      exact ⟨file, hin.1, hin.2, hsame ▸ hpath⟩
    · rintro ⟨file, hentry, hkindFile, hpath⟩
      exact ⟨path, rfl, file, (hfile file).mp ⟨hentry, hkindFile⟩, hpath⟩
  · intro path content executable
    constructor
    · rintro ⟨item, hitem, hcopy, htext, rfl, rfl⟩
      obtain ⟨entry, hentry⟩ := hrebuilt.readable item hitem hcopy
      obtain ⟨_, hpath, hform⟩ := (copiedEntry_eq_ok hcopy).mp hentry
      have hin := (hfile entry).mpr ((hrebuilt.files entry).mpr ⟨item, hitem, hcopy, hentry⟩)
      refine ⟨entry, hin.1, hin.2, append_left_text (hpath.symm.trans htext), ?_, ?_⟩
      · rw [hform]
      · rw [hform]
    · rintro ⟨entry, hentry, hkindFile, rfl, rfl, rfl⟩
      obtain ⟨item, hitem, hcopy, hcopied⟩ := (hrebuilt.files entry).mp ((hfile entry).mp ⟨hentry, hkindFile⟩)
      obtain ⟨_, hpath, hform⟩ := (copiedEntry_eq_ok hcopy).mp hcopied
      refine ⟨item, hitem, hcopy, hpath, ?_, ?_⟩
      · rw [hform]
      · rw [hform]

/-- The digest of a subtree tells it from what the copy is rebuilt to. -/
def ToldApart (files : PackageEntries) (base : String) (payloadRoot : SafeRelativePath) (authored : List String)
    (subtree : TakenSubtree) : Prop :=
  ∀ entries directories, rebuiltEntries files base payloadRoot authored = .ok (entries, directories) →
    sourceSnapshotDigest (SourceSnapshot.of .immutableGit (entries ++ directories)) = .ok subtree.inputDigest →
      (SourceSnapshot.of .immutableGit (entries ++ directories)).entries = subtree.snapshot.entries

theorem toldApart_of_free (hfree : CollisionFree) (hdigest : sourceSnapshotDigest subtree.snapshot = .ok subtree.inputDigest) :
    ToldApart files base payloadRoot authored subtree :=
  fun _ _ _ hrecomputed => (SourceSnapshot.entries_eq_of_digest hfree hdigest hrecomputed).symm

/-- A copy that matches holds the taken files, where the digest tells them from others, and the
subtree it is a copy of is closed. -/
theorem holds_of_told (htold : ToldApart files base payloadRoot authored subtree)
    (h : CopyMatches files base payloadRoot authored subtree.inputDigest) :
    ClosedSubtree subtree ∧ HoldsCopy files base payloadRoot authored subtree := by
  obtain ⟨integrity, hverify, hmatch⟩ := h
  obtain ⟨⟨entries, directories⟩, hrebuilt, hverify⟩ := Result.of_bind_ok hverify
  obtain ⟨digest, hrecomputed, hverify⟩ := Result.of_bind_ok hverify
  obtain rfl := Except.ok.inj hverify
  have hsame : subtree.inputDigest = digest := by simpa [CopyIntegrity.matches] using hmatch
  rw [← hsame] at hrecomputed
  have hentries := htold entries directories hrebuilt hrecomputed
  refine holds_of_rebuilt (rebuilt_of_ok hrebuilt) fun entry => ?_
  rw [← hentries, ← List.mem_append]
  exact (perm_sortByPath _).mem_iff

/-- A copy that matches holds the taken files, and the subtree it is a copy of is closed. -/
theorem holds_of_matches (hfree : CollisionFree) (hdigest : sourceSnapshotDigest subtree.snapshot = .ok subtree.inputDigest)
    (h : CopyMatches files base payloadRoot authored subtree.inputDigest) :
    ClosedSubtree subtree ∧ HoldsCopy files base payloadRoot authored subtree :=
  holds_of_told (toldApart_of_free hfree hdigest) h

/-- Every item of a copy is read, and so is every directory above one. -/
theorem rebuiltEntries_of_holds (hdigest : sourceSnapshotDigest subtree.snapshot = .ok subtree.inputDigest)
    (hfile : ∃ entry ∈ subtree.snapshot.entries, entry.kind = .file) (hclosed : ClosedSubtree subtree)
    (hholds : HoldsCopy files base payloadRoot authored subtree) :
    ∃ entries directories, rebuiltEntries files base payloadRoot authored = .ok (entries, directories) := by
  have hcanonical := (hashable_of_digest hdigest).paths
  have hitems : ∀ item ∈ (sortedBy Prod.fst files).filter (isCopied base payloadRoot authored),
      ∃ entry, copiedEntry base payloadRoot item = .ok entry := by
    intro item hitem
    obtain ⟨hin, hcopy⟩ := List.mem_filter.mp hitem
    have hlead : startsWith (payloadLead base payloadRoot) item.1 = true := by
      simp only [isCopied, Bool.and_eq_true] at hcopy
      exact hcopy.1.1
    obtain ⟨entry, hentry, _, hpath, _, _⟩ := (hholds _ _ _).mp
      ⟨item, mem_sortedBy.mp hin, hcopy, (Manifest.append_removePrefix hlead).symm, rfl, rfl⟩
    refine ⟨⟨entry.path, .file, item.2.content, item.2.executable⟩, (copiedEntry_eq_ok hcopy).mpr ⟨?_, ?_, rfl⟩⟩
    · exact hcanonical entry hentry
    · rw [hpath]
      exact (Manifest.append_removePrefix hlead).symm
  obtain ⟨entries, hentries⟩ := Result.exists_mapM_ok hitems
  have hmem (entry : SnapshotEntry) (hin : entry ∈ entries) :
      ∃ taken ∈ subtree.snapshot.entries, taken.kind = .file ∧ taken.path = entry.path := by
    obtain ⟨item, hitem, hcopied⟩ := (mem_of_mapM_ok hentries).mp hin
    obtain ⟨hinFiles, hcopy⟩ := List.mem_filter.mp hitem
    obtain ⟨hpath, htext, _⟩ := (copiedEntry_eq_ok hcopy).mp hcopied
    obtain ⟨taken, htaken, hkind, hsame, _, _⟩ := (hholds _ _ _).mp
      ⟨item, mem_sortedBy.mp hinFiles, hcopy, htext, rfl, rfl⟩
    exact ⟨taken, htaken, hkind, path_of_text (hcanonical taken htaken) hpath hsame⟩
  have hdirectories : ∀ raw ∈ copiedDirectories entries, ∃ entry, directoryNamed raw = .ok entry := by
    intro raw hraw
    obtain ⟨entry, hentry, path, hpath, rfl⟩ := mem_copiedDirectories.mp hraw
    obtain ⟨taken, htaken, hkind, hsame⟩ := hmem entry hentry
    have hin : directoryAt path ∈ subtree.snapshot.entries := (hclosed path).mpr ⟨taken, htaken, hkind, hsame ▸ hpath⟩
    exact ⟨directoryAt path, directoryNamed_eq_ok.mpr ⟨path, hcanonical _ hin, rfl, rfl⟩⟩
  obtain ⟨directories, habove⟩ := Result.exists_mapM_ok hdirectories
  have hnonempty : entries.isEmpty = false := by
    obtain ⟨taken, htaken, hkind⟩ := hfile
    obtain ⟨item, hitem, hcopy, _, _, _⟩ := (hholds _ _ _).mpr ⟨taken, htaken, hkind, rfl, rfl, rfl⟩
    obtain ⟨entry, hentry, _⟩ := Result.ok_of_mapM_ok hentries
      (List.mem_filter.mpr ⟨mem_sortedBy.mpr hitem, hcopy⟩)
    cases entries with
    | nil => exact absurd hentry (by simp)
    | cons first rest => rfl
  refine ⟨entries, directories, ?_⟩
  unfold rebuiltEntries
  simp only [hentries, habove, hnonempty, bind, Except.bind]
  rfl

/-- Over files with distinct paths, a copy that holds the files of a closed subtree matches. -/
theorem matches_of_holds (hdigest : sourceSnapshotDigest subtree.snapshot = .ok subtree.inputDigest)
    (hfile : ∃ entry ∈ subtree.snapshot.entries, entry.kind = .file) (hkeys : (files.map Prod.fst).Nodup)
    (hclosed : ClosedSubtree subtree) (hholds : HoldsCopy files base payloadRoot authored subtree) :
    CopyMatches files base payloadRoot authored subtree.inputDigest := by
  obtain ⟨entries, directories, hrebuiltOk⟩ := rebuiltEntries_of_holds hdigest hfile hclosed hholds
  have hrebuilt := rebuilt_of_ok hrebuiltOk
  have hhashable := hashable_of_digest hdigest
  obtain ⟨hentries, hdirectories⟩ := nodup_rebuilt hkeys hrebuiltOk
  have hkind {entry : SnapshotEntry} (hentry : entry ∈ entries) : entry.kind = .file := by
    obtain ⟨item, _, hitem, hcopied⟩ := (hrebuilt.files entry).mp hentry
    exact kind_of_copied hitem hcopied
  have hapart : List.Disjoint entries directories := by
    intro entry hleft hright
    obtain ⟨path, rfl, _⟩ := (hrebuilt.directories entry).mp hright
    exact absurd (hkind hleft) (by simp [directoryAt])
  have hsubtree : subtree.snapshot.entries.Nodup := List.Nodup.of_map _ hhashable.distinct
  have hfiles (entry : SnapshotEntry) : entry ∈ entries ↔ entry ∈ subtree.snapshot.entries ∧ entry.kind = .file := by
    rw [hrebuilt.files]
    constructor
    · rintro ⟨item, hitem, hcopy, hcopied⟩
      obtain ⟨hpath, htext, hform⟩ := (copiedEntry_eq_ok hcopy).mp hcopied
      obtain ⟨taken, htaken, htakenKind, hsame, hcontent, hexecutable⟩ := (hholds _ _ _).mp ⟨item, hitem, hcopy, htext, rfl, rfl⟩
      have heq : taken = entry := by
        rw [hform, ← path_of_text (hhashable.paths taken htaken) hpath hsame, ← hcontent, ← hexecutable, ← htakenKind]
      rw [← heq]
      exact ⟨htaken, htakenKind⟩
    · rintro ⟨hentry, hfileKind⟩
      obtain ⟨item, hitem, hcopy, htext, hcontent, hexecutable⟩ := (hholds _ _ _).mpr ⟨entry, hentry, hfileKind, rfl, rfl, rfl⟩
      refine ⟨item, hitem, hcopy, (copiedEntry_eq_ok hcopy).mpr ⟨hhashable.paths entry hentry, htext, ?_⟩⟩
      rw [hcontent, hexecutable, ← hfileKind]
  have hmem (entry : SnapshotEntry) : entry ∈ subtree.snapshot.entries ↔ entry ∈ entries ++ directories := by
    rw [List.mem_append, hfiles, hrebuilt.directories]
    constructor
    · intro hentry
      have hbare := hhashable.kinds entry hentry
      obtain ⟨path, kind, content, executable⟩ := entry
      cases kind with
      | file => exact Or.inl ⟨hentry, rfl⟩
      | symlink => exact hbare.elim
      | special => exact hbare.elim
      | directory =>
          obtain ⟨rfl, rfl⟩ : content = [] ∧ executable = false := hbare
          obtain ⟨file, hin, hfileKind, hpath⟩ := (hclosed path).mp hentry
          exact Or.inr ⟨path, rfl, file, (hfiles file).mpr ⟨hin, hfileKind⟩, hpath⟩
    · rintro (⟨hentry, _⟩ | ⟨path, rfl, file, hin, hpath⟩)
      · exact hentry
      · obtain ⟨hfileIn, hfileKind⟩ := (hfiles file).mp hin
        exact (hclosed path).mpr ⟨file, hfileIn, hfileKind, hpath⟩
  have hperm : subtree.snapshot.entries.Perm (entries ++ directories) :=
    (List.perm_ext_iff_of_nodup hsubtree (hentries.append hdirectories hapart)).mpr hmem
  have hsorted : (SourceSnapshot.of .immutableGit (entries ++ directories)).entries = subtree.snapshot.entries := by
    change sortByPath (entries ++ directories) = subtree.snapshot.entries
    rw [← sortByPath_eq_of_perm hperm hhashable.distinct, subtree.snapshot.sorted]
  have hsame : sourceSnapshotDigest (SourceSnapshot.of .immutableGit (entries ++ directories)) = .ok subtree.inputDigest := by
    unfold sourceSnapshotDigest
    rw [hsorted]
    exact hdigest
  refine ⟨⟨subtree.inputDigest, subtree.inputDigest, entries.length⟩, ?_, by simp [CopyIntegrity.matches]⟩
  unfold verifyVendoredCopy
  simp only [hrebuiltOk, hsame, bind, Except.bind]
  rfl

/-- Over files with distinct paths, a copy matches exactly where it holds the taken files
and the subtree is closed. -/
theorem copyMatches_iff (hfree : CollisionFree) (hdigest : sourceSnapshotDigest subtree.snapshot = .ok subtree.inputDigest)
    (hfile : ∃ entry ∈ subtree.snapshot.entries, entry.kind = .file) (hkeys : (files.map Prod.fst).Nodup) :
    CopyMatches files base payloadRoot authored subtree.inputDigest ↔
      ClosedSubtree subtree ∧ HoldsCopy files base payloadRoot authored subtree :=
  ⟨holds_of_matches hfree hdigest, fun ⟨hclosed, hholds⟩ => matches_of_holds hdigest hfile hkeys hclosed hholds⟩

end Verified

end AgentArtifacts.Vendoring
