import AgentArtifacts.Store.ObjectPaths

/-!
# Normalized entries

The entries of an object: the limits are checked on the entries as they come, and the
directories above them are added afterwards. The normal form is the closure of the
entries under the directories above them, in path order, so it depends on the members
alone.
-/

namespace AgentArtifacts

/-! ## Snapshot entries -/

inductive SnapshotEntryKind where
  | file
  | directory
  | symlink
  | special
deriving DecidableEq

def SnapshotEntryKind.value : SnapshotEntryKind → String
  | .file => "file"
  | .directory => "directory"
  | .symlink => "symlink"
  | .special => "special"

structure SnapshotEntry where
  path : SafeRelativePath
  kind : SnapshotEntryKind
  content : Bytes := []
  executable : Bool := false
deriving DecidableEq

def maxFiles : Nat := 10000

def maxEntries : Nat := 20000

def maxFileBytes : Nat := 10 * 1024 * 1024

def maxTotalBytes : Nat := 100 * 1024 * 1024

def maxEntryDepth : Nat := 64

def storeInvalid : DiagnosticCode := ⟨"store-invalid"⟩

def storeError {α : Type} (message : String) : Result α := error storeInvalid message

section Normalization

variable [StandardLibrary]

/-! ## The entries as they come -/

/-- The loop over the entries: those seen so far, in order, and what the files add up to. -/
structure Collected where
  explicit : List SnapshotEntry := []
  fileCount : Nat := 0
  totalBytes : Nat := 0
deriving DecidableEq

def collectFile (state : Collected) (entry : SnapshotEntry) : Result Collected :=
  let fileCount := state.fileCount + 1
  let totalBytes := state.totalBytes + entry.content.length
  if fileCount > maxFiles then storeError "object exceeds maximum file count"
  else if entry.content.length > maxFileBytes then
    storeError ("object file exceeds maximum size: " ++ entry.path.str)
  else if totalBytes > maxTotalBytes then storeError "object exceeds maximum total size"
  else .ok ⟨state.explicit ++ [entry], fileCount, totalBytes⟩

def collectEntry (state : Collected) (entry : SnapshotEntry) : Result Collected :=
  let raw := entry.path.str
  if state.explicit.length + 1 > maxEntries then storeError "object exceeds maximum entry count"
  else if (parseRelativePath raw).toOption ≠ some entry.path ∨ raw ∈ state.explicit.map (·.path.str) then
    storeError ("object entry path is invalid or duplicated: " ++ pyRepr raw)
  else if entry.path.parts.length > maxEntryDepth then storeError ("object entry exceeds maximum depth: " ++ raw)
  else
    match entry.kind with
    | .directory =>
        if entry.content ≠ [] ∨ entry.executable = true then
          storeError ("object directory has file metadata: " ++ raw)
        else .ok { state with explicit := state.explicit ++ [entry] }
    | .file => collectFile state entry
    | kind => storeError ("object contains forbidden " ++ kind.value ++ ": " ++ raw)

def collectEntries (entries : List SnapshotEntry) : Result Collected := entries.foldlM collectEntry {}

/-! ## The directories above them -/

def directoryAt (path : SafeRelativePath) : SnapshotEntry := { path := path, kind := .directory }

/-- One directory above an entry. The reader of paths is asserted to give it back. -/
def requireDirectory (normalized : List SnapshotEntry) (directory : SafeRelativePath) : Result (List SnapshotEntry) :=
  match normalized.find? fun entry => entry.path.str == directory.str with
  | some existing =>
      if existing.kind ≠ .directory then
        storeError ("object file conflicts with required directory: " ++ directory.str)
      else .ok normalized
  | none =>
      match parseRelativePath directory.str with
      | .error _ => raised ""
      | .ok path => .ok (normalized ++ [directoryAt path])

def sortByPath (entries : List SnapshotEntry) : List SnapshotEntry :=
  entries.insertionSort fun a b => a.path.str ≤ b.path.str

def normalizedEntries (entries : List SnapshotEntry) : Result (List SnapshotEntry) := do
  let state ← collectEntries entries
  if state.explicit = [] then storeError "object must contain at least one entry"
  else
    let normalized ←
      (state.explicit.flatMap fun entry => properAncestors entry.path).foldlM requireDirectory state.explicit
    return sortByPath normalized

omit [StandardLibrary] in
theorem perm_sortByPath (entries : List SnapshotEntry) : (sortByPath entries).Perm entries :=
  List.perm_insertionSort _ _

omit [StandardLibrary] in
theorem sortByPath_pairwise (entries : List SnapshotEntry) :
    (sortByPath entries).Pairwise fun a b => a.path.str ≤ b.path.str := by
  have : Std.Total fun a b : SnapshotEntry => a.path.str ≤ b.path.str := ⟨fun _ _ => le_total _ _⟩
  have : IsTrans SnapshotEntry fun a b => a.path.str ≤ b.path.str := ⟨fun _ _ _ => le_trans⟩
  exact List.pairwise_insertionSort _ _

omit [StandardLibrary] in
/-- Entries with distinct paths have one order. -/
theorem sortByPath_eq_of_perm {a b : List SnapshotEntry} (hperm : a.Perm b) (hdistinct : (a.map (·.path.str)).Nodup) :
    sortByPath a = sortByPath b := by
  have hboth : (sortByPath a).Perm (sortByPath b) :=
    (perm_sortByPath a).trans (hperm.trans (perm_sortByPath b).symm)
  refine hboth.eq_of_pairwise (fun x y hx hy hxy hyx => ?_) (sortByPath_pairwise a) (sortByPath_pairwise b)
  have hx' : x ∈ a := (perm_sortByPath a).mem_iff.mp hx
  have hy' : y ∈ a := hperm.mem_iff.mpr ((perm_sortByPath b).mem_iff.mp hy)
  exact List.inj_on_of_nodup_map hdistinct hx' hy' (le_antisymm hxy hyx)

/-! ## What the loop accepts -/

def SnapshotEntry.isFile (entry : SnapshotEntry) : Bool := entry.kind == .file

/-- A directory carries nothing, and a file is within its limit. -/
def SnapshotEntry.plain (entry : SnapshotEntry) : Prop :=
  match entry.kind with
  | .directory => entry.content = [] ∧ entry.executable = false
  | .file => entry.content.length ≤ maxFileBytes
  | _ => False

def fileCount (entries : List SnapshotEntry) : Nat := entries.countP (·.isFile)

def totalBytes (entries : List SnapshotEntry) : Nat :=
  ((entries.filter (·.isFile)).map (·.content.length)).sum

/-- What is checked of the entries one by one, beside their number. -/
structure Collectable (entries : List SnapshotEntry) : Prop where
  paths : ∀ entry ∈ entries, Canonical entry.path
  distinct : (entries.map (·.path)).Nodup
  depth : ∀ entry ∈ entries, entry.path.parts.length ≤ maxEntryDepth
  shape : ∀ entry ∈ entries, entry.plain
  files : fileCount entries ≤ maxFiles
  bytes : totalBytes entries ≤ maxTotalBytes

theorem parsed_iff_canonical {path : SafeRelativePath} :
    (parseRelativePath path.str).toOption = some path ↔ Canonical path := by
  unfold Canonical
  cases parseRelativePath path.str <;> simp [Except.toOption]

variable {entries : List SnapshotEntry}

theorem mem_strs_iff (h : ∀ entry ∈ entries, Canonical entry.path)
    {path : SafeRelativePath} (hpath : Canonical path) :
    path.str ∈ entries.map (·.path.str) ↔ path ∈ entries.map (·.path) := by
  simp only [List.mem_map]
  constructor
  · rintro ⟨entry, hentry, hstr⟩
    exact ⟨entry, hentry, path_eq_of_str (h entry hentry) hpath hstr⟩
  · rintro ⟨entry, hentry, rfl⟩
    exact ⟨entry, hentry, rfl⟩

omit [StandardLibrary] in
theorem collectFile_eq_ok {state next : Collected} {entry : SnapshotEntry} :
    collectFile state entry = .ok next ↔
      state.fileCount + 1 ≤ maxFiles ∧ entry.content.length ≤ maxFileBytes ∧
        state.totalBytes + entry.content.length ≤ maxTotalBytes ∧
        next = ⟨state.explicit ++ [entry], state.fileCount + 1, state.totalBytes + entry.content.length⟩ := by
  unfold collectFile
  dsimp only
  split
  · simp [storeError, error]
    omega
  split
  · simp [storeError, error]
    omega
  split
  · simp [storeError, error]
    omega
  · rw [Except.ok.injEq]
    constructor
    · rintro rfl
      exact ⟨by omega, by omega, by omega, rfl⟩
    · rintro ⟨_, _, _, rfl⟩
      rfl

/-- What one more entry adds to the number of files and to their octets. -/
def SnapshotEntry.files (entry : SnapshotEntry) : Nat := if entry.isFile then 1 else 0

def SnapshotEntry.octets (entry : SnapshotEntry) : Nat := if entry.isFile then entry.content.length else 0

omit [StandardLibrary] in
theorem fileCount_snoc (entries : List SnapshotEntry) (entry : SnapshotEntry) :
    fileCount (entries ++ [entry]) = fileCount entries + entry.files := by
  simp [fileCount, SnapshotEntry.files, List.countP_append, List.countP_cons]

omit [StandardLibrary] in
theorem totalBytes_snoc (entries : List SnapshotEntry) (entry : SnapshotEntry) :
    totalBytes (entries ++ [entry]) = totalBytes entries + entry.octets := by
  cases hfile : entry.isFile <;> simp [totalBytes, SnapshotEntry.octets, hfile]

/-- The checks of one entry against those seen before it. -/
structure Follows (state : Collected) (entry : SnapshotEntry) : Prop where
  count : state.explicit.length + 1 ≤ maxEntries
  path : Canonical entry.path
  fresh : entry.path ∉ state.explicit.map (·.path)
  depth : entry.path.parts.length ≤ maxEntryDepth
  shape : entry.plain
  files : entry.isFile = true → state.fileCount + 1 ≤ maxFiles
  bytes : entry.isFile = true → state.totalBytes + entry.content.length ≤ maxTotalBytes

theorem collectEntry_eq_ok {state next : Collected} {entry : SnapshotEntry}
    (hseen : ∀ seen ∈ state.explicit, Canonical seen.path) :
    collectEntry state entry = .ok next ↔ Follows state entry ∧
      next = ⟨state.explicit ++ [entry], state.fileCount + entry.files, state.totalBytes + entry.octets⟩ := by
  unfold collectEntry
  dsimp only
  split
  · rename_i hcount
    simp only [storeError, error, reduceCtorEq, false_iff, not_and]
    intro h
    exact absurd h.count (by omega)
  rename_i hcount
  split
  · rename_i hpath
    rw [ne_eq, parsed_iff_canonical] at hpath
    simp only [storeError, error, reduceCtorEq, false_iff, not_and]
    intro h
    rcases hpath with hpath | hpath
    · exact absurd h.path hpath
    · exact absurd ((mem_strs_iff hseen h.path).mp hpath) h.fresh
  rename_i hpath
  obtain ⟨hcanonical, hfresh⟩ := not_or.mp hpath
  rw [ne_eq, parsed_iff_canonical, not_not] at hcanonical
  rw [mem_strs_iff hseen hcanonical] at hfresh
  split
  · rename_i hdepth
    simp only [storeError, error, reduceCtorEq, false_iff, not_and]
    intro h
    exact absurd h.depth (by omega)
  rename_i hdepth
  split
  · rename_i hkind
    have hfile : entry.isFile = false := by simp [SnapshotEntry.isFile, hkind]
    split
    · rename_i hmetadata
      simp only [storeError, error, reduceCtorEq, false_iff, not_and]
      intro h
      have hplain := h.shape
      simp only [SnapshotEntry.plain, hkind] at hplain
      rcases hmetadata with hcontent | hbit
      · exact absurd hplain.1 hcontent
      · rw [hplain.2] at hbit
        exact absurd hbit (by decide)
    · rename_i hmetadata
      obtain ⟨hcontent, hbit⟩ := not_or.mp hmetadata
      rw [not_not] at hcontent
      have hplain : entry.plain := by
        simp only [SnapshotEntry.plain, hkind]
        exact ⟨hcontent, by simpa using hbit⟩
      rw [Except.ok.injEq, SnapshotEntry.files, SnapshotEntry.octets, hfile]
      constructor
      · rintro rfl
        exact ⟨⟨by omega, hcanonical, hfresh, by omega, hplain, by simp [hfile], by simp [hfile]⟩, by simp⟩
      · rintro ⟨_, rfl⟩
        simp
  · rename_i hkind
    have hfile : entry.isFile = true := by simp [SnapshotEntry.isFile, hkind]
    rw [collectFile_eq_ok, SnapshotEntry.files, SnapshotEntry.octets, hfile]
    constructor
    · rintro ⟨hfiles, hlength, hbytes, rfl⟩
      have hplain : entry.plain := by
        simp only [SnapshotEntry.plain, hkind]
        exact hlength
      exact ⟨⟨by omega, hcanonical, hfresh, by omega, hplain, fun _ => hfiles, fun _ => hbytes⟩, rfl⟩
    · rintro ⟨h, rfl⟩
      have hplain := h.shape
      simp only [SnapshotEntry.plain, hkind] at hplain
      exact ⟨h.files hfile, hplain, h.bytes hfile, rfl⟩
  · rename_i hdirectory hfile
    simp only [storeError, error, reduceCtorEq, false_iff, not_and]
    intro h
    have hplain := h.shape
    unfold SnapshotEntry.plain at hplain
    split at hplain
    · rename_i hkind
      exact absurd hkind hdirectory
    · rename_i hkind
      exact absurd hkind hfile
    · exact hplain.elim

theorem collectable_snoc {entry : SnapshotEntry} :
    Collectable (entries ++ [entry]) ↔ Collectable entries ∧ Canonical entry.path ∧
      entry.path ∉ entries.map (·.path) ∧ entry.path.parts.length ≤ maxEntryDepth ∧ entry.plain ∧
      fileCount entries + entry.files ≤ maxFiles ∧ totalBytes entries + entry.octets ≤ maxTotalBytes := by
  constructor
  · rintro ⟨hpaths, hdistinct, hdepth, hshape, hfiles, hbytes⟩
    rw [fileCount_snoc] at hfiles
    rw [totalBytes_snoc] at hbytes
    rw [List.map_append, List.map_cons, List.map_nil] at hdistinct
    have hnodup := List.nodup_append.mp hdistinct
    refine ⟨⟨fun e he => hpaths e (by simp [he]), hnodup.1, fun e he => hdepth e (by simp [he]),
      fun e he => hshape e (by simp [he]), by omega, by omega⟩, hpaths entry (by simp), ?_, hdepth entry (by simp),
      hshape entry (by simp), hfiles, hbytes⟩
    exact fun hmem => hnodup.2.2 _ hmem _ List.mem_cons_self rfl
  · rintro ⟨⟨hpaths, hdistinct, hdepth, hshape, hfiles, hbytes⟩, hpath, hfresh, hlength, hplain, hcount, htotal⟩
    have hmem {good : SnapshotEntry → Prop} (hall : ∀ e ∈ entries, good e) (hentry : good entry) :
        ∀ e ∈ entries ++ [entry], good e := by
      intro e he
      rcases List.mem_append.mp he with he | he
      · exact hall e he
      · rw [List.mem_singleton.mp he]
        exact hentry
    refine ⟨hmem hpaths hpath, ?_, hmem hdepth hlength, hmem hshape hplain, ?_, ?_⟩
    · rw [List.map_append, List.map_cons, List.map_nil, List.nodup_append]
      refine ⟨hdistinct, List.nodup_singleton _, ?_⟩
      rintro path hpathMem other hother rfl
      exact hfresh (List.mem_singleton.mp hother ▸ hpathMem)
    · rw [fileCount_snoc]
      exact hcount
    · rw [totalBytes_snoc]
      exact htotal

/-- By the entries from the last one: the loop is at the entries seen so far and their sums. -/
theorem collectEntries_eq_ok {state : Collected} :
    collectEntries entries = .ok state ↔ entries.length ≤ maxEntries ∧ Collectable entries ∧
      state = ⟨entries, fileCount entries, totalBytes entries⟩ := by
  induction entries using List.reverseRecOn generalizing state with
  | nil =>
      have hempty : Collectable [] := ⟨by simp, by simp, by simp, by simp, by simp [fileCount], by simp [totalBytes]⟩
      simp only [collectEntries, List.foldlM_nil, pure, Except.pure, Except.ok.injEq, List.length_nil, hempty, true_and]
      exact ⟨fun h => ⟨by decide, h.symm⟩, fun h => h.2.symm⟩
  | append_singleton entries entry ih =>
      have hstep : collectEntries (entries ++ [entry]) = collectEntries entries >>= fun state => collectEntry state entry := by
        simp [collectEntries, List.foldlM_append]
      rw [hstep, List.length_append, List.length_singleton, collectable_snoc, fileCount_snoc, totalBytes_snoc]
      constructor
      · intro h
        obtain ⟨seen, hseen, h⟩ := Result.of_bind_ok h
        obtain ⟨_, hcollectable, rfl⟩ := ih.mp hseen
        obtain ⟨hfollows, rfl⟩ := (collectEntry_eq_ok hcollectable.paths).mp h
        have hfiles := hcollectable.files
        have hbytes := hcollectable.bytes
        have hcount : fileCount entries + entry.files ≤ maxFiles := by
          have hmore := hfollows.files
          unfold SnapshotEntry.files
          split
          · rename_i hfile
            exact hmore hfile
          · exact hfiles
        have htotal : totalBytes entries + entry.octets ≤ maxTotalBytes := by
          have hmore := hfollows.bytes
          unfold SnapshotEntry.octets
          split
          · rename_i hfile
            exact hmore hfile
          · exact hbytes
        exact ⟨hfollows.count, ⟨hcollectable, hfollows.path, hfollows.fresh, hfollows.depth, hfollows.shape, hcount, htotal⟩, rfl⟩
      · rintro ⟨hlength, ⟨hcollectable, hpath, hfresh, hdepth, hplain, hcount, htotal⟩, rfl⟩
        rw [ih.mpr ⟨by omega, hcollectable, rfl⟩]
        refine (collectEntry_eq_ok hcollectable.paths).mpr ⟨⟨hlength, hpath, hfresh, hdepth, hplain, ?_, ?_⟩, rfl⟩
        · intro hfile
          simpa [SnapshotEntry.files, hfile] using hcount
        · intro hfile
          simpa [SnapshotEntry.octets, hfile] using htotal

/-! ## What the directories add -/

def addDirectory (normalized : List SnapshotEntry) (directory : SafeRelativePath) : List SnapshotEntry :=
  if directory ∈ normalized.map (·.path) then normalized else normalized ++ [directoryAt directory]

def withDirectories (normalized : List SnapshotEntry) (directories : List SafeRelativePath) : List SnapshotEntry :=
  directories.foldl addDirectory normalized

omit [StandardLibrary] in
/-- The directories that were missing come behind, once each. -/
theorem withDirectories_spec (normalized : List SnapshotEntry) (directories : List SafeRelativePath) :
    ∃ added : List SafeRelativePath, withDirectories normalized directories = normalized ++ added.map directoryAt ∧ added.Nodup ∧
      ∀ path, path ∈ added ↔ path ∈ directories ∧ path ∉ normalized.map (·.path) := by
  induction directories generalizing normalized with
  | nil => exact ⟨[], by simp [withDirectories], by simp, by simp⟩
  | cons directory rest ih =>
      obtain ⟨added, hadded, hnodup, hmem⟩ := ih (addDirectory normalized directory)
      have hstep : withDirectories normalized (directory :: rest) =
          withDirectories (addDirectory normalized directory) rest := rfl
      rw [hstep, hadded]
      by_cases hold : directory ∈ normalized.map (·.path)
      · rw [addDirectory, if_pos hold] at hmem ⊢
        refine ⟨added, rfl, hnodup, fun path => ?_⟩
        rw [hmem, List.mem_cons]
        constructor
        · exact fun h => ⟨Or.inr h.1, h.2⟩
        · rintro ⟨rfl | hrest, hnew⟩
          · exact absurd hold hnew
          · exact ⟨hrest, hnew⟩
      · rw [addDirectory, if_neg hold] at hmem ⊢
        have hpaths (path : SafeRelativePath) :
            path ∈ (normalized ++ [directoryAt directory]).map (·.path) ↔
              path ∈ normalized.map (·.path) ∨ path = directory := by
          simp [directoryAt]
        refine ⟨directory :: added, by simp, List.nodup_cons.mpr ⟨?_, hnodup⟩, fun path => ?_⟩
        · intro hin
          exact ((hmem directory).mp hin).2 ((hpaths directory).mpr (Or.inr rfl))
        · rw [List.mem_cons, hmem, hpaths, List.mem_cons]
          constructor
          · rintro (rfl | ⟨hrest, hnew⟩)
            · exact ⟨Or.inl rfl, hold⟩
            · exact ⟨Or.inr hrest, fun h => hnew (Or.inl h)⟩
          · rintro ⟨rfl | hrest, hnew⟩
            · exact Or.inl rfl
            · by_cases hsame : path = directory
              · exact Or.inl hsame
              · exact Or.inr ⟨hrest, fun h => h.elim hnew hsame⟩

theorem requireDirectory_eq_ok {normalized next : List SnapshotEntry} {directory : SafeRelativePath}
    (hpaths : ∀ entry ∈ normalized, Canonical entry.path) (hdistinct : (normalized.map (·.path)).Nodup)
    (hdirectory : Canonical directory) :
    requireDirectory normalized directory = .ok next ↔
      (∀ entry ∈ normalized, entry.path = directory → entry.kind = .directory) ∧
        next = addDirectory normalized directory := by
  unfold requireDirectory addDirectory
  split
  · rename_i existing hfind
    have hmem := List.mem_of_find?_eq_some hfind
    have hpath : existing.path = directory :=
      path_eq_of_str (hpaths existing hmem) hdirectory (by simpa using List.find?_some hfind)
    have hin : directory ∈ normalized.map (·.path) := List.mem_map.mpr ⟨existing, hmem, hpath⟩
    have hother (entry : SnapshotEntry) (hentry : entry ∈ normalized) (h : entry.path = directory) : entry = existing :=
      List.inj_on_of_nodup_map hdistinct hentry hmem (h.trans hpath.symm)
    rw [if_pos hin]
    split
    · rename_i hkind
      simp only [storeError, error, reduceCtorEq, false_iff, not_and]
      exact fun h => absurd (h existing hmem hpath) hkind
    · rename_i hkind
      rw [ne_eq, not_not] at hkind
      rw [Except.ok.injEq]
      constructor
      · rintro rfl
        exact ⟨fun entry hentry h => by rw [hother entry hentry h, hkind], rfl⟩
      · exact fun h => h.2.symm
  · rename_i hfind
    have hout : directory ∉ normalized.map (·.path) := by
      intro hin
      obtain ⟨entry, hentry, rfl⟩ := List.mem_map.mp hin
      exact absurd (List.find?_eq_none.mp hfind entry hentry) (by simp)
    have hparsed : parseRelativePath directory.str = .ok directory := hdirectory
    rw [if_neg hout, hparsed]
    dsimp only
    rw [Except.ok.injEq]
    constructor
    · rintro rfl
      refine ⟨fun entry hentry h => ?_, rfl⟩
      exact absurd (List.mem_map.mpr ⟨entry, hentry, h⟩) hout
    · exact fun h => h.2.symm

/-- By the directories: one that was added is no file, so only the entries can be in conflict. -/
theorem requireDirectories_eq_ok {normalized next : List SnapshotEntry} {directories : List SafeRelativePath}
    (hpaths : ∀ entry ∈ normalized, Canonical entry.path) (hdistinct : (normalized.map (·.path)).Nodup)
    (hdirectories : ∀ directory ∈ directories, Canonical directory) :
    directories.foldlM requireDirectory normalized = .ok next ↔
      (∀ directory ∈ directories, ∀ entry ∈ normalized, entry.path = directory → entry.kind = .directory) ∧
        next = withDirectories normalized directories := by
  induction directories generalizing normalized with
  | nil =>
      simp only [List.foldlM_nil, pure, Except.pure, Except.ok.injEq, List.not_mem_nil, false_implies, implies_true,
        true_and, withDirectories, List.foldl_nil]
      exact eq_comm
  | cons directory rest ih =>
      rw [List.forall_mem_cons] at hdirectories
      have hstep : withDirectories normalized (directory :: rest) =
          withDirectories (addDirectory normalized directory) rest := rfl
      have hmem (entry : SnapshotEntry) (hentry : entry ∈ addDirectory normalized directory) :
          entry ∈ normalized ∨ entry = directoryAt directory := by
        unfold addDirectory at hentry
        split at hentry
        · exact Or.inl hentry
        · simpa using hentry
      have hsub (entry : SnapshotEntry) (hentry : entry ∈ normalized) : entry ∈ addDirectory normalized directory := by
        unfold addDirectory
        split
        · exact hentry
        · exact List.mem_append_left _ hentry
      have hnextPaths : ∀ entry ∈ addDirectory normalized directory, Canonical entry.path := by
        intro entry hentry
        rcases hmem entry hentry with hentry | rfl
        · exact hpaths entry hentry
        · exact hdirectories.1
      have hnextDistinct : ((addDirectory normalized directory).map (·.path)).Nodup := by
        unfold addDirectory
        split
        · exact hdistinct
        · rename_i hout
          rw [List.map_append, List.map_cons, List.map_nil, List.nodup_append]
          refine ⟨hdistinct, List.nodup_singleton _, ?_⟩
          rintro path hpath other hother rfl
          rw [List.mem_singleton.mp hother] at hpath
          exact hout hpath
      rw [List.foldlM_cons, hstep]
      constructor
      · intro h
        obtain ⟨added, hadded, h⟩ := Result.of_bind_ok h
        obtain ⟨hhead, rfl⟩ := (requireDirectory_eq_ok hpaths hdistinct hdirectories.1).mp hadded
        obtain ⟨hrest, rfl⟩ := (ih hnextPaths hnextDistinct hdirectories.2).mp h
        exact ⟨List.forall_mem_cons.mpr ⟨hhead, fun d hd entry hentry => hrest d hd entry (hsub entry hentry)⟩, rfl⟩
      · rintro ⟨hconflicts, rfl⟩
        rw [List.forall_mem_cons] at hconflicts
        rw [(requireDirectory_eq_ok hpaths hdistinct hdirectories.1).mpr ⟨hconflicts.1, rfl⟩]
        refine (ih hnextPaths hnextDistinct hdirectories.2).mpr ⟨fun d hd entry hentry h => ?_, rfl⟩
        rcases hmem entry hentry with hentry | rfl
        · exact hconflicts.2 d hd entry hentry h
        · rfl

/-! ## The closure -/

def impliedDirectories (entries : List SnapshotEntry) : List SafeRelativePath :=
  entries.flatMap fun entry => properAncestors entry.path

/-- The entries with the directories above them, in path order. -/
def closure (entries : List SnapshotEntry) : List SnapshotEntry :=
  sortByPath (withDirectories entries (impliedDirectories entries))

/-- Every check of the entries but the one of their number. -/
structure WellFormed (entries : List SnapshotEntry) : Prop extends Collectable entries where
  conflicts : ∀ directory ∈ impliedDirectories entries, ∀ entry ∈ entries, entry.path = directory →
    entry.kind = .directory

theorem canonical_impliedDirectories (hnfc : NfcPrefixes)
    (h : ∀ entry ∈ entries, Canonical entry.path) : ∀ directory ∈ impliedDirectories entries, Canonical directory := by
  intro directory hdirectory
  obtain ⟨entry, hentry, hancestor⟩ := List.mem_flatMap.mp hdirectory
  exact canonical_of_ancestor hnfc (h entry hentry) hancestor

/-- What is accepted, and what it becomes. -/
theorem normalizedEntries_eq_ok (hnfc : NfcPrefixes) {entries normalized : List SnapshotEntry} :
    normalizedEntries entries = .ok normalized ↔
      entries ≠ [] ∧ entries.length ≤ maxEntries ∧ WellFormed entries ∧ normalized = closure entries := by
  unfold normalizedEntries
  constructor
  · intro h
    obtain ⟨state, hstate, h⟩ := Result.of_bind_ok h
    obtain ⟨hlength, hcollectable, rfl⟩ := collectEntries_eq_ok.mp hstate
    dsimp only at h
    split at h
    · exact absurd h (by simp [storeError, error])
    rename_i hne
    obtain ⟨closed, hclosed, h⟩ := Result.of_bind_ok h
    obtain rfl := Except.ok.inj h
    have hdirectories := canonical_impliedDirectories hnfc hcollectable.paths
    obtain ⟨hconflicts, rfl⟩ :=
      (requireDirectories_eq_ok hcollectable.paths hcollectable.distinct hdirectories).mp hclosed
    exact ⟨hne, hlength, ⟨hcollectable, hconflicts⟩, rfl⟩
  · rintro ⟨hne, hlength, hformed, rfl⟩
    have hdirectories := canonical_impliedDirectories hnfc hformed.paths
    rw [collectEntries_eq_ok.mpr ⟨hlength, hformed.toCollectable, rfl⟩]
    have hclosed := (requireDirectories_eq_ok hformed.paths hformed.distinct hdirectories).mpr ⟨hformed.conflicts, rfl⟩
    unfold impliedDirectories at hclosed
    simp only [bind, Except.bind, hne, if_false, hclosed]
    rfl

section Closure

omit [StandardLibrary]

theorem perm_closure (entries : List SnapshotEntry) :
    ∃ added : List SafeRelativePath, (closure entries).Perm (entries ++ added.map directoryAt) ∧ added.Nodup ∧
      ∀ path, path ∈ added ↔ path ∈ impliedDirectories entries ∧ path ∉ entries.map (·.path) := by
  obtain ⟨added, hadded, hnodup, hmem⟩ := withDirectories_spec entries (impliedDirectories entries)
  refine ⟨added, ?_, hnodup, hmem⟩
  rw [closure, hadded]
  exact List.perm_insertionSort _ _

variable {entries : List SnapshotEntry}

theorem mem_closure {entry : SnapshotEntry} :
    entry ∈ closure entries ↔ entry ∈ entries ∨
      ∃ directory ∈ impliedDirectories entries, directory ∉ entries.map (·.path) ∧ entry = directoryAt directory := by
  obtain ⟨added, hperm, _, hmem⟩ := perm_closure entries
  rw [hperm.mem_iff, List.mem_append, List.mem_map]
  constructor
  · rintro (h | ⟨directory, hdirectory, rfl⟩)
    · exact Or.inl h
    · obtain ⟨himplied, hnew⟩ := (hmem directory).mp hdirectory
      exact Or.inr ⟨directory, himplied, hnew, rfl⟩
  · rintro (h | ⟨directory, himplied, hnew, rfl⟩)
    · exact Or.inl h
    · exact Or.inr ⟨directory, (hmem directory).mpr ⟨himplied, hnew⟩, rfl⟩

theorem mem_paths_closure {path : SafeRelativePath} :
    path ∈ (closure entries).map (·.path) ↔ path ∈ entries.map (·.path) ∨ path ∈ impliedDirectories entries := by
  rw [List.mem_map]
  constructor
  · rintro ⟨entry, hentry, rfl⟩
    rcases mem_closure.mp hentry with hentry | ⟨directory, himplied, _, rfl⟩
    · exact Or.inl (List.mem_map.mpr ⟨entry, hentry, rfl⟩)
    · exact Or.inr himplied
  · intro h
    by_cases hold : path ∈ entries.map (·.path)
    · obtain ⟨entry, hentry, rfl⟩ := List.mem_map.mp hold
      exact ⟨entry, mem_closure.mpr (Or.inl hentry), rfl⟩
    · exact ⟨directoryAt path, mem_closure.mpr (Or.inr ⟨path, h.resolve_left hold, hold, rfl⟩), rfl⟩

theorem distinct_closure (h : (entries.map (·.path)).Nodup) :
    ((closure entries).map (·.path)).Nodup := by
  obtain ⟨added, hperm, hnodup, hmem⟩ := perm_closure entries
  rw [(hperm.map (·.path)).nodup_iff, List.map_append, List.map_map, List.nodup_append]
  have hid : List.map ((·.path) ∘ directoryAt) added = added := List.map_id added
  rw [hid]
  refine ⟨h, hnodup, ?_⟩
  rintro path hpath other hother rfl
  exact ((hmem path).mp hother).2 hpath

theorem impliedDirectories_closure {path : SafeRelativePath} :
    path ∈ impliedDirectories (closure entries) ↔ path ∈ impliedDirectories entries := by
  simp only [impliedDirectories, List.mem_flatMap]
  constructor
  · rintro ⟨entry, hentry, hpath⟩
    rcases mem_closure.mp hentry with hentry | ⟨directory, himplied, _, rfl⟩
    · exact ⟨entry, hentry, hpath⟩
    · obtain ⟨below, hbelow, hdirectory⟩ := List.mem_flatMap.mp himplied
      exact ⟨below, hbelow, properAncestors_trans hdirectory hpath⟩
  · rintro ⟨entry, hentry, hpath⟩
    exact ⟨entry, mem_closure.mpr (Or.inl hentry), hpath⟩

theorem closure_sorted (entries : List SnapshotEntry) :
    (closure entries).Pairwise fun a b => a.path.str ≤ b.path.str :=
  sortByPath_pairwise _

/-- Nothing is missing above the entries of a closure. -/
theorem closure_closure (entries : List SnapshotEntry) : closure (closure entries) = closure entries := by
  obtain ⟨added, hadded, _, hmem⟩ := withDirectories_spec (closure entries) (impliedDirectories (closure entries))
  have hnone : added = [] := by
    refine List.eq_nil_iff_forall_not_mem.mpr fun path hpath => ?_
    obtain ⟨himplied, hnew⟩ := (hmem path).mp hpath
    exact hnew (mem_paths_closure.mpr (Or.inr (impliedDirectories_closure.mp himplied)))
  rw [closure, hadded, hnone, List.map_nil, List.append_nil]
  exact List.Pairwise.insertionSort_eq (closure_sorted entries)

theorem fileCount_closure (entries : List SnapshotEntry) : fileCount (closure entries) = fileCount entries := by
  obtain ⟨added, hperm, _, _⟩ := perm_closure entries
  have hnone : List.countP (·.isFile) (added.map directoryAt) = 0 := by
    rw [List.countP_eq_zero]
    intro entry hentry
    obtain ⟨path, _, rfl⟩ := List.mem_map.mp hentry
    simp [SnapshotEntry.isFile, directoryAt]
  rw [fileCount, hperm.countP_eq, List.countP_append, hnone]
  rfl

theorem totalBytes_closure (entries : List SnapshotEntry) : totalBytes (closure entries) = totalBytes entries := by
  obtain ⟨added, hperm, _, _⟩ := perm_closure entries
  have hnone : (added.map directoryAt).filter (·.isFile) = [] := by
    rw [List.filter_eq_nil_iff]
    intro entry hentry
    obtain ⟨path, _, rfl⟩ := List.mem_map.mp hentry
    simp [SnapshotEntry.isFile, directoryAt]
  rw [totalBytes, ((hperm.filter _).map _).sum_nat, List.filter_append, hnone, List.append_nil]
  rfl

/-- Every path that the object will hold, once. -/
def everyPath (entries : List SnapshotEntry) : List SafeRelativePath :=
  (entries.flatMap fun entry => entry.path :: properAncestors entry.path).dedup

theorem mem_everyPath {path : SafeRelativePath} :
    path ∈ everyPath entries ↔ path ∈ entries.map (·.path) ∨ path ∈ impliedDirectories entries := by
  simp only [everyPath, impliedDirectories, List.mem_dedup, List.mem_flatMap, List.mem_cons, List.mem_map]
  constructor
  · rintro ⟨entry, hentry, rfl | habove⟩
    · exact Or.inl ⟨entry, hentry, rfl⟩
    · exact Or.inr ⟨entry, hentry, habove⟩
  · rintro (⟨entry, hentry, rfl⟩ | ⟨entry, hentry, habove⟩)
    · exact ⟨entry, hentry, Or.inl rfl⟩
    · exact ⟨entry, hentry, Or.inr habove⟩

theorem length_closure (h : (entries.map (·.path)).Nodup) :
    (closure entries).length = (everyPath entries).length := by
  have hperm : ((closure entries).map (·.path)).Perm (everyPath entries) := by
    refine (List.perm_ext_iff_of_nodup (distinct_closure h) (List.nodup_dedup _)).mpr fun path => ?_
    rw [mem_paths_closure]
    exact mem_everyPath.symm
  rw [← hperm.length_eq, List.length_map]

end Closure

theorem wellFormed_closure (hnfc : NfcPrefixes) (h : WellFormed entries) :
    WellFormed (closure entries) := by
  have hdirectories := canonical_impliedDirectories hnfc h.paths
  have hall {good : SnapshotEntry → Prop} (hold : ∀ entry ∈ entries, good entry)
      (hnew : ∀ directory ∈ impliedDirectories entries, good (directoryAt directory)) :
      ∀ entry ∈ closure entries, good entry := by
    intro entry hentry
    rcases mem_closure.mp hentry with hentry | ⟨directory, himplied, _, rfl⟩
    · exact hold entry hentry
    · exact hnew directory himplied
  refine ⟨⟨hall h.paths hdirectories, distinct_closure h.distinct, hall h.depth ?_, hall h.shape ?_, ?_, ?_⟩, ?_⟩
  · intro directory himplied
    obtain ⟨entry, hentry, habove⟩ := List.mem_flatMap.mp himplied
    exact le_of_lt (lt_of_lt_of_le (length_lt_of_properAncestor habove) (h.depth entry hentry))
  · exact fun directory _ => ⟨rfl, rfl⟩
  · rw [fileCount_closure]
    exact h.files
  · rw [totalBytes_closure]
    exact h.bytes
  · intro directory himplied
    exact hall (h.conflicts directory (impliedDirectories_closure.mp himplied)) fun _ _ _ => rfl

theorem Collectable.perm {entries others : List SnapshotEntry} (h : Collectable entries) (hperm : entries.Perm others) :
    Collectable others := by
  refine ⟨fun entry hentry => h.paths entry (hperm.mem_iff.mpr hentry), (hperm.map _).nodup_iff.mp h.distinct,
    fun entry hentry => h.depth entry (hperm.mem_iff.mpr hentry),
    fun entry hentry => h.shape entry (hperm.mem_iff.mpr hentry), ?_, ?_⟩
  · rw [fileCount, ← hperm.countP_eq]
    exact h.files
  · rw [totalBytes, ← ((hperm.filter _).map _).sum_nat]
    exact h.bytes

theorem WellFormed.perm {entries others : List SnapshotEntry} (hperm : entries.Perm others) (h : WellFormed entries) :
    WellFormed others := by
  refine ⟨h.toCollectable.perm hperm, fun directory himplied entry hentry => ?_⟩
  obtain ⟨below, hbelow, habove⟩ := List.mem_flatMap.mp himplied
  exact h.conflicts directory (List.mem_flatMap.mpr ⟨below, hperm.mem_iff.mpr hbelow, habove⟩) entry
    (hperm.mem_iff.mpr hentry)

/-- A closure is determined by its members, and these by the members of the entries. -/
theorem closure_eq_of_perm (hnfc : NfcPrefixes) {entries others : List SnapshotEntry} (hperm : entries.Perm others)
    (h : WellFormed entries) : closure entries = closure others := by
  have hothers := h.perm hperm
  have hmem (entry : SnapshotEntry) : entry ∈ closure entries ↔ entry ∈ closure others := by
    have hpaths (path : SafeRelativePath) : path ∈ entries.map (·.path) ↔ path ∈ others.map (·.path) :=
      (hperm.map _).mem_iff
    have himplied (path : SafeRelativePath) : path ∈ impliedDirectories entries ↔ path ∈ impliedDirectories others := by
      simp only [impliedDirectories, List.mem_flatMap, hperm.mem_iff]
    simp only [mem_closure, hperm.mem_iff, hpaths, himplied]
  have hsame : (closure entries).Perm (closure others) :=
    (List.perm_ext_iff_of_nodup (distinct_closure h.distinct).of_map (distinct_closure hothers.distinct).of_map).mpr hmem
  have hformed := wellFormed_closure hnfc h
  refine hsame.eq_of_pairwise ?_ (closure_sorted entries) (closure_sorted others)
  intro a b ha hb hab hba
  have hb := (hmem b).mpr hb
  have hpath := path_eq_of_str (hformed.paths a ha) (hformed.paths b hb) (le_antisymm hab hba)
  exact List.inj_on_of_nodup_map hformed.distinct ha hb hpath

end Normalization

end AgentArtifacts
