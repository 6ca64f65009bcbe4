import AgentArtifacts.RegistryCommands.Writes
import AgentArtifacts.Store.PathTexts

/-!
# What the reader of a checkout accepts

A checkout is read when everything that its walk lists is a plain file or a directory with a
canonical path, and when the files stay within the bounds of the reader. The snapshot holds
what was listed and nothing else.
-/

namespace AgentArtifacts.RegistryCommands

open Registry (entryAt entryAt_of entryAt_filter mem_of_entryAt entryAt_eq_some entryAt_of_mem sortedBy perm_sortedBy
  mem_sortedBy)
open Schema (refuse refuse_eq_ok)

def contentBytes (entries : List SnapshotEntry) : Nat := (entries.map fun entry => entry.content.length).sum

/-- In the order of the walk, the files up to each file fit the bounds of the reader. -/
def WithinBounds (walk : List SnapshotEntry) : Prop :=
  ∀ before file rest, walk = before ++ file :: rest → file.kind = .file →
    contentBytes (before ++ [file]) ≤ maxTotalBytes ∧ before.length < maxEntries

/-- A walk that fits the bounds as a whole fits them on the way. -/
theorem withinBounds_of_total {walk : List SnapshotEntry} (hbytes : contentBytes walk ≤ maxTotalBytes)
    (hentries : walk.length ≤ maxEntries) : WithinBounds walk := by
  rintro before file rest rfl -
  simp only [contentBytes, List.map_append, List.map_cons, List.sum_append, List.sum_cons, List.length_append,
    List.length_cons, List.map_nil, List.sum_nil] at hbytes hentries ⊢
  omega

/-- A managed tree in the order in which it is walked. -/
def walkOrder (entries : List SnapshotEntry) : List SnapshotEntry :=
  sortedBy (fun entry => walkKey (entry.kind == .directory) entry.path) entries

section Reading

variable [StandardLibrary]

structure Readable (entry : SnapshotEntry) : Prop where
  kind : entry.kind = .directory ∨ entry.kind = .file
  path : Canonical entry.path
  size : entry.content.length ≤ maxFileBytes

variable {checkout : Checkout} {entry : SnapshotEntry}

omit [StandardLibrary] in
theorem file_of_kind (h : entry.kind = .file) :
    (⟨entry.path, .file, entry.content, entry.executable⟩ : SnapshotEntry) = entry := by
  obtain ⟨path, kind, content, executable⟩ := entry
  obtain rfl : kind = .file := h
  rfl

omit [StandardLibrary] in
theorem amongDirectories_of_kind (h : entry.kind = .directory ∨ entry.kind = .file) :
    checkout.amongDirectories entry = (entry.kind == .directory) := by
  unfold Checkout.amongDirectories
  rcases h with h | h <;> simp [h]

theorem workspacePath_eq_ok {raw : String} {path : SafeRelativePath} :
    workspacePath raw = .ok path ↔ parseRelativePath raw = .ok path := by
  unfold workspacePath
  cases parseRelativePath raw with
  | error diagnostics => simp [error]
  | ok parsed => simp

theorem readChild_eq_ok {reading next : Reading} (hbare : entry.kind = .directory → entry = directoryAt entry.path)
    (hcanonical : ∀ path, parseRelativePath entry.path.str = .ok path → path = entry.path) :
    readChild checkout reading entry = .ok next ↔
      Readable entry ∧ (entry.kind = .file →
        reading.totalBytes + entry.content.length ≤ maxTotalBytes ∧ reading.entries.length < maxEntries) ∧
      next = ⟨reading.entries ++ [entry], reading.totalBytes + entry.content.length⟩ := by
  have hread {path : SafeRelativePath} (h : workspacePath entry.path.str = .ok path) :
      path = entry.path ∧ Canonical entry.path := by
    have hparsed := workspacePath_eq_ok.mp h
    obtain rfl := hcanonical path hparsed
    exact ⟨rfl, hparsed⟩
  unfold readChild
  dsimp only
  split
  · rename_i hamong
    constructor
    · intro h
      obtain ⟨_, hkind, h⟩ := Result.of_bind_ok h
      obtain ⟨path, hpath, h⟩ := Result.of_bind_ok h
      have hdirectory : entry.kind = .directory := by simpa using refuse_eq_ok.mp hkind
      obtain ⟨rfl, hentry⟩ := hread hpath
      have hempty : entry.content = [] := congrArg SnapshotEntry.content (hbare hdirectory)
      refine ⟨⟨Or.inl hdirectory, hentry, by simp [hempty]⟩, fun hfile => ?_, ?_⟩
      · rw [hdirectory] at hfile
        exact absurd hfile (by decide)
      · rw [← Except.ok.inj h, ← hbare hdirectory]
        simp [hempty]
    · rintro ⟨hreadable, _, rfl⟩
      have hdirectory : entry.kind = .directory := by
        rw [amongDirectories_of_kind hreadable.kind] at hamong
        simpa using hamong
      have hempty : entry.content = [] := congrArg SnapshotEntry.content (hbare hdirectory)
      have hpath : workspacePath entry.path.str = .ok entry.path := workspacePath_eq_ok.mpr hreadable.path
      simp only [hdirectory, refuse, bne_self_eq_false, Bool.false_eq_true, if_false, hpath, bind, Except.bind, pure,
        Except.pure, hempty, List.length_nil, Nat.add_zero]
      rw [← hbare hdirectory]
  · rename_i hamong
    constructor
    · intro h
      obtain ⟨_, hkind, h⟩ := Result.of_bind_ok h
      obtain ⟨_, hsize, h⟩ := Result.of_bind_ok h
      obtain ⟨_, htotal, h⟩ := Result.of_bind_ok h
      obtain ⟨path, hpath, h⟩ := Result.of_bind_ok h
      obtain ⟨_, hcount, h⟩ := Result.of_bind_ok h
      have hfile : entry.kind = .file := by simpa using refuse_eq_ok.mp hkind
      obtain ⟨rfl, hentry⟩ := hread hpath
      rw [file_of_kind hfile] at h hcount
      have hbound : ¬ maxEntries < (reading.entries ++ [entry]).length := by simpa using refuse_eq_ok.mp hcount
      rw [List.length_append, List.length_singleton] at hbound
      refine ⟨⟨Or.inr hfile, hentry, by simpa using refuse_eq_ok.mp hsize⟩, fun _ => ⟨?_, by omega⟩,
        (Except.ok.inj h).symm⟩
      simpa using refuse_eq_ok.mp htotal
    · rintro ⟨hreadable, hbounds, rfl⟩
      have hfile : entry.kind = .file := by
        rw [amongDirectories_of_kind hreadable.kind] at hamong
        rcases hreadable.kind with hkind | hkind
        · simp [hkind] at hamong
        · exact hkind
      obtain ⟨htotal, hcount⟩ := hbounds hfile
      have hpath : workspacePath entry.path.str = .ok entry.path := workspacePath_eq_ok.mpr hreadable.path
      have hsize := hreadable.size
      simp only [hfile, refuse, bne_self_eq_false, Bool.false_eq_true, if_false, hpath, bind, Except.bind, pure,
        Except.pure, decide_eq_true_eq, List.length_append, List.length_singleton]
      rw [file_of_kind hfile, if_neg (by omega), if_neg (by omega), if_neg (by omega)]

/-- By induction over the walk, what the reader makes of it. -/
theorem readChildren_eq_ok {walk : List SnapshotEntry} {reading next : Reading}
    (hbare : ∀ entry ∈ walk, entry.kind = .directory → entry = directoryAt entry.path)
    (hcanonical : ∀ entry ∈ walk, ∀ path, parseRelativePath entry.path.str = .ok path → path = entry.path) :
    walk.foldlM (readChild checkout) reading = .ok next ↔
      (∀ entry ∈ walk, Readable entry) ∧
      (∀ before file rest, walk = before ++ file :: rest → file.kind = .file →
        reading.totalBytes + contentBytes (before ++ [file]) ≤ maxTotalBytes ∧
          reading.entries.length + before.length < maxEntries) ∧
      next = ⟨reading.entries ++ walk, reading.totalBytes + contentBytes walk⟩ := by
  induction walk generalizing reading with
  | nil =>
      constructor
      · intro h
        obtain rfl : reading = next := Except.ok.inj h
        exact ⟨by simp, by simp, by simp [contentBytes]⟩
      · rintro ⟨_, _, rfl⟩
        simp [contentBytes, pure, Except.pure]
  | cons entry rest ih =>
      obtain ⟨hfirst, hrest⟩ := List.forall_mem_cons.mp hbare
      obtain ⟨hpath, hpaths⟩ := List.forall_mem_cons.mp hcanonical
      rw [List.foldlM_cons, List.forall_mem_cons]
      constructor
      · intro h
        obtain ⟨mid, hmid, h⟩ := Result.of_bind_ok h
        obtain ⟨hreadable, hbounds, rfl⟩ := (readChild_eq_ok hfirst hpath).mp hmid
        obtain ⟨hreadables, hlater, rfl⟩ := (ih hrest hpaths).mp h
        refine ⟨⟨hreadable, hreadables⟩, fun before file after hsplit hfile => ?_, ?_⟩
        · cases before with
          | nil =>
              obtain ⟨rfl, rfl⟩ := List.cons.inj hsplit
              simpa [contentBytes] using hbounds hfile
          | cons first before =>
              obtain ⟨rfl, rfl⟩ := List.cons.inj hsplit
              have hthere := hlater before file after rfl hfile
              simp only [contentBytes, List.length_append, List.length_nil, List.cons_append, List.map_cons,
                List.sum_cons, List.length_cons] at hthere ⊢
              omega
        · simp [contentBytes, Nat.add_assoc]
      · rintro ⟨⟨hreadable, hreadables⟩, hlater, rfl⟩
        have hmid : readChild checkout reading entry =
            .ok ⟨reading.entries ++ [entry], reading.totalBytes + entry.content.length⟩ := by
          refine (readChild_eq_ok hfirst hpath).mpr ⟨hreadable, fun hfile => ?_, rfl⟩
          simpa [contentBytes] using hlater [] entry rest rfl hfile
        rw [hmid]
        refine (ih hrest hpaths).mpr ⟨hreadables, fun before file after hsplit hfile => ?_, by simp [contentBytes, Nat.add_assoc]⟩
        have hthere := hlater (entry :: before) file after (by rw [hsplit, List.cons_append]) hfile
        simp only [contentBytes, List.length_append, List.length_nil, List.cons_append, List.map_cons,
          List.sum_cons, List.length_cons] at hthere ⊢
        omega

/-! ## Snapshots -/

omit [StandardLibrary] in
theorem Checkout.walked_perm (checkout : Checkout) : checkout.walked.Perm (checkout.entries.filter checkout.listed) :=
  perm_sortedBy _ _

omit [StandardLibrary] in
theorem Checkout.mem_walked : entry ∈ checkout.walked ↔ entry ∈ checkout.entries ∧ checkout.listed entry = true := by
  rw [checkout.walked_perm.mem_iff, List.mem_filter]

omit [StandardLibrary] in
theorem Checkout.Sound.walked_distinct (hsound : checkout.Sound) : (checkout.walked.map (·.path.str)).Nodup :=
  (checkout.walked_perm.map _).nodup_iff.mpr (hsound.distinct.sublist (List.filter_sublist.map _))

theorem Checkout.Sound.path_of_parse (hsound : checkout.Sound) (hentry : entry ∈ checkout.entries)
    {path : SafeRelativePath} (h : parseRelativePath entry.path.str = .ok path) : path = entry.path := by
  obtain ⟨hne, hnames⟩ := hsound.named entry hentry
  rw [parseRelativePath_parts h, SafeRelativePath.str, Manifest.splitChar_slashJoin hnames hne]

/-- When a checkout is read, and to what. -/
theorem Checkout.Sound.snapshot_eq_ok (hsound : checkout.Sound) {snapshot : SourceSnapshot} :
    checkout.snapshot = .ok snapshot ↔ (∀ entry ∈ checkout.walked, Readable entry) ∧ WithinBounds checkout.walked ∧
      snapshot = SourceSnapshot.of .local checkout.walked := by
  have hread (reading : Reading) : checkout.walked.foldlM (readChild checkout) {} = .ok reading ↔
      (∀ entry ∈ checkout.walked, Readable entry) ∧
      (∀ before file rest, checkout.walked = before ++ file :: rest → file.kind = .file →
        0 + contentBytes (before ++ [file]) ≤ maxTotalBytes ∧ 0 + before.length < maxEntries) ∧
      reading = ⟨[] ++ checkout.walked, 0 + contentBytes checkout.walked⟩ :=
    readChildren_eq_ok (fun entry hentry => hsound.bare entry (mem_walked.mp hentry).1)
      fun entry hentry path hpath => hsound.path_of_parse (mem_walked.mp hentry).1 hpath
  simp only [Nat.zero_add, List.nil_append] at hread
  unfold Checkout.snapshot
  constructor
  · intro h
    obtain ⟨reading, hreading, h⟩ := Result.of_bind_ok h
    obtain ⟨hreadable, hbounds, rfl⟩ := (hread reading).mp hreading
    exact ⟨hreadable, hbounds, (Except.ok.inj h).symm⟩
  · rintro ⟨hreadable, hbounds, rfl⟩
    rw [(hread _).mpr ⟨hreadable, hbounds, rfl⟩]
    rfl

omit [StandardLibrary] in
theorem Checkout.Sound.entryAt_walked (hsound : checkout.Sound) (path : String) :
    entryAt checkout.walked path = (entryAt checkout.entries path).filter checkout.listed := by
  refine Option.ext fun entry => ?_
  rw [entryAt_eq_some hsound.walked_distinct, Option.filter_eq_some_iff, entryAt_eq_some hsound.distinct, mem_walked]
  tauto

/-- A snapshot holds what the walk lists of the checkout. -/
theorem Checkout.Sound.entryAt_snapshot (hsound : checkout.Sound) {snapshot : SourceSnapshot}
    (h : checkout.snapshot = .ok snapshot) (path : String) :
    entryAt snapshot.entries path = (entryAt checkout.entries path).filter checkout.listed := by
  obtain ⟨_, _, rfl⟩ := hsound.snapshot_eq_ok.mp h
  rw [entryAt_of hsound.walked_distinct, hsound.entryAt_walked]

end Reading

end AgentArtifacts.RegistryCommands
