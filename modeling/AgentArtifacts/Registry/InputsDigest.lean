import AgentArtifacts.Protocol.Rereading
import AgentArtifacts.Registry.NativeSource
import AgentArtifacts.Registry.Tree
import AgentArtifacts.Sources.SnapshotDigest

/-!
# What the inputs digest of a registry depends on

A snapshot with distinct paths is determined by what stands at each path, and so is the part
of it that a condition on paths selects. The digest reads the files at the input paths and
nothing else. Where it is given, the paths of the whole snapshot are canonical and distinct.
-/

/-! ## Entries by path -/

namespace AgentArtifacts.Registry

/-! ## Lookups -/

section Lookups

variable {entries others : List SnapshotEntry} {entry : SnapshotEntry} {path : String}

theorem mem_of_entryAt (h : entryAt entries path = some entry) : entry ∈ entries ∧ entry.path.str = path :=
  ⟨List.mem_of_find?_eq_some h, by simpa using List.find?_some h⟩

theorem entryAt_eq_none : entryAt entries path = none ↔ ∀ entry ∈ entries, entry.path.str ≠ path := by
  simp [entryAt]

theorem entryAt_of_mem (hdistinct : (entries.map (·.path.str)).Nodup) (h : entry ∈ entries) :
    entryAt entries entry.path.str = some entry := by
  cases hfound : entryAt entries entry.path.str with
  | none => exact absurd rfl (entryAt_eq_none.mp hfound entry h)
  | some other =>
      obtain ⟨hmem, hpath⟩ := mem_of_entryAt hfound
      rw [List.inj_on_of_nodup_map hdistinct hmem h hpath]

theorem entryAt_eq_some (hdistinct : (entries.map (·.path.str)).Nodup) :
    entryAt entries path = some entry ↔ entry ∈ entries ∧ entry.path.str = path := by
  constructor
  · exact mem_of_entryAt
  · rintro ⟨hmem, rfl⟩
    exact entryAt_of_mem hdistinct hmem

theorem entryAt_of_perm (hdistinct : (entries.map (·.path.str)).Nodup) (h : entries.Perm others) (path : String) :
    entryAt entries path = entryAt others path := by
  have hothers : (others.map (·.path.str)).Nodup := (h.map _).nodup_iff.mp hdistinct
  refine Option.ext fun entry => ?_
  rw [entryAt_eq_some hdistinct, entryAt_eq_some hothers, h.mem_iff]

theorem entryAt_append (entries others : List SnapshotEntry) (path : String) :
    entryAt (entries ++ others) path = (entryAt entries path).or (entryAt others path) := List.find?_append

theorem entryAt_filter (condition : String → Bool) (entries : List SnapshotEntry) (path : String) :
    entryAt (entries.filter fun entry => condition entry.path.str) path =
      if condition path then entryAt entries path else none := by
  induction entries with
  | nil => simp [entryAt]
  | cons entry rest ih =>
      unfold entryAt at *
      rw [List.filter_cons]
      by_cases hpath : entry.path.str = path
      · subst hpath
        cases hcondition : condition entry.path.str with
        | true => simp
        | false =>
            rw [if_neg (by simp), ih, hcondition]
            simp
      · have hfind (tail : List SnapshotEntry) : (entry :: tail).find? (fun other => other.path.str == path) =
            tail.find? fun other => other.path.str == path := List.find?_cons_of_neg (by simpa using hpath)
        rw [hfind]
        split
        · rw [hfind, ih]
        · exact ih

end Lookups

/-! ## Snapshots -/

section Snapshots

theorem sortByPath_eq_self {entries : List SnapshotEntry} (h : entries.Pairwise fun a b => a.path.str ≤ b.path.str) :
    sortByPath entries = entries := by
  have : Std.Total fun a b : SnapshotEntry => a.path.str ≤ b.path.str := ⟨fun _ _ => le_total _ _⟩
  have : IsTrans SnapshotEntry fun a b => a.path.str ≤ b.path.str := ⟨fun _ _ _ => le_trans⟩
  exact List.Pairwise.insertionSort_eq h

theorem snapshot_pairwise (snapshot : SourceSnapshot) :
    snapshot.entries.Pairwise fun a b => a.path.str ≤ b.path.str := by
  rw [← snapshot.sorted]
  exact sortByPath_pairwise _

/-- Entries in order with distinct paths are determined by what stands at each path. -/
theorem entries_eq_of_lookup {left right : List SnapshotEntry}
    (hleft : left.Pairwise fun a b => a.path.str ≤ b.path.str) (hright : right.Pairwise fun a b => a.path.str ≤ b.path.str)
    (hdistinct : (left.map (·.path.str)).Nodup) (hdistinct' : (right.map (·.path.str)).Nodup)
    (h : ∀ path, entryAt left path = entryAt right path) : left = right := by
  have hperm : left.Perm right := by
    refine (List.perm_ext_iff_of_nodup (List.Nodup.of_map _ hdistinct) (List.Nodup.of_map _ hdistinct')).mpr fun entry => ?_
    have hentry := h entry.path.str
    constructor
    · intro hmem
      rw [entryAt_of_mem hdistinct hmem] at hentry
      exact (mem_of_entryAt hentry.symm).1
    · intro hmem
      rw [entryAt_of_mem hdistinct' hmem] at hentry
      exact (mem_of_entryAt hentry).1
  rw [← sortByPath_eq_self hleft, ← sortByPath_eq_self hright]
  exact sortByPath_eq_of_perm hperm hdistinct

variable {left right : SourceSnapshot}

theorem snapshot_ext (horigin : left.origin = right.origin)
    (hleft : (left.entries.map (·.path.str)).Nodup) (hright : (right.entries.map (·.path.str)).Nodup)
    (h : ∀ path, entryAt left.entries path = entryAt right.entries path) : left = right := by
  have hentries := entries_eq_of_lookup (snapshot_pairwise left) (snapshot_pairwise right) hleft hright h
  cases left
  cases right
  cases horigin
  cases hentries
  rfl

theorem entryAt_of {origin : SnapshotOrigin} {entries : List SnapshotEntry}
    (hdistinct : (entries.map (·.path.str)).Nodup) (path : String) :
    entryAt (SourceSnapshot.of origin entries).entries path = entryAt entries path :=
  (entryAt_of_perm hdistinct (perm_sortByPath entries).symm path).symm

end Snapshots

/-! ## The input paths -/

open Schema (refuse refuse_eq_ok)

variable [StandardLibrary]

/-- What the loop over the entries of a registry has established. -/
structure InputEntries (entries : List SnapshotEntry) : Prop where
  paths : ∀ entry ∈ entries, Canonical entry.path
  distinct : (entries.map (·.path.str)).Nodup
  kinds : ∀ entry ∈ entries, isInput entry.path.str = true → entry.kind = .directory ∨ entry.kind = .file
  marker : ∃ entry ∈ entries, entry.path.str = "aart-registry.json" ∧ entry.isFile = true

def inputFiles (entries : List SnapshotEntry) : List SnapshotEntry :=
  entries.filter fun entry => isInput entry.path.str && entry.isFile

/-- One step over an entry that is admitted. -/
theorem inputEntry_eq_ok {state next : InputState} {entry : SnapshotEntry} :
    inputEntry state entry = .ok next ↔
      Canonical entry.path ∧ entry.path.str ∉ state.seen ∧
        (isInput entry.path.str = true → entry.kind = .directory ∨ entry.kind = .file) ∧
        next = ⟨state.seen ++ [entry.path.str], state.files ++ inputFiles [entry],
          state.markerFound || (entry.path.str == "aart-registry.json" && entry.isFile)⟩ := by
  unfold inputEntry Canonical inputFiles
  by_cases hpath : parseRelativePath entry.path.str = .ok entry.path
  · by_cases hseen : entry.path.str ∈ state.seen
    · simp [refuse, hpath, hseen, bind, Except.bind, error]
    · simp only [refuse, hpath, hseen, ne_eq, not_true_eq_false, decide_false, Bool.false_eq_true, if_false, bind,
        Except.bind, pure, Except.pure, true_and, not_false_eq_true]
      cases hinput : isInput entry.path.str with
      | false => simp [hinput, eq_comm (a := next)]
      | true =>
          cases hkind : entry.kind <;>
            simp [hinput, hkind, SnapshotEntry.isFile, error, eq_comm (a := next)]
  · simp [refuse, hpath, bind, Except.bind, error]

theorem inputEntries_eq_ok {entries : List SnapshotEntry} {state next : InputState} :
    entries.foldlM inputEntry state = .ok next ↔
      (∀ entry ∈ entries, Canonical entry.path) ∧ (entries.map (·.path.str)).Nodup ∧
        (∀ entry ∈ entries, entry.path.str ∉ state.seen) ∧
        (∀ entry ∈ entries, isInput entry.path.str = true → entry.kind = .directory ∨ entry.kind = .file) ∧
        next = ⟨state.seen ++ entries.map (·.path.str), state.files ++ inputFiles entries,
          state.markerFound || entries.any fun entry => entry.path.str == "aart-registry.json" && entry.isFile⟩ := by
  induction entries generalizing state with
  | nil => simp [inputFiles, pure, Except.pure, eq_comm (a := next)]
  | cons entry rest ih =>
      rw [List.foldlM_cons]
      constructor
      · intro h
        obtain ⟨first, hfirst, h⟩ := Result.of_bind_ok h
        obtain ⟨hpath, hnew, hkind, rfl⟩ := inputEntry_eq_ok.mp hfirst
        obtain ⟨hpaths, hdistinct, hseen, hkinds, rfl⟩ := ih.mp h
        have hfresh : entry.path.str ∉ rest.map (·.path.str) := by
          intro hmem
          obtain ⟨other, hother, hsame⟩ := List.mem_map.mp hmem
          exact hseen other hother (by simp [hsame])
        refine ⟨List.forall_mem_cons.mpr ⟨hpath, hpaths⟩, List.nodup_cons.mpr ⟨hfresh, hdistinct⟩, ?_,
          List.forall_mem_cons.mpr ⟨hkind, hkinds⟩, ?_⟩
        · exact List.forall_mem_cons.mpr ⟨hnew, fun other hother hmem => hseen other hother (by simp [hmem])⟩
        · simp [inputFiles, List.filter_cons, Bool.or_assoc]
          split <;> simp
      · rintro ⟨hpaths, hdistinct, hseen, hkinds, rfl⟩
        obtain ⟨hfresh, hrest⟩ := List.nodup_cons.mp hdistinct
        obtain ⟨hpath, hpaths⟩ := List.forall_mem_cons.mp hpaths
        obtain ⟨hnew, hold⟩ := List.forall_mem_cons.mp hseen
        obtain ⟨hkind, hkinds⟩ := List.forall_mem_cons.mp hkinds
        rw [inputEntry_eq_ok.mpr ⟨hpath, hnew, hkind, rfl⟩]
        refine ih.mpr ⟨hpaths, hrest, fun other hother hmem => ?_, hkinds, ?_⟩
        · rcases List.mem_append.mp hmem with hmem | hmem
          · exact hold other hother hmem
          · exact hfresh (List.mem_map.mpr ⟨other, hother, List.mem_singleton.mp hmem⟩)
        · simp [inputFiles, List.filter_cons, Bool.or_assoc]
          split <;> simp

theorem validatedInputFiles_eq_ok {snapshot : SourceSnapshot} {files : List SnapshotEntry} :
    validatedInputFiles snapshot = .ok files ↔
      InputEntries snapshot.entries ∧ files = inputFiles snapshot.entries := by
  have hsorted : sortByPath (inputFiles snapshot.entries) = inputFiles snapshot.entries :=
    sortByPath_eq_self ((snapshot_pairwise snapshot).sublist List.filter_sublist)
  constructor
  · intro h
    obtain ⟨state, hstate, h⟩ := Result.of_bind_ok h
    obtain ⟨done, hmarker, h⟩ := Result.of_bind_ok h
    obtain ⟨hpaths, hdistinct, _, hkinds, rfl⟩ := inputEntries_eq_ok.mp hstate
    have hfound := refuse_eq_ok.mp hmarker
    simp only [Bool.false_or, Bool.not_eq_false', List.any_eq_true, Bool.and_eq_true, beq_iff_eq] at hfound
    refine ⟨⟨hpaths, hdistinct, hkinds, hfound⟩, ?_⟩
    rw [← Except.ok.inj h]
    exact hsorted
  · rintro ⟨hentries, rfl⟩
    have hstate := (@inputEntries_eq_ok _ _ {} _).mpr ⟨hentries.paths, hentries.distinct, by simp, hentries.kinds, rfl⟩
    have hmarker : (snapshot.entries.any fun entry =>
        entry.path.str == "aart-registry.json" && entry.isFile) = true := by
      simpa using hentries.marker
    simp only [validatedInputFiles, hstate, hmarker, refuse, bind, Except.bind, List.nil_append, hsorted]
    rfl

theorem inputEntries_of_digest {snapshot : SourceSnapshot} {digest : ObjectDigest}
    (h : registryInputsDigest snapshot = .ok digest) : InputEntries snapshot.entries := by
  obtain ⟨files, hfiles, _⟩ := Result.of_bind_ok h
  exact (validatedInputFiles_eq_ok.mp hfiles).1

theorem registryInputsDigest_eq {snapshot : SourceSnapshot} (h : InputEntries snapshot.entries) :
    registryInputsDigest snapshot = inputsTree (inputFiles snapshot.entries) := by
  unfold registryInputsDigest
  rw [validatedInputFiles_eq_ok.mpr ⟨h, rfl⟩]
  rfl

/-- The files at an input path. -/
def inputAt (entries : List SnapshotEntry) (path : String) : Option SnapshotEntry :=
  (entryAt entries path).filter SnapshotEntry.isFile

end AgentArtifacts.Registry
