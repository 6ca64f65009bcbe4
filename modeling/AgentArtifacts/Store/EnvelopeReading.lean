import AgentArtifacts.InstallState.ManifestRoundTrip
import AgentArtifacts.Store.ObjectEnvelope

/-!
# Reading envelopes

What is written of a candidate is read as its entries, as long as its paths are within
the bound of the reader on texts. What is read from some bytes would be written as
exactly these bytes.
-/

namespace AgentArtifacts

open Manifest (Fields jsonObject present mem_present get?_field mapM_written frozen_str frozen_array validDigest)
open JsonText (Legible LegibleEntries LegibleItems InRange)

/-! ## Written objects -/

theorem bounded_jsonObject_iff {maxString depth : Nat} {fields : Fields} :
    Bounded maxString depth (jsonObject fields) ↔ depth ≤ maxDepth ∧ ∀ name value, (name, some value) ∈ fields →
      name.length ≤ maxString ∧ Bounded maxString (depth + 1) value := by
  unfold jsonObject
  rw [Bounded, boundedEntries_iff]
  constructor
  · rintro ⟨hdepth, hentries⟩
    exact ⟨hdepth, fun name value hmem => hentries (name, value) (mem_sortEntries.mpr (mem_present.mpr hmem))⟩
  · rintro ⟨hdepth, hfields⟩
    exact ⟨hdepth, fun entry hentry => hfields entry.1 entry.2 (mem_present.mp (mem_sortEntries.mp hentry))⟩

theorem legibleEntries_iff {P : Int → Prop} {entries : List (String × Json)} :
    LegibleEntries P entries ↔ ∀ entry ∈ entries, Legible P entry.2 := by
  induction entries with
  | nil => simp [LegibleEntries]
  | cons entry rest ih =>
      obtain ⟨key, item⟩ := entry
      simp [LegibleEntries, ih]

theorem legibleItems_iff {P : Int → Prop} {items : List Json} :
    LegibleItems P items ↔ ∀ item ∈ items, Legible P item := by
  induction items with
  | nil => simp [LegibleItems]
  | cons item rest ih => simp [LegibleItems, ih]

theorem legible_jsonObject {P : Int → Prop} {fields : Fields} (h : (fields.map Prod.fst).Nodup)
    (hvalues : ∀ name value, (name, some value) ∈ fields → Legible P value) : Legible P (jsonObject fields) := by
  unfold jsonObject
  rw [Legible, legibleEntries_iff]
  refine ⟨nodup_of_pairwise_lt (sortEntries_pairwise (Manifest.nodup_present h)), fun entry hentry => ?_⟩
  exact hvalues entry.1 entry.2 (mem_present.mp (mem_sortEntries.mp hentry))

theorem sameNames_jsonObject {fields : Fields} {required : List String}
    (hrequired : ∀ name ∈ required, ∃ value, (name, some value) ∈ fields)
    (hknown : ∀ name value, (name, some value) ∈ fields → name ∈ required) :
    sameNames (sortEntries (present fields)) required = true := by
  simp only [sameNames, Bool.and_eq_true, List.all_eq_true, decide_eq_true_eq]
  refine ⟨fun name hname => ?_, fun field hfield => ?_⟩
  · obtain ⟨value, hmem⟩ := hrequired name hname
    exact List.mem_map.mpr ⟨(name, value), mem_sortEntries.mpr (mem_present.mpr hmem), rfl⟩
  · exact hknown field.1 field.2 (mem_present.mp (mem_sortEntries.mp hfield))

theorem nodup_snapshotEntryTable (entry : SnapshotEntry) : ((snapshotEntryTable entry).map Prod.fst).Nodup :=
  (by decide : ["executable", "kind", "path", "content_base64"].Nodup)

theorem nodup_envelopeTable (entries : List SnapshotEntry) : ((envelopeTable entries).map Prod.fst).Nodup :=
  (by decide : ["entries", "schema_version"].Nodup)

theorem forall_snapshotEntryTable {good : String → Json → Prop} {entry : SnapshotEntry} :
    (∀ name value, (name, some value) ∈ snapshotEntryTable entry → good name value) ↔
      good "executable" (.bool entry.executable) ∧ good "kind" (.str entry.kind.value) ∧
        good "path" (.str entry.path.str) ∧
        (entry.kind = .file → good "content_base64" (.str (String.ofList (Base64.encode entry.content)))) := by
  unfold snapshotEntryTable
  constructor
  · intro h
    refine ⟨h _ _ (by simp), h _ _ (by simp), h _ _ (by simp), fun hkind => h _ _ (by simp [hkind])⟩
  · rintro ⟨hexecutable, hkind, hpath, hcontent⟩ name value hmem
    simp only [List.mem_cons, Prod.mk.injEq, Option.some.injEq, List.not_mem_nil, or_false] at hmem
    rcases hmem with ⟨rfl, rfl⟩ | ⟨rfl, rfl⟩ | ⟨rfl, rfl⟩ | ⟨rfl, hvalue⟩
    · exact hexecutable
    · exact hkind
    · exact hpath
    · split at hvalue
      · rename_i hfile
        rw [Option.some.inj hvalue]
        exact hcontent hfile
      · exact absurd hvalue (by simp)

theorem frozen_snapshotEntryTable (entry : SnapshotEntry) : Frozen (jsonObject (snapshotEntryTable entry)) :=
  Manifest.frozen_jsonObject (nodup_snapshotEntryTable entry) <| forall_snapshotEntryTable.mpr
    ⟨frozen_bool _, frozen_str _, frozen_str _, fun _ => frozen_str _⟩

theorem legible_snapshotEntryTable (entry : SnapshotEntry) : Legible InRange (jsonObject (snapshotEntryTable entry)) := by
  refine legible_jsonObject (nodup_snapshotEntryTable entry) (forall_snapshotEntryTable.mpr ⟨?_, ?_, ?_, fun _ => ?_⟩)
  all_goals
    rw [Legible]
    trivial

theorem forall_envelopeTable {good : String → Json → Prop} {entries : List SnapshotEntry} :
    (∀ name value, (name, some value) ∈ envelopeTable entries → good name value) ↔
      good "entries" (.arr (entries.map fun entry => jsonObject (snapshotEntryTable entry))) ∧
        good "schema_version" (.int 1) := by
  simp only [envelopeTable, List.mem_cons, Prod.mk.injEq, Option.some.injEq, List.not_mem_nil, or_false]
  constructor
  · exact fun h => ⟨h _ _ (Or.inl ⟨rfl, rfl⟩), h _ _ (Or.inr ⟨rfl, rfl⟩)⟩
  · rintro ⟨hentries, hversion⟩ name value (⟨rfl, rfl⟩ | ⟨rfl, rfl⟩)
    · exact hentries
    · exact hversion

theorem frozen_envelopeTable (entries : List SnapshotEntry) : Frozen (jsonObject (envelopeTable entries)) := by
  refine Manifest.frozen_jsonObject (nodup_envelopeTable entries) (forall_envelopeTable.mpr ⟨?_, frozen_int 1⟩)
  refine frozen_array fun item hitem => ?_
  obtain ⟨entry, _, rfl⟩ := List.mem_map.mp hitem
  exact frozen_snapshotEntryTable entry

theorem legible_envelopeTable (entries : List SnapshotEntry) : Legible InRange (jsonObject (envelopeTable entries)) := by
  refine legible_jsonObject (nodup_envelopeTable entries) (forall_envelopeTable.mpr ⟨?_, ?_⟩)
  · rw [Legible, legibleItems_iff]
    intro item hitem
    obtain ⟨entry, _, rfl⟩ := List.mem_map.mp hitem
    exact legible_snapshotEntryTable entry
  · rw [Legible]
    exact ⟨by decide, by decide⟩

/-! ## The bound on texts -/

theorem length_content_le {content : Bytes} (h : content.length ≤ maxFileBytes) :
    (String.ofList (Base64.encode content)).length ≤ maxEnvelopeString := by
  have hencoded := Base64.length_encode_le content
  rw [String.length_ofList]
  unfold maxFileBytes at h
  unfold maxEnvelopeString
  omega

/-- The content of a file is within the bound; a path need not be. -/
theorem bounded_snapshotEntryTable_iff {entry : SnapshotEntry} (h : entry.plain) :
    Bounded maxEnvelopeString 2 (jsonObject (snapshotEntryTable entry)) ↔
      entry.path.str.length ≤ maxEnvelopeString := by
  have hkind : entry.kind.value.length ≤ maxEnvelopeString := by
    cases entry.kind <;> decide
  have hcontent : entry.kind = .file → (String.ofList (Base64.encode entry.content)).length ≤ maxEnvelopeString := by
    intro hfile
    simp only [SnapshotEntry.plain, hfile] at h
    exact length_content_le h
  rw [bounded_jsonObject_iff, forall_snapshotEntryTable]
  simp only [Bounded]
  constructor
  · exact fun hall => hall.2.2.2.1.2.2
  · exact fun hpath => ⟨by decide, ⟨by decide, by decide⟩, ⟨by decide, by decide, hkind⟩, ⟨by decide, by decide, hpath⟩,
      fun hfile => ⟨by decide, by decide, hcontent hfile⟩⟩

theorem bounded_envelopeTable_iff {entries : List SnapshotEntry} (h : ∀ entry ∈ entries, entry.plain) :
    Bounded maxEnvelopeString 0 (jsonObject (envelopeTable entries)) ↔
      ∀ entry ∈ entries, entry.path.str.length ≤ maxEnvelopeString := by
  rw [bounded_jsonObject_iff, forall_envelopeTable]
  simp only [Bounded, boundedItems_iff, List.forall_mem_map]
  constructor
  · exact fun hall entry hentry => (bounded_snapshotEntryTable_iff (h entry hentry)).mp (hall.2.1.2.2 entry hentry)
  · intro hpaths
    refine ⟨by decide, ⟨by decide, by decide, fun entry hentry => ?_⟩, by decide, by decide⟩
    exact (bounded_snapshotEntryTable_iff (h entry hentry)).mpr (hpaths entry hentry)

/-! ## Reading what was written -/

section Reading

variable [StandardLibrary]

/-- Entries that are their own normal form were collected. -/
theorem collectable_of_normalized {entries normalized : List SnapshotEntry}
    (h : normalizedEntries entries = .ok normalized) : Collectable entries ∧ entries.length ≤ maxEntries := by
  unfold normalizedEntries at h
  obtain ⟨state, hstate, _⟩ := Result.of_bind_ok h
  obtain ⟨hcount, hcollectable, _⟩ := collectEntries_eq_ok.mp hstate
  exact ⟨hcollectable, hcount⟩

theorem Envelope.normalized (candidate : Envelope) : normalizedEntries candidate.entries = .ok candidate.entries :=
  (valid_iff.mp candidate.accepted).2.2.2.1

theorem Envelope.canonicalBytes_eq (candidate : Envelope) : candidate.canonicalBytes = envelopeBytes candidate.entries :=
  (valid_iff.mp candidate.accepted).2.2.2.2.symm

theorem Envelope.digest_eq (candidate : Envelope) : candidate.digest = sha256Bytes candidate.canonicalBytes :=
  (valid_iff.mp candidate.accepted).2.2.1.symm

variable {b64decode : String → Option Bytes}

omit [StandardLibrary] in
theorem get?_kind (entry : SnapshotEntry) :
    Dict.get? (sortEntries (present (snapshotEntryTable entry))) "kind" = some (.str entry.kind.value) :=
  get?_field (nodup_snapshotEntryTable entry) (by simp [snapshotEntryTable])

/-- An entry is read back from what is written of it. -/
theorem parseEnvelopeEntry_written
    (hdecode : ∀ content, b64decode (String.ofList (Base64.encode content)) = some content) {entry : SnapshotEntry}
    (hpath : Canonical entry.path) (hplain : entry.plain) :
    parseEnvelopeEntry b64decode (jsonObject (snapshotEntryTable entry)) = .ok entry := by
  have hfield {name : String} {content : Option Json} (hmem : (name, content) ∈ snapshotEntryTable entry) :=
    get?_field (nodup_snapshotEntryTable entry) hmem
  have hpathField := hfield (by simp [snapshotEntryTable] : ("path", some (.str entry.path.str)) ∈ snapshotEntryTable entry)
  have hmode := hfield
    (by simp [snapshotEntryTable] : ("executable", some (.bool entry.executable)) ∈ snapshotEntryTable entry)
  have hcontent := hfield (by simp [snapshotEntryTable] : ("content_base64",
    if entry.kind = .file then some (.str (String.ofList (Base64.encode entry.content))) else none) ∈
      snapshotEntryTable entry)
  have hparsed : parseRelativePath entry.path.str = .ok entry.path := hpath
  have hnames : sameNames (sortEntries (present (snapshotEntryTable entry)))
      (entryFieldNames (some (.str entry.kind.value))) = true := by
    refine sameNames_jsonObject ?_ (forall_snapshotEntryTable.mpr ?_)
    · cases hkind : entry.kind <;>
        simp [entryFieldNames, SnapshotEntryKind.value, snapshotEntryTable, hkind]
    · cases hkind : entry.kind <;> simp [entryFieldNames, SnapshotEntryKind.value]
  unfold jsonObject parseEnvelopeEntry
  simp only [get?_kind, hnames, Bool.not_true, Bool.false_eq_true, if_false, hpathField, hmode, hparsed]
  unfold entryContent
  rw [get?_kind, hcontent]
  obtain ⟨path, kind, content, executable⟩ := entry
  cases kind with
  | directory =>
      simp only [SnapshotEntry.plain] at hplain
      obtain ⟨rfl, rfl⟩ := hplain
      simp [SnapshotEntryKind.value, directoryAt]
  | file => simp [SnapshotEntryKind.value, hdecode]
  | symlink => exact hplain.elim
  | special => exact hplain.elim

theorem parseEnvelopeEntries_written
    (hdecode : ∀ content, b64decode (String.ofList (Base64.encode content)) = some content)
    {entries : List SnapshotEntry} (h : Collectable entries) (hcount : entries.length ≤ maxEntries) :
    parseEnvelopeEntries b64decode (sortEntries (present (envelopeTable entries))) = .ok entries := by
  have hfield {name : String} {content : Option Json} (hmem : (name, content) ∈ envelopeTable entries) :=
    get?_field (nodup_envelopeTable entries) hmem
  have hnames : sameNames (sortEntries (present (envelopeTable entries))) ["schema_version", "entries"] = true :=
    sameNames_jsonObject (by simp [envelopeTable]) (forall_envelopeTable.mpr (by simp))
  have hitems : (entries.map fun entry => jsonObject (snapshotEntryTable entry)).mapM (parseEnvelopeEntry b64decode) =
      .ok entries :=
    mapM_written fun entry hentry => parseEnvelopeEntry_written hdecode (h.paths entry hentry) (h.shape entry hentry)
  unfold parseEnvelopeEntries
  rw [hnames, hfield (by simp [envelopeTable] : ("schema_version", some (.int 1)) ∈ envelopeTable entries),
    hfield (by simp [envelopeTable] : ("entries",
      some (.arr (entries.map fun entry => jsonObject (snapshotEntryTable entry)))) ∈ envelopeTable entries)]
  simp only [Bool.not_true, Bool.false_eq_true, if_false, ne_eq, not_true_eq_false, List.length_map]
  rw [if_neg (by omega), hitems]

/-- The entries of a candidate make the candidate again. -/
theorem makeObjectCandidate_again (candidate : Envelope) :
    makeObjectCandidate candidate.entries (some candidate.digest) = .ok candidate := by
  obtain ⟨hdigest, hlength, hhash, hnormalized, hbytes⟩ := valid_iff.mp candidate.accepted
  unfold makeObjectCandidate
  rw [hnormalized]
  simp only [bind, Except.bind, hbytes, hhash]
  rw [if_neg (by omega)]
  have haccepted : refusedDigest (some candidate.digest) candidate.digest = false := by
    simp [refusedDigest, hdigest]
  rw [haccepted, if_neg (by decide)]
  exact constructCandidate_of_valid candidate.accepted

/-! ## The order of the entries -/

/-- A directory that is required stands there, or is put behind. -/
theorem requireDirectory_grows {normalized next : List SnapshotEntry} {directory : SafeRelativePath}
    (h : requireDirectory normalized directory = .ok next) :
    (next = normalized ∧ ∃ entry ∈ normalized, entry.path.str = directory.str ∧ entry.kind = .directory) ∨
      next.length = normalized.length + 1 := by
  unfold requireDirectory at h
  split at h
  · rename_i existing hfind
    split at h
    · exact absurd h (by simp [storeError, error])
    · rename_i hkind
      exact Or.inl ⟨(Except.ok.inj h).symm, existing, List.mem_of_find?_eq_some hfind, by simpa using List.find?_some hfind,
        not_not.mp hkind⟩
  · split at h
    · exact absurd h (by simp [raised, error])
    · rw [← Except.ok.inj h]
      exact Or.inr (by simp)

/-- Entries to which nothing was added have every directory that was required. -/
theorem requireDirectories_closed {directories : List SafeRelativePath} {normalized next : List SnapshotEntry}
    (h : directories.foldlM requireDirectory normalized = .ok next) :
    normalized.length ≤ next.length ∧ (next.length = normalized.length → next = normalized ∧
      ∀ directory ∈ directories, ∃ entry ∈ normalized, entry.path.str = directory.str ∧ entry.kind = .directory) := by
  induction directories generalizing normalized with
  | nil =>
      obtain rfl : normalized = next := Except.ok.inj h
      exact ⟨Nat.le_refl _, fun _ => ⟨rfl, by simp⟩⟩
  | cons directory rest ih =>
      rw [List.foldlM_cons] at h
      obtain ⟨mid, hmid, h⟩ := Result.of_bind_ok h
      obtain ⟨hlength, hclosed⟩ := ih h
      obtain ⟨rfl, hstands⟩ | hgrown := requireDirectory_grows hmid
      · refine ⟨hlength, fun hsame => ?_⟩
        obtain ⟨hnext, hrest⟩ := hclosed hsame
        exact ⟨hnext, List.forall_mem_cons.mpr ⟨hstands, hrest⟩⟩
      · exact ⟨by omega, fun hsame => by omega⟩

theorem requireDirectory_stands {normalized : List SnapshotEntry} (hcollectable : Collectable normalized)
    {directory : SafeRelativePath} {entry : SnapshotEntry} (hentry : entry ∈ normalized)
    (hpath : entry.path.str = directory.str) (hkind : entry.kind = .directory) :
    requireDirectory normalized directory = .ok normalized := by
  unfold requireDirectory
  cases hfind : normalized.find? fun other => other.path.str == directory.str with
  | none => exact absurd (List.find?_eq_none.mp hfind entry hentry) (by simp [hpath])
  | some existing =>
      have hexisting := List.mem_of_find?_eq_some hfind
      have hstr : existing.path.str = directory.str := by simpa using List.find?_some hfind
      have hsame : existing.path = entry.path :=
        path_eq_of_str (hcollectable.paths existing hexisting) (hcollectable.paths entry hentry) (hstr.trans hpath.symm)
      obtain rfl := List.inj_on_of_nodup_map hcollectable.distinct hexisting hentry hsame
      simp [hkind]

/-- Entries in normal form are normalized from any order. -/
theorem normalizedEntries_of_perm {entries others : List SnapshotEntry} (h : normalizedEntries entries = .ok entries)
    (hperm : entries.Perm others) : normalizedEntries others = .ok entries := by
  obtain ⟨hcollectable, hcount⟩ := collectable_of_normalized h
  unfold normalizedEntries at h
  obtain ⟨state, hstate, h⟩ := Result.of_bind_ok h
  obtain ⟨_, _, rfl⟩ := collectEntries_eq_ok.mp hstate
  dsimp only at h
  split at h
  · exact absurd h (by simp [storeError, error])
  rename_i hne
  obtain ⟨normalized, hnormalized, h⟩ := Result.of_bind_ok h
  have hsorted : sortByPath normalized = entries := Except.ok.inj h
  have hlength : normalized.length = entries.length := by
    rw [← hsorted]
    exact (List.perm_insertionSort _ _).length_eq.symm
  obtain ⟨rfl, hclosed⟩ := (requireDirectories_closed hnormalized).2 hlength
  have hothers := hcollectable.perm hperm
  have hstands (directories : List SafeRelativePath)
      (hall : ∀ directory ∈ directories, directory ∈ normalized.flatMap fun entry => properAncestors entry.path) :
      directories.foldlM requireDirectory others = .ok others := by
    induction directories with
    | nil => rfl
    | cons directory rest ih =>
        rw [List.forall_mem_cons] at hall
        obtain ⟨entry, hentry, hpath, hkind⟩ := hclosed directory hall.1
        rw [List.foldlM_cons, requireDirectory_stands hothers (hperm.mem_iff.mp hentry) hpath hkind]
        exact ih hall.2
  have hsame : sortByPath others = normalized := by
    have hdistinct : (normalized.map (·.path.str)).Nodup := by
      refine (List.nodup_map_iff_inj_on hcollectable.distinct.of_map).mpr fun a ha b hb hstr => ?_
      have hpath := path_eq_of_str (hcollectable.paths a ha) (hcollectable.paths b hb) hstr
      exact List.inj_on_of_nodup_map hcollectable.distinct ha hb hpath
    rw [← sortByPath_eq_of_perm hperm hdistinct, hsorted]
  have hcollected := collectEntries_eq_ok.mpr ⟨hperm.length_eq ▸ hcount, hothers, rfl⟩
  have hnonempty : others ≠ [] := fun hnil => hne (List.perm_nil.mp (hnil ▸ hperm))
  have hall : (others.flatMap fun entry => properAncestors entry.path).foldlM requireDirectory others = .ok others := by
    refine hstands _ fun directory hdirectory => ?_
    obtain ⟨entry, hentry, habove⟩ := List.mem_flatMap.mp hdirectory
    exact List.mem_flatMap.mpr ⟨entry, hperm.mem_iff.mpr hentry, habove⟩
  unfold normalizedEntries
  rw [hcollected]
  simp only [bind, Except.bind, if_neg hnonempty, hall, hsame]
  rfl

theorem makeObjectCandidate_of_perm (candidate : Envelope) {entries : List SnapshotEntry}
    (hperm : candidate.entries.Perm entries) : makeObjectCandidate entries (some candidate.digest) = .ok candidate := by
  have hagain := makeObjectCandidate_again candidate
  unfold makeObjectCandidate at hagain ⊢
  rw [candidate.normalized] at hagain
  rw [normalizedEntries_of_perm candidate.normalized hperm]
  exact hagain

theorem parseObjectCandidate_written [JsonRuntime]
    (hdecode : ∀ content, b64decode (String.ofList (Base64.encode content)) = some content) (candidate : Envelope)
    (hpaths : ∀ entry ∈ candidate.entries, entry.path.str.length ≤ maxEnvelopeString) :
    parseObjectCandidate b64decode candidate.canonicalBytes (some candidate.digest) = .ok candidate := by
  obtain ⟨_, hlength, _, hnormalized, hbytes⟩ := valid_iff.mp candidate.accepted
  obtain ⟨hcollectable, hcount⟩ := collectable_of_normalized hnormalized
  have hread : parseJsonWithin maxEnvelopeString candidate.canonicalBytes =
      .ok (.obj (sortEntries (present (envelopeTable candidate.entries)))) := by
    rw [← hbytes]
    exact (parseJsonWithin_canonicalJsonBytes (frozen_envelopeTable _) (legible_envelopeTable _)).mpr
      ⟨(bounded_envelopeTable_iff hcollectable.shape).mpr hpaths, rfl⟩
  unfold parseObjectCandidate
  rw [if_neg (by omega), hread]
  simp only [parseEnvelopeEntries_written hdecode hcollectable hcount, makeObjectCandidate_again, bind, Except.bind,
    ne_eq, not_true_eq_false, if_false]
  rfl

/-- A path longer than the bound on texts makes the envelope unreadable. -/
theorem parseObjectCandidate_long [JsonRuntime] (candidate : Envelope) {entry : SnapshotEntry}
    (hentry : entry ∈ candidate.entries) (hlong : maxEnvelopeString < entry.path.str.length)
    (expectedDigest : Option ObjectDigest) :
    parseObjectCandidate b64decode candidate.canonicalBytes expectedDigest =
      storeError "object envelope is not strict JSON" := by
  obtain ⟨_, hlength, _, hnormalized, hbytes⟩ := valid_iff.mp candidate.accepted
  obtain ⟨hcollectable, _⟩ := collectable_of_normalized hnormalized
  unfold parseObjectCandidate
  rw [if_neg (by omega)]
  split
  · rename_i fields hread
    rw [← hbytes] at hread
    obtain ⟨hbounded, _⟩ :=
      (parseJsonWithin_canonicalJsonBytes (frozen_envelopeTable _) (legible_envelopeTable _)).mp hread
    exact absurd ((bounded_envelopeTable_iff hcollectable.shape).mp hbounded entry hentry) (by omega)
  · rfl

theorem canonicalBytes_of_parse {data : Bytes} {expectedDigest : Option ObjectDigest} {candidate : Envelope}
    (h : parseObjectCandidate b64decode data expectedDigest = .ok candidate) : data = candidate.canonicalBytes := by
  unfold parseObjectCandidate at h
  split at h
  · exact absurd h (by simp [storeError, error])
  split at h
  · obtain ⟨entries, _, h⟩ := Result.of_bind_ok h
    obtain ⟨found, _, h⟩ := Result.of_bind_ok h
    split at h
    · exact absurd h (by simp [storeError, error])
    · rename_i hsame
      obtain rfl := Except.ok.inj h
      exact (not_not.mp hsame).symm
  · exact absurd h (by simp [storeError, error])

/-! ## The object of a candidate -/

/-- A normalized entry as a member of the object's tree. -/
def SnapshotEntry.member (entry : SnapshotEntry) : TreeMember :=
  match entry.kind with
  | .file => .file entry.path entry.content entry.executable
  | _ => .directory entry.path

omit [StandardLibrary] in
theorem entryTable_member {entry : SnapshotEntry} (h : entry.plain) :
    entryTable entry.member = snapshotEntryTable entry := by
  obtain ⟨path, kind, content, executable⟩ := entry
  cases kind with
  | directory =>
      simp only [SnapshotEntry.plain] at h
      simp [SnapshotEntry.member, entryTable, snapshotEntryTable, SnapshotEntryKind.value, h.2]
  | file => simp [SnapshotEntry.member, entryTable, snapshotEntryTable, SnapshotEntryKind.value]
  | symlink => exact h.elim
  | special => exact h.elim

omit [StandardLibrary] in
theorem member_inj {a b : SnapshotEntry} (ha : a.plain) (hb : b.plain) (h : a.member = b.member) : a = b := by
  obtain ⟨path, kind, content, executable⟩ := a
  obtain ⟨other, otherKind, otherContent, bit⟩ := b
  cases kind <;> cases otherKind <;> simp_all [SnapshotEntry.plain, SnapshotEntry.member]

omit [StandardLibrary] in
theorem path_member (entry : SnapshotEntry) : entry.member.path = entry.path := by
  obtain ⟨path, kind, content, executable⟩ := entry
  cases kind <;> rfl

/-- The candidate as the planners read it, without the bytes it determines. -/
def Envelope.candidate (envelope : Envelope) : ObjectCandidate :=
  ⟨envelope.digest, envelope.entries.map SnapshotEntry.member⟩

theorem envelopeBytes_eq {entries : List SnapshotEntry} (h : ∀ entry ∈ entries, entry.plain) :
    envelopeBytes entries = canonicalObjectBytes (entries.map SnapshotEntry.member) := by
  have hentries : (entries.map SnapshotEntry.member).map entryJson =
      entries.map fun entry => jsonObject (snapshotEntryTable entry) := by
    rw [List.map_map]
    refine List.map_congr_left fun entry hentry => ?_
    rw [Function.comp_apply, entryJson, entryTable_member (h entry hentry)]
  rw [envelopeBytes, canonicalObjectBytes, envelopeTable, objectTable, hentries]

/-- The candidate of an envelope is bound to its bytes, as the review of a plan relies on. -/
theorem Envelope.candidate_bound (envelope : Envelope) :
    envelope.candidate.digest = sha256Bytes (canonicalObjectBytes envelope.candidate.entries) ∧
      ∀ entry ∈ envelope.candidate.entries, Canonical entry.path := by
  obtain ⟨hcollectable, _⟩ := collectable_of_normalized envelope.normalized
  refine ⟨?_, fun entry hentry => ?_⟩
  · rw [Envelope.candidate, ← envelopeBytes_eq hcollectable.shape, ← envelope.canonicalBytes_eq]
    exact envelope.digest_eq
  · obtain ⟨found, hfound, rfl⟩ := List.mem_map.mp hentry
    rw [path_member]
    exact hcollectable.paths found hfound

theorem entries_eq_of_digest [JsonRuntime] (hfree : CollisionFree) {left right : Envelope}
    (h : left.digest = right.digest) : left.entries = right.entries := by
  obtain ⟨hleft, hleftPaths⟩ := left.candidate_bound
  obtain ⟨hright, hrightPaths⟩ := right.candidate_bound
  obtain ⟨hleftEntries, _⟩ := collectable_of_normalized left.normalized
  obtain ⟨hrightEntries, _⟩ := collectable_of_normalized right.normalized
  have hdigest : left.candidate.digest = right.candidate.digest := h
  rw [hleft, hright] at hdigest
  have hmembers : left.entries.map SnapshotEntry.member = right.entries.map SnapshotEntry.member :=
    canonicalObjectBytes_inj hleftPaths hrightPaths (sha256Bytes_injective hfree hdigest)
  exact map_inj_of_forall (fun a b => member_inj) hleftEntries.shape hrightEntries.shape hmembers

/-! ## The envelope as an encoding -/

/-- A candidate is read from its bytes exactly when its paths are within the bound on texts.
Bytes that are read are the bytes of what was read, so the entries determine them, and the
digest determines the entries. -/
theorem parseObjectCandidate_canonicalBytes_iff [JsonRuntime] (hfree : CollisionFree)
    (hdecode : ∀ content, b64decode (String.ofList (Base64.encode content)) = some content) (candidate : Envelope) :
    (parseObjectCandidate b64decode candidate.canonicalBytes (some candidate.digest) = .ok candidate ↔
        ∀ entry ∈ candidate.entries, entry.path.str.length ≤ maxEnvelopeString) ∧
      (∀ data expectedDigest, parseObjectCandidate b64decode data expectedDigest = .ok candidate →
        data = candidate.canonicalBytes) ∧
      (∀ data other expectedDigest otherDigest (found : Envelope),
        parseObjectCandidate b64decode data expectedDigest = .ok candidate →
        parseObjectCandidate b64decode other otherDigest = .ok found → found.entries = candidate.entries →
          data = other) ∧
      ∀ other : Envelope, other.digest = candidate.digest → other.entries = candidate.entries := by
  refine ⟨⟨?_, parseObjectCandidate_written hdecode candidate⟩, ?_, ?_, fun other h => entries_eq_of_digest hfree h⟩
  · intro h entry hentry
    by_contra hlong
    rw [parseObjectCandidate_long candidate hentry (by omega)] at h
    exact absurd h (by simp [storeError, error])
  · exact fun data expectedDigest h => canonicalBytes_of_parse h
  · intro data other expectedDigest otherDigest found hdata hother hentries
    rw [canonicalBytes_of_parse hdata, canonicalBytes_of_parse hother, candidate.canonicalBytes_eq,
      found.canonicalBytes_eq, hentries]

end Reading

/-! ## A long name -/

def standardDecode (text : String) : Option Bytes := Base64.decode text.toList

theorem standardDecode_encode (content : List UInt8) :
    standardDecode (String.ofList (Base64.encode content)) = some content := by
  rw [standardDecode, String.toList_ofList, Base64.decode_encode]

/-- An empty directory whose name has some number of characters. -/
def namedEntry (length : Nat) : SnapshotEntry := directoryAt ⟨[String.ofList (List.replicate length 'a')]⟩

theorem namedEntry_str (length : Nat) : (namedEntry length).path.str = String.ofList (List.replicate length 'a') := by
  rw [namedEntry, directoryAt, SafeRelativePath.str, slashJoin, String.intercalate_singleton]

theorem JsonText.length_escapeChar_le (c : Char) : (JsonText.escapeChar c).length ≤ 12 := by
  unfold JsonText.escapeChar
  repeat' split
  all_goals simp

theorem JsonText.length_printText_le (text : String) : (JsonText.printText text).length ≤ 12 * text.length + 2 := by
  have hchars (chars : List Char) : (chars.flatMap JsonText.escapeChar).length ≤ 12 * chars.length := by
    induction chars with
    | nil => exact Nat.le_refl 0
    | cons c rest ih =>
        have hone := JsonText.length_escapeChar_le c
        rw [List.flatMap_cons, List.length_append, List.length_cons]
        omega
  have hall := hchars text.toList
  rw [String.length_toList] at hall
  rw [JsonText.printText, List.length_cons, List.length_append, List.length_singleton]
  omega

theorem escaped_name (length : Nat) :
    (List.replicate length 'a').flatMap JsonText.escapeChar = List.replicate length 'a' := by
  induction length with
  | zero => rfl
  | succ n ih =>
      rw [List.replicate_succ, List.flatMap_cons, ih]
      rfl

/-- The text of an envelope is the name between fixed texts. -/
theorem print_namedEntry (length : Nat) :
    JsonText.print JsonText.compact 0 (jsonObject (envelopeTable [namedEntry length])) =
      "\x7b\"entries\":[\x7b\"executable\":false,\"kind\":\"directory\",\"path\":\"".toList ++
        (List.replicate length 'a' ++ "\"\x7d],\"schema_version\":1\x7d".toList) := by
  have hentry : jsonObject (snapshotEntryTable (namedEntry length)) =
      .obj [("executable", .bool false), ("kind", .str "directory"), ("path", .str (namedEntry length).path.str)] :=
    congrArg Json.obj (sortEntries_eq (by decide : ["executable", "kind", "path"].Pairwise (· < ·)))
  have hobject : jsonObject (envelopeTable [namedEntry length]) =
      .obj [("entries", .arr [jsonObject (snapshotEntryTable (namedEntry length))]), ("schema_version", .int 1)] :=
    congrArg Json.obj (sortEntries_eq (by decide : ["entries", "schema_version"].Pairwise (· < ·)))
  have hpath : JsonText.printText (namedEntry length).path.str = '"' :: (List.replicate length 'a' ++ ['"']) := by
    rw [namedEntry_str, JsonText.printText, String.toList_ofList, escaped_name]
  have hone : JsonText.printInt 1 = ['1'] := by decide
  rw [hobject, hentry]
  simp only [JsonText.print, JsonText.printItems, JsonText.printEntries, JsonText.compact, hpath, hone]
  simp [JsonText.printText, JsonText.escapeChar]

section Named

variable [StandardLibrary] (hall : ∀ text, StandardLibrary.isNfc text = true)

include hall in
theorem namedEntry_canonical (length : Nat) : Canonical (namedEntry (length + 2)).path := by
  have hchars {c : Char} (h : c ∈ (String.ofList (List.replicate (length + 2) 'a')).toList) : c = 'a' := by
    rw [String.toList_ofList] at h
    exact List.eq_of_mem_replicate h
  have hnot {c : Char} (hc : c ≠ 'a') : c ∉ (String.ofList (List.replicate (length + 2) 'a')).toList :=
    fun h => hc (hchars h)
  have hne {text : String} (h : 'a' ∉ text.toList) : String.ofList (List.replicate (length + 2) 'a') ≠ text := by
    rintro rfl
    rw [String.toList_ofList, List.replicate_succ] at h
    exact h List.mem_cons_self
  refine canonical_iff.mpr ⟨by simp [namedEntry, directoryAt], ?_, hall _, ?_⟩
  · intro part hpart
    obtain rfl := List.mem_singleton.mp hpart
    refine ⟨hne (by decide), hne (by decide), hne (by decide), hnot (by decide), hnot (by decide), ?_⟩
    intro c hc
    rw [hchars hc]
    decide
  · unfold hasWindowsDrive
    rw [namedEntry_str, String.toList_ofList, List.replicate_succ, List.replicate_succ]
    rfl

include hall in
theorem namedEntry_normalized (length : Nat) :
    normalizedEntries [namedEntry (length + 2)] = .ok [namedEntry (length + 2)] := by
  have hformed : WellFormed [namedEntry (length + 2)] := by
    refine ⟨⟨?_, by simp, ?_, ?_, Nat.zero_le _, Nat.zero_le _⟩, ?_⟩
    · exact List.forall_mem_singleton.mpr (namedEntry_canonical hall length)
    · exact List.forall_mem_singleton.mpr (by decide : 1 ≤ maxEntryDepth)
    · exact List.forall_mem_singleton.mpr ⟨rfl, rfl⟩
    · exact fun _ _ => List.forall_mem_singleton.mpr fun _ => rfl
  exact (normalizedEntries_eq_ok fun _ _ _ => hall _).mpr
    ⟨List.cons_ne_nil _ _, (by decide : 1 ≤ maxEntries), hformed, rfl⟩

variable [JsonRuntime]

omit hall in
theorem length_namedEntry (length : Nat) : (envelopeBytes [namedEntry length]).length ≤ 4 * (length + 100) := by
  rw [envelopeBytes, canonicalJsonBytes_eq (frozen_envelopeTable _), print_namedEntry]
  refine (length_encodeUtf8_le _).trans ?_
  simp only [List.length_append, List.length_replicate, String.length_toList, List.length_singleton]
  have hfront : "\x7b\"entries\":[\x7b\"executable\":false,\"kind\":\"directory\",\"path\":\"".length ≤ 60 := by decide
  have hback : "\"\x7d],\"schema_version\":1\x7d".length ≤ 30 := by decide
  omega

/-- The candidate of one named directory, whose name fits an envelope. -/
def namedData (length : Nat) : EnvelopeData :=
  ⟨sha256Bytes (envelopeBytes [namedEntry length]), [namedEntry length], envelopeBytes [namedEntry length]⟩

include hall in
theorem namedData_valid (length : Nat) (hsize : 4 * (length + 102) ≤ maxEnvelopeBytes)
    (hdigest : validDigest (sha256Bytes (envelopeBytes [namedEntry (length + 2)])) = true) :
    (namedData (length + 2)).valid = true :=
  valid_iff.mpr ⟨hdigest, (length_namedEntry (length + 2)).trans hsize, rfl, namedEntry_normalized hall length, rfl⟩

end Named

section Sample

attribute [local instance] storeLibrary

/-- One character more than the reader takes. -/
theorem longData_valid : (namedData (15728639 + 2)).valid = true :=
  @namedData_valid _ (fun _ => rfl) (pythonLibrary_jsonRuntime _ _) 15728639 (by decide)
    (validDigest_sha256Bytes storeLibrary_sha256Length _)

/-- The candidate of the long name is accepted, and its own bytes are not read. -/
theorem longData_not_read :
    parseObjectCandidate standardDecode (namedData (15728639 + 2)).canonicalBytes
        (some (namedData (15728639 + 2)).digest) ≠ .ok ⟨namedData (15728639 + 2), longData_valid⟩ := by
  have hlong : maxEnvelopeString < (namedEntry (15728639 + 2)).path.str.length := by
    rw [namedEntry_str, String.length_ofList, List.length_replicate]
    decide
  have hrefused := @parseObjectCandidate_long _ standardDecode (pythonLibrary_jsonRuntime _ _)
    ⟨namedData (15728639 + 2), longData_valid⟩ _ List.mem_cons_self hlong (some (namedData (15728639 + 2)).digest)
  intro h
  rw [h] at hrefused
  exact absurd hrefused (by simp [storeError, error])

end Sample

def shortBytes : Bytes := @envelopeBytes storeLibrary [namedEntry 2]

/-- A runtime whose hash exchanges the bytes of a short envelope with thirty-two octets. -/
@[reducible] def envelopeLibrary : StandardLibrary :=
  pythonLibrary (fun data => Equiv.swap shortBytes (List.replicate 32 0) data) fun _ => true

section Read

attribute [local instance] envelopeLibrary

theorem envelopeLibrary_collisionFree : CollisionFree := (Equiv.swap shortBytes (List.replicate 32 0)).injective

theorem shortData_valid : (namedData (0 + 2)).valid = true := by
  refine @namedData_valid _ (fun _ => rfl) (pythonLibrary_jsonRuntime _ _) 0 (by decide) ?_
  have hraw : StandardLibrary.sha256 shortBytes = List.replicate 32 0 := Equiv.swap_apply_left _ _
  have hbytes : envelopeBytes [namedEntry (0 + 2)] = shortBytes := rfl
  rw [hbytes, sha256Bytes, hraw]
  decide

theorem shortData_read :
    parseObjectCandidate standardDecode (namedData (0 + 2)).canonicalBytes (some (namedData (0 + 2)).digest) =
      .ok ⟨namedData (0 + 2), shortData_valid⟩ :=
  (@parseObjectCandidate_canonicalBytes_iff envelopeLibrary standardDecode (pythonLibrary_jsonRuntime _ _)
    envelopeLibrary_collisionFree standardDecode_encode ⟨namedData (0 + 2), shortData_valid⟩).1.mpr
      (List.forall_mem_singleton.mpr (by decide))

end Read

end AgentArtifacts
