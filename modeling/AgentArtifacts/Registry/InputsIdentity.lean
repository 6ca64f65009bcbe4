import AgentArtifacts.Protocol.JsonCanonical
import AgentArtifacts.Registry.InputsDigest
import AgentArtifacts.Store.PathTexts

/-!
# Registries with one inputs digest

Hashing keeps the path, the executable bit and the content of each input apart, and the content
of a JSON input is its value. So two registries have one digest exactly where their inputs agree.
-/

namespace AgentArtifacts.Registry

open Schema (insteadOf)

section Identity

variable [StandardLibrary]

/-! ## Inputs that agree -/

/-- JSON is compared by its value, any other file by its bytes. -/
def AgreesWith (left right : SnapshotEntry) : Prop :=
  if endsWith ".json" left.path.str then
    ∃ value, parseJson left.content = .ok value ∧ parseJson right.content = .ok value
  else left.content = right.content

/-- The same input paths, with the same executable bit and the same content at each. -/
structure SameInputs (left right : List SnapshotEntry) : Prop where
  paths : ∀ path, path ∈ (inputFiles left).map (·.path.str) ↔ path ∈ (inputFiles right).map (·.path.str)
  files : ∀ a ∈ inputFiles left, ∀ b ∈ inputFiles right, a.path.str = b.path.str →
    a.executable = b.executable ∧ AgreesWith a b

/-! ## What is hashed of an input -/

/-- The octets that an input is hashed with. -/
def hashedContent (entry : SnapshotEntry) : Result Bytes :=
  if endsWith ".json" entry.path.str then (parseJson entry.content).map canonicalJsonBytes else .ok entry.content

theorem inputFile_eq_ok {entry : SnapshotEntry} {hashed : TreeEntry} :
    inputFile entry = .ok hashed ↔ ∃ content, hashedContent entry = .ok content ∧
      hashed = .file entry.path entry.executable content.length (sha256Bytes content) := by
  unfold inputFile hashedContent
  split
  · cases parseJson entry.content with
    | error diagnostics => simp [insteadOf, error, Except.map, bind, Except.bind]
    | ok value => simp [insteadOf, Except.map, bind, Except.bind, pure, Except.pure, eq_comm (a := hashed)]
  · simp [bind, Except.bind, pure, Except.pure, eq_comm (a := hashed)]

theorem agrees_of_hashed [JsonRuntime] {a b : SnapshotEntry} (hpath : a.path.str = b.path.str) {content : Bytes}
    (ha : hashedContent a = .ok content) (hb : hashedContent b = .ok content) : AgreesWith a b := by
  unfold hashedContent at ha hb
  unfold AgreesWith
  rw [← hpath] at hb
  split at ha
  · rw [if_pos ‹_›] at hb ⊢
    obtain ⟨value, hvalue, hcontent⟩ := Result.of_map_ok ha
    obtain ⟨value', hvalue', hcontent'⟩ := Result.of_map_ok hb
    have hsame : value = value' := by
      have hread := parseJson_canonical_of_parseJson hvalue
      rw [← hcontent, hcontent', parseJson_canonical_of_parseJson hvalue'] at hread
      exact (Except.ok.inj hread).symm
    exact ⟨value, hvalue, hsame ▸ hvalue'⟩
  · rw [if_neg ‹_›] at hb ⊢
    exact (Except.ok.inj ha).trans (Except.ok.inj hb).symm

theorem inputFile_congr {a b : SnapshotEntry} (hpath : a.path = b.path) (hexecutable : a.executable = b.executable)
    (hcontent : AgreesWith a b) : inputFile a = inputFile b := by
  unfold AgreesWith at hcontent
  split at hcontent
  · rename_i hjson
    obtain ⟨value, ha, hb⟩ := hcontent
    simp only [inputFile, ← hpath, ← hexecutable, hjson, if_true, ha, hb]
  · rename_i hjson
    simp only [inputFile, ← hpath, ← hexecutable, if_neg hjson, hcontent]

/-! ## One digest -/

/-- Files and directories that a tree hashes alike come in pairs with one record. -/
theorem exists_same_record (hfree : CollisionFree) {left right : List TreeEntry} {digest : ObjectDigest}
    (hleft : treeDigest left = .ok digest) (hright : treeDigest right = .ok digest) {entry : TreeEntry}
    (hentry : entry ∈ left) : ∃ other ∈ right, ∃ record, treeRecord entry = .ok record ∧ treeRecord other = .ok record := by
  obtain ⟨records, hrecords, hrecords'⟩ := treeDigest_records_eq hfree hleft hright
  have hsorted : entry ∈ sortTree left := (List.perm_insertionSort _ _).mem_iff.mpr hentry
  obtain ⟨record, hmem, hrecord⟩ := exists_of_forall₂_mem (treeRecords_eq_ok hrecords).1.flip hsorted
  obtain ⟨other, hother, hsame⟩ := exists_of_forall₂_mem (treeRecords_eq_ok hrecords').1 hmem
  exact ⟨other, (List.perm_insertionSort _ _).mem_iff.mp hother, record, hrecord, hsame⟩

theorem inputsTree_parts {files : List SnapshotEntry} {digest : ObjectDigest} (h : inputsTree files = .ok digest) :
    ∃ hashed directories, files.mapM inputFile = .ok hashed ∧
      (∀ entry ∈ directories, ∃ path, entry = TreeEntry.directory path) ∧
      treeDigest (hashed ++ directories) = .ok digest := by
  obtain ⟨hashed, hhashed, h⟩ := Result.of_bind_ok h
  obtain ⟨directories, hdirectories, h⟩ := Result.of_bind_ok h
  refine ⟨hashed, directories, hhashed, ?_, ?_⟩
  · intro entry hentry
    obtain ⟨raw, _, hraw⟩ := exists_of_forall₂_mem (Result.forall₂_of_mapM_ok hdirectories) hentry
    obtain ⟨path, _, hpath⟩ := Result.of_bind_ok hraw
    exact ⟨path, (Except.ok.inj hpath).symm⟩
  · unfold insteadOf at h
    split at h
    · rename_i value hvalue
      rw [hvalue, Except.ok.inj h]
    · cases h

/-- An input of one registry has its like among the inputs of another with the same digest. -/
theorem exists_same_input [JsonRuntime] (hfree : CollisionFree) {left right : List SnapshotEntry} {digest : ObjectDigest}
    (hleft : inputsTree left = .ok digest) (hright : inputsTree right = .ok digest) {a : SnapshotEntry} (ha : a ∈ left) :
    ∃ b ∈ right, a.path.str = b.path.str ∧ a.executable = b.executable ∧ AgreesWith a b := by
  obtain ⟨hashed, directories, hhashed, _, hdigest⟩ := inputsTree_parts hleft
  obtain ⟨hashed', directories', hhashed', hdirectories', hdigest'⟩ := inputsTree_parts hright
  obtain ⟨first, hfirst, hinput⟩ := Result.ok_of_mapM_ok hhashed ha
  obtain ⟨content, hcontent, rfl⟩ := inputFile_eq_ok.mp hinput
  obtain ⟨second, hsecond, record, hrecord, hrecord'⟩ :=
    exists_same_record hfree hdigest hdigest' (List.mem_append_left directories hfirst)
  have hsame := treeRecord_injective hrecord hrecord'
  rcases List.mem_append.mp hsecond with hsecond | hsecond
  · obtain ⟨b, hb, hinput'⟩ := exists_of_forall₂_mem (Result.forall₂_of_mapM_ok hhashed') hsecond
    obtain ⟨content', hcontent', rfl⟩ := inputFile_eq_ok.mp hinput'
    obtain ⟨hpath, hexecutable, _, hoctets⟩ := hsame
    rw [digestOctets_sha256Bytes, digestOctets_sha256Bytes] at hoctets
    have hpathText : a.path.str = b.path.str := congrArg SafeRelativePath.str hpath
    exact ⟨b, hb, hpathText, hexecutable, agrees_of_hashed hpathText hcontent (hfree hoctets ▸ hcontent')⟩
  · obtain ⟨path, rfl⟩ := hdirectories' second hsecond
    exact hsame.elim

omit [StandardLibrary] in
theorem mapM_congr_forall₂ {α β : Type} {f : α → Result β} {left right : List α}
    (h : List.Forall₂ (fun a b => f a = f b) left right) : left.mapM f = right.mapM f := by
  induction h with
  | nil => rfl
  | cons hfirst _ ih => rw [List.mapM_cons, List.mapM_cons, hfirst, ih]

/-- Inputs that agree stand in the same order. -/
theorem forall₂_of_sameInputs {left right : SourceSnapshot} (hleft : InputEntries left.entries)
    (hright : InputEntries right.entries) (h : SameInputs left.entries right.entries) :
    List.Forall₂ (fun a b => a.path = b.path ∧ inputFile a = inputFile b)
      (inputFiles left.entries) (inputFiles right.entries) := by
  have hdistinct {snapshot : SourceSnapshot} (hentries : InputEntries snapshot.entries) :
      ((inputFiles snapshot.entries).map (·.path.str)).Nodup := hentries.distinct.sublist (List.filter_sublist.map _)
  have hordered (snapshot : SourceSnapshot) :
      ((inputFiles snapshot.entries).map (·.path.str)).Pairwise (· ≤ ·) :=
    List.pairwise_map.mpr ((snapshot_pairwise snapshot).sublist List.filter_sublist)
  have hpaths : (inputFiles left.entries).map (·.path.str) = (inputFiles right.entries).map (·.path.str) :=
    ((List.perm_ext_iff_of_nodup (hdistinct hleft) (hdistinct hright)).mpr h.paths).eq_of_pairwise
      (fun _ _ _ _ => le_antisymm) (hordered left) (hordered right)
  rw [List.forall₂_iff_get]
  refine ⟨by simpa using congrArg List.length hpaths, fun i hi hi' => ?_⟩
  have ha := List.get_mem (inputFiles left.entries) ⟨i, hi⟩
  have hb := List.get_mem (inputFiles right.entries) ⟨i, hi'⟩
  have htext : ((inputFiles left.entries).get ⟨i, hi⟩).path.str = ((inputFiles right.entries).get ⟨i, hi'⟩).path.str := by
    have hat := congrArg (fun texts => texts[i]?) hpaths
    simpa [hi, hi'] using hat
  have hpath := path_of_text (hleft.paths _ (List.mem_of_mem_filter ha)) (hright.paths _ (List.mem_of_mem_filter hb)) htext
  obtain ⟨hexecutable, hcontent⟩ := h.files _ ha _ hb htext
  exact ⟨hpath, inputFile_congr hpath hexecutable hcontent⟩

theorem inputsTree_congr {left right : List SnapshotEntry}
    (h : List.Forall₂ (fun a b => a.path = b.path ∧ inputFile a = inputFile b) left right) :
    inputsTree left = inputsTree right := by
  have hpaths : left.map SnapshotEntry.path = right.map SnapshotEntry.path := by
    induction h with
    | nil => rfl
    | cons hfirst _ ih => rw [List.map_cons, List.map_cons, hfirst.1, ih]
  have hhashed : left.mapM inputFile = right.mapM inputFile := mapM_congr_forall₂ (h.imp fun _ _ => And.right)
  have habove (files : List SnapshotEntry) : (files.flatMap fun entry => properAncestors entry.path) =
      (files.map SnapshotEntry.path).flatMap properAncestors := by
    rw [List.flatMap_map]
  have hdirectories : inputDirectories left = inputDirectories right := by
    rw [inputDirectories, inputDirectories, habove, habove, hpaths]
  rw [inputsTree, inputsTree, hhashed, hdirectories]

/-- Two registries have one inputs digest exactly where they have the same input files, with the
same executable bits, the same values in JSON and the same octets in any other file. -/
theorem registryInputsDigest_eq_iff [JsonRuntime] (hfree : CollisionFree) {left right : SourceSnapshot}
    {first second : ObjectDigest} (hfirst : registryInputsDigest left = .ok first)
    (hsecond : registryInputsDigest right = .ok second) :
    first = second ↔ SameInputs left.entries right.entries := by
  have hleft := inputEntries_of_digest hfirst
  have hright := inputEntries_of_digest hsecond
  constructor
  · rintro rfl
    rw [registryInputsDigest_eq hleft] at hfirst
    rw [registryInputsDigest_eq hright] at hsecond
    have hdistinct : ((inputFiles right.entries).map (·.path.str)).Nodup :=
      hright.distinct.sublist (List.filter_sublist.map _)
    constructor
    · intro path
      constructor
      · intro hpath
        obtain ⟨a, ha, rfl⟩ := List.mem_map.mp hpath
        obtain ⟨b, hb, hsame, _⟩ := exists_same_input hfree hfirst hsecond ha
        exact List.mem_map.mpr ⟨b, hb, hsame.symm⟩
      · intro hpath
        obtain ⟨b, hb, rfl⟩ := List.mem_map.mp hpath
        obtain ⟨a, ha, hsame, _⟩ := exists_same_input hfree hsecond hfirst hb
        exact List.mem_map.mpr ⟨a, ha, hsame.symm⟩
    · intro a ha b hb htext
      obtain ⟨other, hother, hsame, hagree⟩ := exists_same_input hfree hfirst hsecond ha
      rw [List.inj_on_of_nodup_map hdistinct hb hother (htext.symm.trans hsame)]
      exact hagree
  · intro hsame
    have hdigest : registryInputsDigest left = registryInputsDigest right := by
      rw [registryInputsDigest_eq hleft, registryInputsDigest_eq hright]
      exact inputsTree_congr (forall₂_of_sameInputs hleft hright hsame)
    rw [hfirst, hsecond] at hdigest
    exact Except.ok.inj hdigest

end Identity

/-! ## A registry in two layouts -/

section Sample

@[reducible] def transparentLibrary : StandardLibrary := pythonLibrary id fun _ => true

attribute [local instance] transparentLibrary

def markerAs (text : String) : SnapshotEntry := ⟨⟨["aart-registry.json"]⟩, .file, encodeUtf8 text, false⟩

def readme : SnapshotEntry := ⟨⟨["README.md"]⟩, .file, encodeUtf8 "notes", false⟩

def compactRegistry : SourceSnapshot := ⟨.immutableGit, [markerAs "{}"], by decide⟩

def spacedRegistry : SourceSnapshot := ⟨.immutableGit, [readme, markerAs "{ }"], by decide⟩

/-- Spaces in a document and a file that is no input leave the digest as it was. -/
theorem registryInputsDigest_spaced :
    ∃ digest, registryInputsDigest compactRegistry = .ok digest ∧ registryInputsDigest spacedRegistry = .ok digest := by
  have hcompact := Result.eq_ok_get (by decide +kernel : (registryInputsDigest compactRegistry).toOption.isSome = true)
  have hspaced := Result.eq_ok_get (by decide +kernel : (registryInputsDigest spacedRegistry).toOption.isSome = true)
  have hfiles : inputFiles compactRegistry.entries = [markerAs "{}"] := by decide
  have hfiles' : inputFiles spacedRegistry.entries = [markerAs "{ }"] := by decide
  have hsame : SameInputs compactRegistry.entries spacedRegistry.entries := by
    constructor
    · rw [hfiles, hfiles']
      exact fun path => Iff.rfl
    · rw [hfiles, hfiles']
      intro a ha b hb _
      rw [List.mem_singleton.mp ha, List.mem_singleton.mp hb]
      refine ⟨rfl, ?_⟩
      rw [AgreesWith, if_pos (by decide)]
      exact ⟨.obj [], by decide +kernel, by decide +kernel⟩
  have hdigest := (@registryInputsDigest_eq_iff transparentLibrary (pythonLibrary_jsonRuntime _ _) Function.injective_id _ _ _ _
    hcompact hspaced).mpr hsame
  exact ⟨_, hcompact, hdigest ▸ hspaced⟩

end Sample

end AgentArtifacts.Registry
