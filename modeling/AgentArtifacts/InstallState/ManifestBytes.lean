import AgentArtifacts.InstallState.ManifestFields

/-!
# The bytes of a manifest determine it

A written object determines the table it was written from, and the tables of the
manifest determine the evidence, the records and the state they are made of.
-/

namespace AgentArtifacts.Manifest

/-! ## Written objects -/

theorem frozenItems_iff {items : List Json} : FrozenItems items ↔ ∀ item ∈ items, Frozen item := by
  induction items with
  | nil => simp [FrozenItems]
  | cons item rest ih => simp [FrozenItems, ih]

theorem frozenEntries_iff {entries : List (String × Json)} :
    FrozenEntries entries ↔ ∀ entry ∈ entries, Frozen entry.2 := by
  induction entries with
  | nil => simp [FrozenEntries]
  | cons entry rest ih =>
      obtain ⟨key, item⟩ := entry
      simp [FrozenEntries, ih]

theorem frozen_jsonObject {fields : Fields} (h : (fields.map Prod.fst).Nodup)
    (hvalues : ∀ name value, (name, some value) ∈ fields → Frozen value) : Frozen (jsonObject fields) := by
  rw [jsonObject, Frozen, frozenEntries_iff]
  refine ⟨sortEntries_pairwise (nodup_present h), fun entry hentry => ?_⟩
  exact hvalues entry.1 entry.2 (mem_present.mp (mem_sortEntries.mp hentry))

theorem frozen_array {items : List Json} (h : ∀ item ∈ items, Frozen item) : Frozen (.arr items) := by
  rw [Frozen]
  exact frozenItems_iff.mpr h

/-- Tables with the same names are read off the object written from them. -/
theorem jsonObject_injective {left right : Fields} (hnames : left.map Prod.fst = right.map Prod.fst)
    (hnodup : (left.map Prod.fst).Nodup) (h : jsonObject left = jsonObject right) : left = right := by
  have hform (fields : Fields) (hfields : (fields.map Prod.fst).Nodup) :
      fields = (fields.map Prod.fst).map fun name => (name, Dict.get? (sortEntries (present fields)) name) := by
    rw [List.map_map]
    refine (List.map_id fields).symm.trans (List.map_congr_left fun field hmem => ?_)
    rw [Function.comp_apply, get?_field hfields hmem]
    rfl
  have hentries : sortEntries (present left) = sortEntries (present right) := by
    unfold jsonObject at h
    exact Json.obj.inj h
  have hright := hform right (hnames ▸ hnodup)
  rw [← hnames, ← hentries] at hright
  exact (hform left hnodup).trans hright.symm

theorem slug_eq_of_value {a b : Slug} (h : a.value = b.value) : a = b := by
  cases a
  cases b
  simpa using h

theorem identity_str_injective {a b : ArtifactIdentity} (h : a.str = b.str) : a = b := by
  have hform (identity : ArtifactIdentity) : identity.str = slashJoin [identity.kind.value, identity.name.value] := by
    simp [ArtifactIdentity.str, slashJoin, String.append_assoc]
  have hno (identity : ArtifactIdentity) :
      ∀ text ∈ [identity.kind.value, identity.name.value], '/' ∉ text.toList := by
    simp only [List.forall_mem_cons, List.not_mem_nil, false_implies, implies_true, and_true]
    exact ⟨identity.kind.slash_not_mem, identity.name.slash_not_mem⟩
  rw [hform, hform] at h
  have hparts := slashJoin_injective (hno a) (hno b) (by simp) (by simp) h
  simp only [List.cons.injEq, and_true] at hparts
  obtain ⟨kind, name⟩ := a
  obtain ⟨otherKind, otherName⟩ := b
  rw [@ArtifactKind.value_injective kind otherKind hparts.1, @slug_eq_of_value name otherName hparts.2]

theorem map_str_injective {a b : Option String} (h : a.map Json.str = b.map Json.str) : a = b :=
  Option.map_injective (fun _ _ => Json.str.inj) h

theorem digest_eq_of_str {a b : ObjectDigest} (h : a.str = b.str) : a = b := by
  cases a
  cases b
  simpa [ObjectDigest.str] using h

/-! ## Tables -/

theorem SourceKind.value_injective {a b : SourceKind} (h : a.value = b.value) : a = b := by
  cases a <;> cases b <;> first | rfl | exact absurd h (by decide)

theorem EffectKind.value_injective {a b : EffectKind} (h : a.value = b.value) : a = b := by
  cases a <;> cases b <;> first | rfl | exact absurd h (by decide)

theorem InstallMode.value_injective {a b : InstallMode} (h : a.value = b.value) : a = b := by
  cases a <;> cases b <;> first | rfl | exact absurd h (by decide)

theorem memoryModeValue_injective {a b : MemoryMode} (h : memoryModeValue a = memoryModeValue b) : a = b := by
  cases a <;> cases b <;> first | rfl | exact absurd h (by decide)

theorem mergeModeValue_injective {a b : MergeMode} (h : mergeModeValue a = mergeModeValue b) : a = b := by
  cases a <;> cases b <;> first | rfl | exact absurd h (by decide)

theorem linkSemanticsValue_injective {a b : LinkSemantics} (h : linkSemanticsValue a = linkSemanticsValue b) : a = b := by
  cases a <;> cases b <;> first | rfl | exact absurd h (by decide)

theorem sourceTable_injective {a b : SourceEvidence} (h : sourceTable a = sourceTable b) : a = b := by
  obtain ⟨aliasA, idA, kindA, originA, commitA, refA⟩ := a
  obtain ⟨aliasB, idB, kindB, originB, commitB, refB⟩ := b
  simp only [sourceTable, List.cons.injEq, Prod.mk.injEq, Option.some.injEq, Json.str.injEq, true_and, and_true] at h
  obtain ⟨halias, hid, hkind, rfl, rfl, href⟩ := h
  rw [slug_eq_of_value halias, slug_eq_of_value hid, SourceKind.value_injective hkind, map_str_injective href]

theorem artifactTable_injective {a b : ArtifactEvidence} (h : artifactTable a = artifactTable b) : a = b := by
  obtain ⟨⟨kindA, nameA⟩, versionA, manifestA, payloadA, objectA⟩ := a
  obtain ⟨⟨kindB, nameB⟩, versionB, manifestB, payloadB, objectB⟩ := b
  simp only [artifactTable, List.cons.injEq, Prod.mk.injEq, Option.some.injEq, Json.str.injEq, true_and, and_true] at h
  obtain ⟨hkind, hname, rfl, hmanifest, hpayload, hobject⟩ := h
  rw [ArtifactKind.value_injective hkind, slug_eq_of_value hname, digest_eq_of_str hmanifest,
    digest_eq_of_str hpayload, digest_eq_of_str hobject]

theorem evidence_eq {a b : Json} (h : (if a = .null then none else some a) = if b = .null then none else some b) :
    a = b := by
  split at h
  · rename_i ha
    split at h
    · rename_i hb
      rw [ha, hb]
    · exact absurd h (by simp)
  · split at h
    · exact absurd h (by simp)
    · exact Option.some.inj h

theorem effectTable_injective {a b : EffectProof} (h : effectTable a = effectTable b) : a = b := by
  cases a
  cases b
  simp only [effectTable, List.cons.injEq, Prod.mk.injEq, Option.some.injEq, Json.str.injEq, Json.bool.injEq, true_and,
    and_true] at h
  obtain ⟨hkind, rfl, hmode, hinstalled, hsource, hjson, hmerge, hidentity, hevidence, htarget, hlink, hrestores, rfl,
    rfl⟩ := h
  have hmerge := Option.map_injective (fun _ _ heq => mergeModeValue_injective (Json.str.inj heq)) hmerge
  have hidentity := Option.map_injective (fun _ _ heq => digest_eq_of_str (Json.str.inj heq)) hidentity
  have hlink := Option.map_injective (fun _ _ heq => linkSemanticsValue_injective (Json.str.inj heq)) hlink
  rw [EffectKind.value_injective hkind, InstallMode.value_injective hmode, digest_eq_of_str hinstalled,
    map_str_injective hsource, map_str_injective hjson, hmerge, hidentity, evidence_eq hevidence,
    map_str_injective htarget, hlink, map_str_injective hrestores]

theorem source_eq_of_written {a b : SourceEvidence} (h : jsonObject (sourceTable a) = jsonObject (sourceTable b)) :
    a = b :=
  sourceTable_injective (jsonObject_injective rfl (nodup_sourceTable a) h)

theorem artifact_eq_of_written {a b : ArtifactEvidence}
    (h : jsonObject (artifactTable a) = jsonObject (artifactTable b)) : a = b :=
  artifactTable_injective (jsonObject_injective rfl (nodup_artifactTable a) h)

theorem effectJson_injective : Function.Injective effectJson := fun a _ h =>
  effectTable_injective (jsonObject_injective rfl (nodup_effectTable a) h)

theorem recordTable_injective {a b : InstallationRecord} (h : recordTable a = recordTable b) : a = b := by
  cases a
  cases b
  simp only [recordTable, List.cons.injEq, Prod.mk.injEq, Option.some.injEq, Json.str.injEq, Json.int.injEq,
    Json.arr.injEq, true_and, and_true, Int.ofNat_inj] at h
  obtain ⟨_, hsource, hartifact, hprofile, rfl, hscope, hmode, heffects, hmemory, hsetup⟩ := h
  have hmemory := Option.map_injective (fun _ _ heq => memoryModeValue_injective (Json.str.inj heq)) hmemory
  rw [source_eq_of_written hsource, artifact_eq_of_written hartifact, slug_eq_of_value hprofile,
    InstallScope.value_injective hscope, InstallMode.value_injective hmode,
    List.map_injective_iff.mpr effectJson_injective heffects, hmemory, map_str_injective hsetup]

theorem recordJson_injective : Function.Injective recordJson := fun a _ h =>
  recordTable_injective (jsonObject_injective rfl (nodup_recordTable a) h)

theorem installStateToJson_injective {a b : InstallState} (h : installStateToJson a = installStateToJson b) : a = b := by
  have htable : stateTable a = stateTable b := jsonObject_injective rfl (nodup_stateTable a) h
  simp only [stateTable, List.cons.injEq, Prod.mk.injEq, Option.some.injEq, Json.arr.injEq, true_and, and_true] at htable
  have hrecords := List.map_injective_iff.mpr recordJson_injective htable
  cases a
  cases b
  simpa using hrecords

/-! ## Bytes -/

/-- The evidence of a state is frozen, as its constructors hold it. -/
def FrozenEvidence (state : InstallState) : Prop :=
  ∀ record ∈ state.installations, ∀ effect ∈ record.effects, Frozen effect.identityEvidence

theorem frozen_str (text : String) : Frozen (.str text) := by
  rw [Frozen]
  trivial

theorem frozen_of_map {α : Type} {text : α → String} {found : Option α} {value : Json}
    (h : some value = found.map fun x => .str (text x)) : Frozen value := by
  obtain ⟨x, _, rfl⟩ := Option.map_eq_some_iff.mp h.symm
  exact frozen_str _

theorem frozen_sourceTable (source : SourceEvidence) : Frozen (jsonObject (sourceTable source)) := by
  refine frozen_jsonObject (nodup_sourceTable source) fun name value hmem => ?_
  simp only [sourceTable, List.mem_cons, List.not_mem_nil, or_false, Prod.mk.injEq, Option.some.injEq] at hmem
  rcases hmem with ⟨-, rfl⟩ | ⟨-, rfl⟩ | ⟨-, rfl⟩ | ⟨-, rfl⟩ | ⟨-, rfl⟩ | ⟨-, h⟩
  any_goals exact frozen_str _
  exact @frozen_of_map String id _ _ h

theorem frozen_artifactTable (artifact : ArtifactEvidence) : Frozen (jsonObject (artifactTable artifact)) := by
  refine frozen_jsonObject (nodup_artifactTable artifact) fun name value hmem => ?_
  simp only [artifactTable, List.mem_cons, List.not_mem_nil, or_false, Prod.mk.injEq, Option.some.injEq] at hmem
  rcases hmem with ⟨-, rfl⟩ | ⟨-, rfl⟩ | ⟨-, rfl⟩ | ⟨-, rfl⟩ | ⟨-, rfl⟩ | ⟨-, rfl⟩
  all_goals exact frozen_str _

theorem frozen_effectJson {effect : EffectProof} (h : Frozen effect.identityEvidence) : Frozen (effectJson effect) := by
  refine frozen_jsonObject (nodup_effectTable effect) fun name value hmem => ?_
  simp only [effectTable, List.mem_cons, List.not_mem_nil, or_false, Prod.mk.injEq, Option.some.injEq] at hmem
  rcases hmem with ⟨-, rfl⟩ | ⟨-, rfl⟩ | ⟨-, rfl⟩ | ⟨-, rfl⟩ | ⟨-, hvalue⟩ | ⟨-, hvalue⟩ | ⟨-, hvalue⟩ | ⟨-, hvalue⟩ |
    ⟨-, hvalue⟩ | ⟨-, hvalue⟩ | ⟨-, hvalue⟩ | ⟨-, hvalue⟩ | ⟨-, rfl⟩ | ⟨-, rfl⟩
  case inr.inr.inr.inr.inr.inr.inr.inr.inl =>
    split at hvalue
    · exact absurd hvalue (by simp)
    · rw [Option.some.inj hvalue]
      exact h
  any_goals exact frozen_str _
  any_goals exact frozen_of_map hvalue
  all_goals
    rw [Frozen]
    trivial

theorem frozen_recordJson {record : InstallationRecord}
    (h : ∀ effect ∈ record.effects, Frozen effect.identityEvidence) : Frozen (recordJson record) := by
  refine frozen_jsonObject (nodup_recordTable record) fun name value hmem => ?_
  simp only [recordTable, List.mem_cons, List.not_mem_nil, or_false, Prod.mk.injEq, Option.some.injEq] at hmem
  rcases hmem with ⟨-, rfl⟩ | ⟨-, rfl⟩ | ⟨-, rfl⟩ | ⟨-, rfl⟩ | ⟨-, rfl⟩ | ⟨-, rfl⟩ | ⟨-, rfl⟩ | ⟨-, rfl⟩ | ⟨-, hvalue⟩ |
    ⟨-, hvalue⟩
  · exact frozen_str _
  · exact frozen_sourceTable _
  · exact frozen_artifactTable _
  · exact frozen_str _
  · rw [Frozen]
    trivial
  · exact frozen_str _
  · exact frozen_str _
  · refine frozen_array fun item hitem => ?_
    obtain ⟨effect, hmem, rfl⟩ := List.mem_map.mp hitem
    exact frozen_effectJson (h effect hmem)
  · exact frozen_of_map hvalue
  · exact @frozen_of_map String id _ _ hvalue

theorem frozen_installStateToJson {state : InstallState} (h : FrozenEvidence state) :
    Frozen (installStateToJson state) := by
  refine frozen_jsonObject (nodup_stateTable state) fun name value hmem => ?_
  simp only [stateTable, List.mem_cons, List.not_mem_nil, or_false, Prod.mk.injEq, Option.some.injEq] at hmem
  rcases hmem with ⟨-, rfl⟩ | ⟨-, rfl⟩
  · rw [Frozen]
    trivial
  · refine frozen_array fun item hitem => ?_
    obtain ⟨record, hmem, rfl⟩ := List.mem_map.mp hitem
    exact frozen_recordJson (h record hmem)

/-- Equal bytes are bytes of the same state. -/
theorem installStateBytes_injective [StandardLibrary] [JsonRuntime] {a b : InstallState} (ha : FrozenEvidence a)
    (hb : FrozenEvidence b) (h : installStateBytes a = installStateBytes b) : a = b :=
  installStateToJson_injective
    (canonicalJsonBytes_injective (frozen_installStateToJson ha) (frozen_installStateToJson hb) h)

end AgentArtifacts.Manifest
