import Mathlib.Logic.Equiv.Basic
import AgentArtifacts.InstallState.ManifestBytes
import AgentArtifacts.Installation.ReviewValue

/-!
# A review digest is consent to one plan

The value of a review is written field by field, and every field determines what it
was written from: texts directly, contents and trees through their digests, the
replacement of the manifest through its bytes. So plans with one review digest
differ at most in the health and the age of their source.
-/

namespace AgentArtifacts

open Manifest (Fields jsonObject jsonObject_injective get?_field slug_eq_of_value digest_eq_of_str frozen_str
  frozen_array map_str_injective identity_str_injective)

/-! ## Fields -/

theorem nullable_injective : Function.Injective nullable := by
  intro a b h
  cases a <;> cases b <;> simp_all [nullable]

theorem value_injective_map {α : Type} {text : α → String} (htext : Function.Injective text) {a b : Option α}
    (h : nullable (a.map text) = nullable (b.map text)) : a = b :=
  Option.map_injective htext (nullable_injective h)

theorem frozen_nullable (text : Option String) : Frozen (nullable text) := by
  cases text with
  | none =>
      rw [nullable, Frozen]
      trivial
  | some text => exact frozen_str text

theorem frozen_bool (flag : Bool) : Frozen (.bool flag) := by
  rw [Frozen]
  trivial

theorem frozen_int (number : Int) : Frozen (.int number) := by
  rw [Frozen]
  trivial

theorem frozen_null : Frozen .null := by
  rw [Frozen]
  trivial

/-- Every field of a table is frozen. -/
def FrozenFields (fields : Fields) : Prop := ∀ field ∈ fields, ∀ value, field.2 = some value → Frozen value

theorem FrozenFields.jsonObject {fields : Fields} (h : FrozenFields fields) (hnodup : (fields.map Prod.fst).Nodup) :
    Frozen (jsonObject fields) :=
  Manifest.frozen_jsonObject hnodup fun _ _ hmem => h _ hmem _ rfl

/-- A field that two objects have is the same in both. -/
theorem field_eq {left right : Fields} (hleft : (left.map Prod.fst).Nodup) (hright : (right.map Prod.fst).Nodup)
    (h : jsonObject left = jsonObject right) {name : String} {a b : Option Json} (ha : (name, a) ∈ left)
    (hb : (name, b) ∈ right) : a = b := by
  unfold Manifest.jsonObject at h
  rw [← get?_field hleft ha, ← get?_field hright hb, Json.obj.inj h]

section Encodings

variable [StandardLibrary]

/-! ## Objects -/

/-- The path of an entry is one that the reader of paths gives. -/
def Canonical (path : SafeRelativePath) : Prop := parseRelativePath path.str = .ok path

theorem path_eq_of_str {a b : SafeRelativePath} (ha : Canonical a) (hb : Canonical b) (h : a.str = b.str) : a = b := by
  unfold Canonical at ha hb
  rw [h, hb] at ha
  exact (Except.ok.inj ha).symm

omit [StandardLibrary] in
theorem nodup_entryTable (entry : TreeMember) : ((entryTable entry).map Prod.fst).Nodup := by
  cases entry with
  | directory path => exact (by decide : ["executable", "kind", "path", "content_base64"].Nodup)
  | file path content executable => exact (by decide : ["executable", "kind", "path", "content_base64"].Nodup)

omit [StandardLibrary] in
theorem names_entryTable (a b : TreeMember) : (entryTable a).map Prod.fst = (entryTable b).map Prod.fst := by
  cases a <;> cases b <;> rfl

theorem entryJson_inj {a b : TreeMember} (ha : Canonical a.path) (hb : Canonical b.path)
    (h : entryJson a = entryJson b) : a = b := by
  have htable := jsonObject_injective (names_entryTable a b) (nodup_entryTable a) h
  cases a with
  | directory p =>
      cases b with
      | directory q =>
          simp only [entryTable, List.cons.injEq, Prod.mk.injEq, Option.some.injEq, Json.str.injEq, true_and,
            and_true] at htable
          rw [@path_eq_of_str _ p q ha hb htable]
      | file q content executable =>
          simp [entryTable] at htable
  | file p content executable =>
      cases b with
      | directory q => simp [entryTable] at htable
      | file q other bit =>
          simp only [entryTable, List.cons.injEq, Prod.mk.injEq, Option.some.injEq, Json.str.injEq, Json.bool.injEq,
            true_and, and_true] at htable
          obtain ⟨rfl, hpath, hcontent⟩ := htable
          rw [@path_eq_of_str _ p q ha hb hpath, Base64.encode_injective (String.ofList_injective hcontent)]

omit [StandardLibrary] in
theorem frozen_entryJson (entry : TreeMember) : Frozen (entryJson entry) := by
  refine FrozenFields.jsonObject ?_ (nodup_entryTable entry)
  cases entry <;> simp [FrozenFields, entryTable, frozen_str, frozen_bool]

omit [StandardLibrary] in
theorem map_inj_of_forall {α β : Type} {f : α → β} {good : α → Prop}
    (hf : ∀ a b, good a → good b → f a = f b → a = b) {left right : List α} (hleft : ∀ a ∈ left, good a)
    (hright : ∀ b ∈ right, good b) (h : left.map f = right.map f) : left = right := by
  induction left generalizing right with
  | nil => exact (List.map_eq_nil_iff.mp h.symm).symm
  | cons a as ih =>
      cases right with
      | nil => exact absurd h (by simp)
      | cons b bs =>
          rw [List.map_cons, List.map_cons, List.cons.injEq] at h
          rw [hf a b (hleft a List.mem_cons_self) (hright b List.mem_cons_self) h.1,
            ih (fun x hx => hleft x (List.mem_cons_of_mem _ hx)) (fun x hx => hright x (List.mem_cons_of_mem _ hx)) h.2]

omit [StandardLibrary] in
theorem nodup_objectTable (entries : List TreeMember) : ((objectTable entries).map Prod.fst).Nodup :=
  (by decide : ["entries", "schema_version"].Nodup)

omit [StandardLibrary] in
theorem frozen_objectTable (entries : List TreeMember) : Frozen (jsonObject (objectTable entries)) := by
  refine FrozenFields.jsonObject ?_ (nodup_objectTable entries)
  simp only [FrozenFields, objectTable, List.forall_mem_cons, Option.some.injEq, forall_eq', frozen_int,
    List.not_mem_nil, false_implies, implies_true, and_true]
  refine frozen_array fun item hitem => ?_
  obtain ⟨entry, _, rfl⟩ := List.mem_map.mp hitem
  exact frozen_entryJson entry

/-- The bytes of an object determine its entries. -/
theorem canonicalObjectBytes_inj [JsonRuntime] {left right : List TreeMember}
    (hleft : ∀ entry ∈ left, Canonical entry.path) (hright : ∀ entry ∈ right, Canonical entry.path)
    (h : canonicalObjectBytes left = canonicalObjectBytes right) : left = right := by
  have htable : objectTable left = objectTable right := jsonObject_injective rfl (nodup_objectTable left)
    (canonicalJsonBytes_injective (frozen_objectTable left) (frozen_objectTable right) h)
  simp only [objectTable, List.cons.injEq, Prod.mk.injEq, Option.some.injEq, Json.arr.injEq, true_and,
    and_true] at htable
  exact map_inj_of_forall (fun a b => entryJson_inj) hleft hright htable

/-! ## Snapshots -/

/-- The members of an observed tree are hashed, as its snapshot checks. -/
def Observed.Bound (observed : Observed) : Prop :=
  ∀ directory, observed = .tree directory → ∃ digest, treeMembersDigest directory = .ok digest

theorem nodup_snapshotTable (path : String) (observed : Observed) :
    ((snapshotTable path observed).map Prod.fst).Nodup :=
  (by decide : ["path", "kind", "digest", "link_target", "target_exists"].Nodup)

theorem frozen_snapshotJson (path : String) (observed : Observed) : Frozen (snapshotJson path observed) := by
  refine FrozenFields.jsonObject ?_ (nodup_snapshotTable path observed)
  have hexists : Frozen observed.targetExists := by
    cases observed <;> simp [Observed.targetExists, frozen_null, frozen_bool]
  simp [FrozenFields, snapshotTable, frozen_str, frozen_nullable, hexists]

omit [StandardLibrary] in
theorem digest_str_injective : Function.Injective ObjectDigest.str := fun _ _ => digest_eq_of_str

/-- A snapshot shows the path and, up to collisions, everything that was observed there. -/
theorem snapshotJson_inj (hfree : CollisionFree) {p q : String} {a b : Observed} (ha : a.Bound) (hb : b.Bound)
    (h : snapshotJson p a = snapshotJson q b) : p = q ∧ a = b := by
  have htable : snapshotTable p a = snapshotTable q b := jsonObject_injective rfl (nodup_snapshotTable p a) h
  simp only [snapshotTable, List.cons.injEq, Prod.mk.injEq, Option.some.injEq, Json.str.injEq, true_and,
    and_true] at htable
  obtain ⟨hpath, hkind, hdigest, htarget, hexists⟩ := htable
  have hdigest := value_injective_map digest_str_injective hdigest
  have htarget := nullable_injective htarget
  refine ⟨hpath, ?_⟩
  cases a with
  | absent => cases b <;> first | rfl | exact absurd hkind (by simp [Observed.kind])
  | file content executable =>
      cases b with
      | file other bit =>
          obtain ⟨rfl, rfl⟩ := fileSnapshotDigest_injective hfree (Option.some.inj hdigest)
          rfl
      | absent => exact absurd hkind (by simp [Observed.kind])
      | tree directory => exact absurd hkind (by simp [Observed.kind])
      | symlink target targetExists => exact absurd hkind (by simp [Observed.kind])
      | special digest => exact absurd hkind (by simp [Observed.kind])
  | tree directory =>
      cases b with
      | tree other =>
          obtain ⟨digest, hleft⟩ := ha directory rfl
          obtain ⟨found, hright⟩ := hb other rfl
          simp only [Observed.digest?, hleft, hright, Except.toOption, Option.some.injEq] at hdigest
          rw [← hdigest] at hright
          rw [treeMembersDigest_injective hfree hleft hright]
      | absent => exact absurd hkind (by simp [Observed.kind])
      | file content executable => exact absurd hkind (by simp [Observed.kind])
      | symlink target targetExists => exact absurd hkind (by simp [Observed.kind])
      | special digest => exact absurd hkind (by simp [Observed.kind])
  | symlink target targetExists =>
      cases b with
      | symlink other otherExists =>
          obtain rfl := Option.some.inj htarget
          obtain rfl := Json.bool.inj hexists
          rfl
      | absent => exact absurd hkind (by simp [Observed.kind])
      | file content executable => exact absurd hkind (by simp [Observed.kind])
      | tree directory => exact absurd hkind (by simp [Observed.kind])
      | special digest => exact absurd hkind (by simp [Observed.kind])
  | special digest =>
      cases b with
      | special other => rw [Option.some.inj hdigest]
      | absent => exact absurd hkind (by simp [Observed.kind])
      | file content executable => exact absurd hkind (by simp [Observed.kind])
      | tree directory => exact absurd hkind (by simp [Observed.kind])
      | symlink target targetExists => exact absurd hkind (by simp [Observed.kind])

/-! ## Operations -/

theorem kind_mem_operationTable (operation : InstallOperation) :
    ("kind", some (.str operation.effectKind.value)) ∈ operationTable operation := by
  unfold operationTable actionTable
  cases haction : operation.action <;>
    simp [InstallOperation.effectKind, haction, EffectKind.value]

theorem nodup_operationTable (operation : InstallOperation) : ((operationTable operation).map Prod.fst).Nodup := by
  unfold operationTable actionTable
  cases operation.action with
  | copyTree sourcePath tree =>
      exact (by decide : ["kind", "source_path", "destination", "absolute_destination", "desired_digest",
        "precondition", "overwrote"].Nodup)
  | writeFile sourcePath content executable managedBlock restoresFrom =>
      exact (by decide : ["kind", "source_path", "restores_from", "destination", "absolute_destination",
        "desired_digest", "precondition", "overwrote"].Nodup)
  | link sourcePath target targetState semantics =>
      exact (by decide : ["kind", "source_path", "target", "target_kind", "semantics", "target_content_digest",
        "target_precondition", "destination", "absolute_destination", "desired_digest", "precondition",
        "overwrote"].Nodup)
  | mergeJson jsonPath mergeMode identity identityEvidence valueDigest content =>
      exact (by decide : ["kind", "json_path", "merge_mode", "identity", "identity_evidence", "value_digest",
        "identity_digest", "destination", "absolute_destination", "desired_digest", "precondition",
        "overwrote"].Nodup)

/-- The constructors of the parts of an operation bind its snapshots and freeze its evidence. -/
structure InstallOperation.Bound (operation : InstallOperation) : Prop where
  valid : operation.valid = true
  precondition : operation.precondition.Bound
  evidence : ∀ jsonPath mergeMode identity identityEvidence valueDigest content,
    operation.action = .mergeJson jsonPath mergeMode identity identityEvidence valueDigest content →
      Frozen identityEvidence

theorem bound_of_hashed {directory : DirectoryTree} (h : (treeMembersDigest directory).toBool = true) :
    ∃ digest, treeMembersDigest directory = .ok digest := by
  cases hdigest : treeMembersDigest directory with
  | error diagnostics =>
      rw [hdigest] at h
      exact absurd h (by simp [Except.toBool])
  | ok digest => exact ⟨digest, rfl⟩

theorem frozen_operationJson {operation : InstallOperation} (h : operation.Bound) : Frozen (operationJson operation) := by
  refine FrozenFields.jsonObject ?_ (nodup_operationTable operation)
  have hcommon : FrozenFields (commonTable operation) := by
    simp [FrozenFields, commonTable, frozen_str, frozen_bool, frozen_snapshotJson]
  have haction : FrozenFields (actionTable operation) := by
    unfold actionTable
    split
    · simp [FrozenFields, frozen_str]
    · simp [FrozenFields, frozen_str, frozen_nullable]
    · simp [FrozenFields, frozen_str, frozen_snapshotJson]
    · rename_i jsonPath mergeMode identity identityEvidence valueDigest content haction
      have hevidence := h.evidence _ _ _ _ _ _ haction
      have hidentity : Frozen (.arr (identity.map .str)) := frozen_array fun item hitem => by
        obtain ⟨text, _, rfl⟩ := List.mem_map.mp hitem
        exact frozen_str text
      simp [FrozenFields, frozen_str, hevidence, hidentity]
  intro field hfield
  rcases List.mem_append.mp hfield with hfield | hfield
  · exact haction field hfield
  · exact hcommon field hfield

variable {a b : InstallOperation}

/-- What all operations show alike. -/
theorem common_inj (hfree : CollisionFree) (ha : a.precondition.Bound)
    (hb : b.precondition.Bound) (h : commonTable a = commonTable b) :
    a.destination = b.destination ∧ a.absoluteDestination = b.absoluteDestination ∧
      a.desiredDigest = b.desiredDigest ∧ a.precondition = b.precondition ∧ a.overwrote = b.overwrote := by
  simp only [commonTable, List.cons.injEq, Prod.mk.injEq, Option.some.injEq, Json.str.injEq, Json.bool.injEq, true_and,
    and_true] at h
  obtain ⟨hdestination, habsolute, hdigest, hprecondition, hoverwrote⟩ := h
  exact ⟨hdestination, habsolute, digest_eq_of_str hdigest, (snapshotJson_inj hfree ha hb hprecondition).2, hoverwrote⟩

/-- Operations of one kind of effect write the same fields. -/
theorem names_operationTable (h : a.effectKind = b.effectKind) :
    (operationTable a).map Prod.fst = (operationTable b).map Prod.fst := by
  unfold operationTable actionTable
  unfold InstallOperation.effectKind at h
  cases ha : a.action <;> cases hb : b.action <;> simp only [ha, hb] at h ⊢ <;>
    first
    | rfl
    | (exfalso; split at h <;> simp at h)
    | (exfalso; split at h <;> split at h <;> simp at h)
    | (exfalso; simp at h)

omit [StandardLibrary] in
theorem identity_injective : Function.Injective (List.map Json.str) :=
  List.map_injective_iff.mpr fun _ _ => Json.str.inj

theorem bound_of_target {state : Observed} (h : (match state with
    | .file _ _ => true
    | .tree tree => (treeMembersDigest tree).toBool
    | _ => false) = true) : state.Bound := by
  rintro directory rfl
  exact bound_of_hashed h

/-- An action is determined by its fields and by the digest of what it leaves behind. -/
theorem action_inj (hfree : CollisionFree) (ha : a.Bound) (hb : b.Bound)
    (hkind : a.effectKind = b.effectKind) (hdigest : a.desiredDigest = b.desiredDigest)
    (h : actionTable a = actionTable b) : a.action = b.action := by
  have hvalid {operation : InstallOperation} (hop : operation.Bound) := hop.valid
  simp only [InstallOperation.valid, Bool.and_eq_true] at hvalid
  unfold actionTable at h
  unfold InstallOperation.desiredDigest at hdigest
  unfold InstallOperation.effectKind at hkind
  cases haction : a.action with
  | copyTree sourcePath tree =>
      cases hbction : b.action with
      | copyTree otherPath other =>
          have hleft := (hvalid ha).2
          have hright := (hvalid hb).2
          simp only [haction, hbction, Bool.and_eq_true] at h hdigest hleft hright
          obtain ⟨digest, hleft⟩ := bound_of_hashed hleft.2
          obtain ⟨found, hright⟩ := bound_of_hashed hright.2
          simp only [hleft, hright, Except.toOption, Option.getD_some] at hdigest
          rw [← hdigest] at hright
          simp only [List.cons.injEq, Prod.mk.injEq, Option.some.injEq, Json.str.injEq, true_and, and_true] at h
          rw [h, treeMembersDigest_injective hfree hleft hright]
      | writeFile _ _ _ _ _ => simp [haction, hbction] at h
      | link _ _ _ _ => simp [haction, hbction] at h
      | mergeJson _ _ _ _ _ _ => simp [haction, hbction] at h
  | writeFile sourcePath content executable managedBlock restoresFrom =>
      cases hbction : b.action with
      | writeFile otherPath other bit block restores =>
          simp only [haction, hbction, List.cons.injEq, Prod.mk.injEq, Option.some.injEq, Json.str.injEq, true_and,
            and_true] at h hdigest hkind
          obtain ⟨_, rfl, hrestores⟩ := h
          obtain ⟨rfl, rfl⟩ := fileSnapshotDigest_injective hfree hdigest
          have hblock : managedBlock = block := by
            cases managedBlock <;> cases block <;> simp_all
          rw [hblock, nullable_injective hrestores]
      | copyTree _ _ => simp [haction, hbction] at h
      | link _ _ _ _ => simp [haction, hbction] at h
      | mergeJson _ _ _ _ _ _ => simp [haction, hbction] at h
  | link sourcePath target targetState semantics =>
      cases hbction : b.action with
      | link otherPath other otherState otherSemantics =>
          have hleft := (hvalid ha).2
          have hright := (hvalid hb).2
          simp only [haction, hbction, List.cons.injEq, Prod.mk.injEq, Option.some.injEq, Json.str.injEq, true_and,
            and_true, Bool.and_eq_true] at h hleft hright
          obtain ⟨_, rfl, rfl, _, hsemantics, _, hsnapshot⟩ := h
          rw [(snapshotJson_inj hfree (bound_of_target hleft.2) (bound_of_target hright.2) hsnapshot).2,
            Manifest.linkSemanticsValue_injective hsemantics]
      | copyTree _ _ => simp [haction, hbction] at h
      | writeFile _ _ _ _ _ => simp [haction, hbction] at h
      | mergeJson _ _ _ _ _ _ => simp [haction, hbction] at h
  | mergeJson jsonPath mergeMode identity identityEvidence valueDigest content =>
      cases hbction : b.action with
      | mergeJson otherPath otherMode otherIdentity otherEvidence otherDigest other =>
          simp only [haction, hbction, List.cons.injEq, Prod.mk.injEq, Option.some.injEq, Json.str.injEq,
            Json.arr.injEq, true_and, and_true] at h hdigest
          obtain ⟨rfl, hmode, hidentity, rfl, hvalue, _⟩ := h
          obtain ⟨rfl, _⟩ := fileSnapshotDigest_injective hfree hdigest
          rw [Manifest.mergeModeValue_injective hmode, identity_injective hidentity, digest_eq_of_str hvalue]
      | copyTree _ _ => simp [haction, hbction] at h
      | writeFile _ _ _ _ _ => simp [haction, hbction] at h
      | link _ _ _ _ => simp [haction, hbction] at h

theorem operationJson_inj (hfree : CollisionFree) (ha : a.Bound) (hb : b.Bound)
    (h : operationJson a = operationJson b) : a = b := by
  have hkind : a.effectKind = b.effectKind := by
    have hfield := field_eq (nodup_operationTable a) (nodup_operationTable b) h (kind_mem_operationTable a)
      (kind_mem_operationTable b)
    exact Manifest.EffectKind.value_injective (Json.str.inj (Option.some.inj hfield))
  have htable : operationTable a = operationTable b :=
    jsonObject_injective (names_operationTable hkind) (nodup_operationTable a) h
  obtain ⟨haction, hcommon⟩ := List.append_inj' htable rfl
  obtain ⟨hdestination, habsolute, hdigest, hprecondition, hoverwrote⟩ :=
    common_inj hfree ha.precondition hb.precondition hcommon
  have hsame := action_inj hfree ha hb hkind hdigest haction
  cases a
  cases b
  simp_all

/-! ## Plans -/

omit [StandardLibrary] in
theorem trust_value_injective {a b : TrustClass} (h : a.value = b.value) : a = b := by
  cases a <;> cases b <;> first | rfl | exact absurd h (by decide)

theorem provenanceJson_inj {a b : Option InstallProvenance} (ha : ∀ provenance, a = some provenance → Canonical provenance.path)
    (hb : ∀ provenance, b = some provenance → Canonical provenance.path) (h : provenanceJson a = provenanceJson b) :
    a = b := by
  have hnodup (provenance : InstallProvenance) : ((provenanceTable provenance).map Prod.fst).Nodup :=
    (by decide : ["origin_url", "resolved_commit", "path"].Nodup)
  cases a with
  | none =>
      cases b with
      | none => rfl
      | some right => exact absurd h (by simp [provenanceJson, Manifest.jsonObject])
  | some left =>
      cases b with
      | none => exact absurd h (by simp [provenanceJson, Manifest.jsonObject])
      | some right =>
          have htable : provenanceTable left = provenanceTable right := jsonObject_injective rfl (hnodup left) h
          simp only [provenanceTable, List.cons.injEq, Prod.mk.injEq, Option.some.injEq, Json.str.injEq, true_and,
            and_true] at htable
          have hpath := path_eq_of_str (ha left rfl) (hb right rfl) htable.2.2
          cases left
          cases right
          simp_all

/-- The constructors of the parts of a plan, as far as its review relies on them. -/
structure InstallPlanData.PartsBound (plan : InstallPlanData) : Prop where
  candidate : plan.objectCandidate.digest = sha256Bytes (canonicalObjectBytes plan.objectCandidate.entries)
  candidatePaths : ∀ entry ∈ plan.objectCandidate.entries, Canonical entry.path
  provenance : ∀ provenance, plan.provenance = some provenance → Canonical provenance.path
  operations : ∀ operation ∈ plan.operations, operation.Bound
  statePrecondition : plan.statePrecondition.Bound
  evidence : Manifest.FrozenEvidence plan.replacementState

theorem nodup_planReviewTable (plan : InstallPlanData) : ((planReviewTable plan).map Prod.fst).Nodup :=
  (by decide : ["schema_version", "coordinate", "requested_identity", "requested_source", "requested_version", "profile",
    "profile_version", "platform", "scope", "mode", "force", "offline", "memory_mode", "mutable_local_payload_root",
    "source_alias", "source_id", "source_kind", "source_origin", "resolved_commit", "subscription_ref",
    "source_snapshot_digest", "artifact_version", "manifest_digest", "payload_digest", "object_digest",
    "object_store_root", "object_root", "provenance", "trust", "trust_evidence_digest", "policy_digest", "operations",
    "state_path", "state_lock_path", "state_precondition", "replacement_state_digest", "reference_owner"].Nodup)

theorem frozen_planReviewValue {plan : InstallPlanData} (h : plan.PartsBound) : Frozen (planReviewValue plan) := by
  refine FrozenFields.jsonObject ?_ (nodup_planReviewTable plan)
  have hoperations : Frozen (.arr (plan.operations.map operationJson)) := frozen_array fun item hitem => by
    obtain ⟨operation, hmem, rfl⟩ := List.mem_map.mp hitem
    exact frozen_operationJson (h.operations operation hmem)
  have hprovenance : Frozen (provenanceJson plan.provenance) := by
    cases plan.provenance with
    | none => exact frozen_null
    | some provenance =>
        refine FrozenFields.jsonObject ?_ (by decide : ["origin_url", "resolved_commit", "path"].Nodup)
        simp [FrozenFields, provenanceTable, frozen_str]
  simp [FrozenFields, planReviewTable, frozen_str, frozen_int, frozen_bool, frozen_nullable, frozen_snapshotJson,
    hoperations, hprovenance]

theorem coordinate_of_valid {plan : InstallPlanData} (h : plan.valid = true) :
    plan.coordinate = ⟨plan.source.sourceAlias, plan.artifact.identity, some plan.artifact.version⟩ ∧
      plan.artifact.objectDigest = plan.objectCandidate.digest := by
  simp only [InstallPlanData.valid, Bool.and_eq_true, beq_iff_eq] at h
  obtain ⟨⟨⟨⟨⟨⟨⟨⟨⟨⟨⟨⟨⟨⟨⟨⟨⟨_, _⟩, _⟩, hsource⟩, hartifact⟩, hversion⟩, hdigest⟩, _⟩, _⟩, _⟩, _⟩, _⟩, _⟩, _⟩, _⟩, _⟩,
    _⟩, _⟩ := h
  refine ⟨?_, hdigest⟩
  cases hcoordinate : plan.coordinate with
  | mk source artifact version =>
      rw [hcoordinate] at hsource hartifact hversion
      dsimp only at hsource hartifact hversion
      rw [hsource, hartifact, hversion]

omit [StandardLibrary] in
/-- The coordinate shows the identity, whose alias and version the review repeats. -/
theorem identity_of_coordinate {source : SourceAlias} {a b : ArtifactIdentity} {version : String}
    (h : (⟨source, a, some version⟩ : ArtifactCoordinate).str = (⟨source, b, some version⟩ : ArtifactCoordinate).str) :
    a = b := by
  simp only [ArtifactCoordinate.str, String.append_left_inj, String.append_right_inj] at h
  exact identity_str_injective h

/-- The fields of a review that show the request. -/
def requestFields (request : InstallRequest) : List Json :=
  [.str request.identity.str, nullable (request.source.map (·.value)), nullable request.version,
    .str request.profile.value, .int request.profileVersion, .str request.platform, .str request.scope.value,
    .str request.mode.value, .bool request.force, .bool request.offline, .str (Manifest.memoryModeValue request.memoryMode),
    nullable request.mutableLocalPayloadRoot]

omit [StandardLibrary] in
theorem requestFields_injective : Function.Injective requestFields := by
  intro a b h
  obtain ⟨identityA, sourceA, versionA, profileA, numberA, platformA, scopeA, modeA, forceA, offlineA, memoryA, rootA⟩ := a
  obtain ⟨identityB, sourceB, versionB, profileB, numberB, platformB, scopeB, modeB, forceB, offlineB, memoryB, rootB⟩ := b
  simp only [requestFields, List.cons.injEq, Json.str.injEq, Json.bool.injEq, Json.int.injEq, Int.ofNat_inj,
    and_true] at h
  obtain ⟨hidentity, hsource, hversion, hprofile, rfl, rfl, hscope, hmode, rfl, rfl, hmemory, hroot⟩ := h
  rw [identity_str_injective hidentity, value_injective_map (fun _ _ => slug_eq_of_value) hsource,
    nullable_injective hversion, slug_eq_of_value hprofile, InstallScope.value_injective hscope,
    Manifest.InstallMode.value_injective hmode, Manifest.memoryModeValue_injective hmemory, nullable_injective hroot]

/-- The fields of a review that show the source. -/
def sourceFields (source : SourceEvidence) : List Json :=
  [.str source.sourceAlias.value, .str source.declaredId.value, .str source.kind.value, .str source.origin,
    .str source.resolvedCommit, nullable source.subscriptionRef]

omit [StandardLibrary] in
theorem sourceFields_injective : Function.Injective sourceFields := by
  intro a b h
  obtain ⟨aliasA, idA, kindA, originA, commitA, refA⟩ := a
  obtain ⟨aliasB, idB, kindB, originB, commitB, refB⟩ := b
  simp only [sourceFields, List.cons.injEq, Json.str.injEq, and_true] at h
  obtain ⟨halias, hid, hkind, rfl, rfl, href⟩ := h
  rw [slug_eq_of_value halias, slug_eq_of_value hid, Manifest.SourceKind.value_injective hkind, nullable_injective href]

/-- The object of a plan is determined by its digest. -/
theorem candidate_eq [JsonRuntime] (hfree : CollisionFree) {p q : InstallPlanData} (hp : p.PartsBound)
    (hq : q.PartsBound) (h : p.objectCandidate.digest = q.objectCandidate.digest) :
    p.objectCandidate = q.objectCandidate := by
  have hdigests := h
  rw [hp.candidate, hq.candidate] at hdigests
  have hentries := canonicalObjectBytes_inj hp.candidatePaths hq.candidatePaths (sha256Bytes_injective hfree hdigests)
  cases hpc : p.objectCandidate
  cases hqc : q.objectCandidate
  simp_all

/-- Plans with one review digest differ at most in the health and the age of their source. -/
theorem reviewDigest_inj [JsonRuntime] (hfree : CollisionFree) {left right : InstallPlan}
    (hleft : left.PartsBound) (hright : right.PartsBound)
    (h : reviewDigest left.toInstallPlanData = reviewDigest right.toInstallPlanData) :
    { left.toInstallPlanData with
      sourceHealth := right.sourceHealth, sourceAgeSeconds := right.sourceAgeSeconds } = right.toInstallPlanData := by
  have htable : planReviewTable left.toInstallPlanData = planReviewTable right.toInstallPlanData :=
    jsonObject_injective rfl (nodup_planReviewTable _)
      (jsonDigest_injective hfree (frozen_planReviewValue hleft) (frozen_planReviewValue hright) h)
  obtain ⟨p, hp⟩ := left
  obtain ⟨q, hq⟩ := right
  simp only [planReviewTable, List.cons.injEq, Prod.mk.injEq, Option.some.injEq, Json.str.injEq, Json.bool.injEq,
    Json.int.injEq, Json.arr.injEq, Int.ofNat_inj, true_and, and_true] at htable
  obtain ⟨hcoordinate, hidentity, hsource, hversion, hprofile, hprofileVersion, hplatform, hscope, hmode, hforce, hoffline,
    hmemory, hroot, halias, hid, hkind, horigin, hcommit, href, hsnapshot, hartifactVersion, hmanifest, hpayload, hobject,
    hstore, hobjectRoot, hprovenance, htrust, htrustEvidence, hpolicy, hoperations, hstatePath, hlockPath,
    hprecondition, hreplacement, howner⟩ := htable
  have hrequest : p.request = q.request := requestFields_injective (by
    simp only [requestFields, hidentity, hsource, hversion, hprofile, hprofileVersion, hplatform, hscope, hmode, hforce,
      hoffline, hmemory, hroot])
  have hsourceEvidence : p.source = q.source := sourceFields_injective (by
    simp only [sourceFields, halias, hid, hkind, horigin, hcommit, href])
  have hcandidate := candidate_eq hfree hleft hright (digest_eq_of_str hobject)
  have hstate : p.replacementState = q.replacementState :=
    Manifest.installStateBytes_injective hleft.evidence hright.evidence
      (sha256Bytes_injective hfree (digest_eq_of_str hreplacement))
  have hoperationList : p.operations = q.operations :=
    map_inj_of_forall (fun _ _ => operationJson_inj hfree) hleft.operations hright.operations hoperations
  have hpreconditionState :=
    (snapshotJson_inj hfree hleft.statePrecondition hright.statePrecondition hprecondition).2
  have hprovenanceValue := provenanceJson_inj hleft.provenance hright.provenance hprovenance
  obtain ⟨hpCoordinate, hpObject⟩ := coordinate_of_valid hp
  obtain ⟨hqCoordinate, hqObject⟩ := coordinate_of_valid hq
  have hartifact : p.artifact = q.artifact := by
    rw [hpCoordinate, hqCoordinate, hsourceEvidence, hartifactVersion] at hcoordinate
    have hname := identity_of_coordinate hcoordinate
    have hobjectDigest : p.artifact.objectDigest = q.artifact.objectDigest := by
      rw [hpObject, hqObject, hcandidate]
    have hmanifestDigest := digest_eq_of_str hmanifest
    have hpayloadDigest := digest_eq_of_str hpayload
    cases hpa : p.artifact
    cases hqa : q.artifact
    simp_all only
  have hcoordinateValue : p.coordinate = q.coordinate := by
    rw [hpCoordinate, hqCoordinate, hsourceEvidence, hartifact]
  have hpaths : p.objectStorePaths = q.objectStorePaths := by
    cases hps : p.objectStorePaths
    cases hqs : q.objectStorePaths
    simp_all only
  cases p
  cases q
  simp only [InstallPlanData.mk.injEq, true_and]
  exact ⟨hrequest, hcoordinateValue, hsourceEvidence, digest_eq_of_str hsnapshot, hartifact, trust_value_injective htrust,
    digest_eq_of_str htrustEvidence, digest_eq_of_str hpolicy, hpaths, hcandidate, hobjectRoot, hprovenanceValue,
    hoperationList, hstatePath, hlockPath, hpreconditionState, hstate, howner⟩

end Encodings

/-! ## Two reviews of one plan -/

def consentEntries : List TreeMember := [.directory ⟨["payload"]⟩, .file ⟨["payload", "style.md"]⟩ [35] false]

def consentBytes : Bytes := @canonicalObjectBytes (pythonLibrary id fun _ => true) consentEntries

/-- A runtime whose hash exchanges the bytes of the reviewed object with two octets. -/
@[reducible] def reviewLibrary : StandardLibrary :=
  pythonLibrary (fun data => Equiv.swap consentBytes [0, 0] data) fun _ => true

section Sample

attribute [local instance] reviewLibrary

theorem reviewLibrary_collisionFree : CollisionFree := (Equiv.swap consentBytes [0, 0]).injective

def consentObject : ObjectCandidate := ⟨⟨"0000"⟩, consentEntries⟩

theorem consentObject_digest : consentObject.digest = sha256Bytes (canonicalObjectBytes consentObject.entries) := by
  have hbytes : canonicalObjectBytes consentObject.entries = consentBytes := rfl
  have hraw : StandardLibrary.sha256 consentBytes = [0, 0] := Equiv.swap_apply_left consentBytes [0, 0]
  rw [hbytes, sha256Bytes, hraw]
  rfl

def consentSource : SourceEvidence :=
  ⟨⟨"team", Eq.refl true⟩, ⟨"team", Eq.refl true⟩, .sourceLocal, "/srv/team", "local", none⟩

def consentArtifact : ArtifactEvidence :=
  ⟨⟨.guideline, ⟨"style", Eq.refl true⟩⟩, "1.0.0", ⟨"a1"⟩, ⟨"b2"⟩, ⟨"0000"⟩⟩

def consentOperation : InstallOperation where
  destination := ".claude/style.md"
  absoluteDestination := "/work/.claude/style.md"
  precondition := .absent
  overwrote := false
  action := .writeFile "payload/style.md" [35] false false none

def consentRecord : InstallationRecord where
  source := consentSource
  artifact := consentArtifact
  profile := ⟨"claude", Eq.refl true⟩
  profileVersion := 1
  scope := .project
  requestedMode := .copy
  effects := [proofOf consentOperation]

def consentState : InstallState :=
  ⟨[consentRecord], by simp, by simp [InstallationRecord.effectOwners, consentRecord]⟩

/-- The plan, reviewed while the source is in some health and of some age. -/
def consentData (health : HealthStatus) (age : Nat) : InstallPlanData where
  request := { identity := consentArtifact.identity, profile := consentRecord.profile }
  coordinate := ⟨consentSource.sourceAlias, consentArtifact.identity, some "1.0.0"⟩
  source := consentSource
  sourceHealth := health
  sourceAgeSeconds := age
  sourceSnapshotDigest := ⟨"d3"⟩
  artifact := consentArtifact
  trust := .localTrust
  trustEvidenceDigest := ⟨"e4"⟩
  policyDigest := ⟨"f5"⟩
  objectStorePaths := ⟨"/data"⟩
  objectCandidate := consentObject
  objectRoot := "/data/objects/sha256/00/00"
  provenance := none
  operations := [consentOperation]
  statePath := "/work/.agent-artifacts/manifest.json"
  stateLockPath := "/work/.agent-artifacts/state.lock"
  statePrecondition := .absent
  replacementState := consentState
  referenceOwner := "project/team/guideline/style/claude"

theorem consentData_matches (health : HealthStatus) (age : Nat) : (consentData health age).recordMatches = true := by
  have hrecord : (consentData health age).replacementRecord = some consentRecord := rfl
  unfold InstallPlanData.recordMatches
  rw [hrecord]
  simp [consentData, consentRecord, InstallRequest.recordedMemoryMode, effectMatchesOperation, consentOperation,
    consentArtifact]

theorem consentData_valid : (consentData .healthy 0).valid = true ∧ (consentData .stale 7).valid = true := by
  constructor
  · simp only [InstallPlanData.valid, consentData_matches, Bool.and_true]
    decide
  · simp only [InstallPlanData.valid, consentData_matches, Bool.and_true]
    decide

theorem consentData_partsBound (health : HealthStatus) (age : Nat) : (consentData health age).PartsBound where
  candidate := consentObject_digest
  candidatePaths := by
    intro entry hentry
    simp only [consentData, consentObject, consentEntries, List.mem_cons, List.not_mem_nil, or_false] at hentry
    rcases hentry with rfl | rfl
    · exact (by decide : parseRelativePath "payload" = .ok ⟨["payload"]⟩)
    · exact (by decide : parseRelativePath "payload/style.md" = .ok ⟨["payload", "style.md"]⟩)
  provenance := by simp [consentData]
  operations := by
    intro operation hoperation
    obtain rfl := List.mem_singleton.mp hoperation
    exact ⟨by decide, by simp [consentOperation, Observed.Bound], by simp [consentOperation]⟩
  statePrecondition := by simp [consentData, Observed.Bound]
  evidence := by
    intro record hrecord effect heffect
    obtain rfl := List.mem_singleton.mp hrecord
    obtain rfl := List.mem_singleton.mp heffect
    exact frozen_null

theorem consent_stands :
    { consentData .healthy 0 with sourceHealth := .stale, sourceAgeSeconds := 7 } = consentData .stale 7 :=
  @reviewDigest_inj reviewLibrary (pythonLibrary_jsonRuntime _ _) reviewLibrary_collisionFree
    ⟨consentData .healthy 0, consentData_valid.1⟩ ⟨consentData .stale 7, consentData_valid.2⟩
    (consentData_partsBound .healthy 0) (consentData_partsBound .stale 7) rfl

end Sample

end AgentArtifacts
