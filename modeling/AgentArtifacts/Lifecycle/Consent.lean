import AgentArtifacts.Installation.Consent
import AgentArtifacts.Lifecycle.Atomicity
import AgentArtifacts.Lifecycle.Removal
import AgentArtifacts.Store.ReferenceDocuments

/-!
# What an uninstall review binds

The reviewed value of an uninstall and its digest. The digest determines everything
the removal writes or removes, from the observed manifest to the index of
references. What is reclaimed afterwards is computed from these and the roots of the
scope, and is not part of the value.
-/

namespace AgentArtifacts

open Manifest (Fields jsonObject jsonObject_injective digest_eq_of_str frozen_str frozen_array)

section Review

variable [StandardLibrary]

/-! ## The index of references -/

/-- `bytes.decode` of bytes that a writer of the protocol gave. -/
def decodedText (data : Bytes) : String := (decodeUtf8 data).getD ""

def ObjectStorePaths.referencesFile (paths : ObjectStorePaths) : String :=
  joinPath (joinPath paths.root "state") "object-references.json"

/-! ## The reviewed value -/

def Mutation.text : Mutation → String
  | .none => "none"
  | .remove => "remove"
  | .write _ => "write"

def Mutation.replacementContent : Mutation → Bytes
  | .write content => content
  | _ => []

def uninstallOperationTable (operation : UninstallOperation) : Fields :=
  [("destination", some (.str operation.absoluteDestination)), ("effect_kind", some (.str operation.effect.kind.value)),
    ("mutation", some (.str operation.mutation.text)),
    ("precondition", some (snapshotJson operation.absoluteDestination operation.precondition)),
    ("replacement_digest", some (.str (sha256Bytes operation.mutation.replacementContent).str))]

def uninstallOperationJson (operation : UninstallOperation) : Json := jsonObject (uninstallOperationTable operation)

variable [ManifestCodec]

/-- The manifest of one record alone, as a text. -/
def recordText (record : InstallationRecord) : String :=
  match InstallState.make [record] with
  | .ok state => decodedText (installStateBytes state)
  | .error _ => ""

def uninstallReviewTable (plan : UninstallPlanData) : Fields :=
  [("action", some (.str "uninstall")), ("force", some (.bool plan.force)), ("record", some (.str (recordText plan.record))),
    ("state_path", some (.str plan.statePath)), ("state_lock_path", some (.str plan.stateLockPath)),
    ("state_precondition", some (snapshotJson plan.statePath plan.statePrecondition)),
    ("replacement_state_digest", some (.str (sha256Bytes (installStateBytes plan.replacementState)).str)),
    ("reference_owner", some (.str plan.referenceOwner)), ("object_store_root", some (.str plan.objectStorePaths.root)),
    ("references_file", some (.str plan.objectStorePaths.referencesFile)),
    ("reference_precondition", some (.str (decodedText (referenceIndexBytes plan.referencePrecondition)))),
    ("reference_replacement", some (.str (decodedText (referenceIndexBytes plan.referenceReplacement)))),
    ("operations", some (.arr (plan.operations.map uninstallOperationJson))),
    ("terminal", some (nullable (plan.terminal.map (·.value)))), ("detail", some (.str plan.detail))]

def uninstallReviewValue (plan : UninstallPlanData) : Json := jsonObject (uninstallReviewTable plan)

/-- The constructor sets the digest of every plan it accepts to this one. -/
def uninstallReviewDigest (plan : UninstallPlanData) : ObjectDigest :=
  sha256Bytes (canonicalJsonBytes (uninstallReviewValue plan))

end Review

/-! ## The index is bound -/

theorem referenceKind_value_injective {a b : ReferenceKind} (h : a.value = b.value) : a = b := by
  cases a <;> cases b <;> first | rfl | exact absurd h (by decide)

theorem lifecycleStatus_value_injective : Function.Injective LifecycleStatus.value := by
  intro a b h
  cases a <;> cases b <;> first | rfl | exact absurd h (by decide)

theorem reference_eq_of_written {a b : ObjectReference}
    (h : jsonObject (referenceTable a) = jsonObject (referenceTable b)) : a = b := by
  have htable : referenceTable a = referenceTable b := jsonObject_injective rfl (nodup_referenceTable a) h
  obtain ⟨kind, owner, digest⟩ := a
  obtain ⟨otherKind, otherOwner, otherDigest⟩ := b
  simp only [referenceTable, List.cons.injEq, Prod.mk.injEq, Option.some.injEq, Json.str.injEq, true_and,
    and_true] at htable
  rw [digest_eq_of_str htable.1, referenceKind_value_injective htable.2.1, htable.2.2]

theorem frozen_referenceIndexTable (index : ReferenceIndex) : Frozen (jsonObject (referenceIndexTable index)) := by
  refine FrozenFields.jsonObject ?_ (nodup_referenceIndexTable index)
  have hreferences : Frozen (.arr (index.references.map fun reference => jsonObject (referenceTable reference))) := by
    refine frozen_array fun item hitem => ?_
    obtain ⟨reference, _, rfl⟩ := List.mem_map.mp hitem
    exact FrozenFields.jsonObject (by simp [FrozenFields, referenceTable, frozen_str]) (nodup_referenceTable reference)
  simp [FrozenFields, referenceIndexTable, frozen_int, hreferences]

section Bound

variable [StandardLibrary] [JsonRuntime]

omit [JsonRuntime] in
theorem decodedText_canonical {value other : Json}
    (h : decodedText (canonicalJsonBytes value) = decodedText (canonicalJsonBytes other)) :
    canonicalJsonBytes value = canonicalJsonBytes other := by
  unfold decodedText canonicalJsonBytes at h
  rw [decodeUtf8_encodeUtf8, decodeUtf8_encodeUtf8, Option.getD_some, Option.getD_some] at h
  unfold canonicalJsonBytes
  rw [h]

theorem index_eq_of_written {a b : ReferenceIndex}
    (h : decodedText (referenceIndexBytes a) = decodedText (referenceIndexBytes b)) : a = b := by
  have hvalue := canonicalJsonBytes_injective (frozen_referenceIndexTable a) (frozen_referenceIndexTable b)
    (decodedText_canonical h)
  have htable : referenceIndexTable a = referenceIndexTable b :=
    jsonObject_injective rfl (nodup_referenceIndexTable a) hvalue
  simp only [referenceIndexTable, List.cons.injEq, Prod.mk.injEq, Option.some.injEq, Json.arr.injEq, true_and,
    and_true] at htable
  have hreferences := List.map_injective_iff.mpr (fun _ _ => reference_eq_of_written) htable
  cases a
  cases b
  simpa using hreferences

/-! ## The operations are bound -/

omit [JsonRuntime] in
theorem nodup_uninstallOperationTable (operation : UninstallOperation) :
    ((uninstallOperationTable operation).map Prod.fst).Nodup :=
  (by decide : ["destination", "effect_kind", "mutation", "precondition", "replacement_digest"].Nodup)

omit [JsonRuntime] in
theorem frozen_uninstallOperationJson (operation : UninstallOperation) : Frozen (uninstallOperationJson operation) := by
  refine FrozenFields.jsonObject ?_ (nodup_uninstallOperationTable operation)
  simp [FrozenFields, uninstallOperationTable, frozen_str, frozen_snapshotJson]

/-- What an operation shows, beside the effect it removes. -/
def UninstallOperation.shown (operation : UninstallOperation) : String × Observed × Mutation :=
  (operation.absoluteDestination, operation.precondition, operation.mutation)

omit [JsonRuntime] in
theorem mutation_inj (hfree : CollisionFree) {a b : Mutation} (htext : a.text = b.text)
    (hdigest : (sha256Bytes a.replacementContent).str = (sha256Bytes b.replacementContent).str) : a = b := by
  have hcontent := sha256Bytes_injective hfree (digest_eq_of_str hdigest)
  cases a <;> cases b <;> first | rfl | exact congrArg Mutation.write hcontent | simp [Mutation.text] at htext

omit [JsonRuntime] in
theorem shown_inj (hfree : CollisionFree) {a b : UninstallOperation} (ha : a.precondition.Bound)
    (hb : b.precondition.Bound) (h : uninstallOperationJson a = uninstallOperationJson b) : a.shown = b.shown := by
  have htable : uninstallOperationTable a = uninstallOperationTable b :=
    jsonObject_injective rfl (nodup_uninstallOperationTable a) h
  simp only [uninstallOperationTable, List.cons.injEq, Prod.mk.injEq, Option.some.injEq, Json.str.injEq, true_and,
    and_true] at htable
  obtain ⟨_, _, htext, hprecondition, hdigest⟩ := htable
  obtain ⟨hdestination, hobserved⟩ := snapshotJson_inj hfree ha hb hprecondition
  rw [UninstallOperation.shown, hdestination, hobserved, mutation_inj hfree htext hdigest]
  rfl

omit [JsonRuntime] in
theorem map_shown_inj (hfree : CollisionFree) {left right : List UninstallOperation}
    (hleft : ∀ operation ∈ left, operation.precondition.Bound)
    (hright : ∀ operation ∈ right, operation.precondition.Bound)
    (h : left.map uninstallOperationJson = right.map uninstallOperationJson) :
    left.map UninstallOperation.shown = right.map UninstallOperation.shown := by
  induction left generalizing right with
  | nil => rw [List.map_eq_nil_iff.mp h.symm]
  | cons a as ih =>
      cases right with
      | nil => exact absurd h (by simp)
      | cons b bs =>
          simp only [List.map_cons, List.cons.injEq] at h ⊢
          simp only [List.forall_mem_cons] at hleft hright
          exact ⟨shown_inj hfree hleft.1 hright.1 h.1, ih hleft.2 hright.2 h.2⟩

omit [StandardLibrary] [JsonRuntime] in
/-- Operations are the effects they remove, taken in order, with what the review shows of them. -/
theorem operations_eq {left right : List UninstallOperation}
    (heffects : left.map (·.effect) = right.map (·.effect))
    (hshown : left.map UninstallOperation.shown = right.map UninstallOperation.shown) : left = right := by
  have hpair : Function.Injective fun operation : UninstallOperation => (operation.effect, operation.shown) := by
    intro a b h
    cases a
    cases b
    simp_all [UninstallOperation.shown]
  refine List.map_injective_iff.mpr hpair ?_
  have hzip (operations : List UninstallOperation) :
      operations.map (fun operation => (operation.effect, operation.shown)) =
        (operations.map (·.effect)).zip (operations.map UninstallOperation.shown) :=
    List.zip_map'.symm
  rw [hzip, hzip, heffects, hshown]

end Bound

/-! ## The plan is bound -/

section Plans

variable [StandardLibrary] [ManifestCodec]

/-- The snapshots of the operations are as their constructor checks them. -/
def UninstallPlanData.PartsBound (plan : UninstallPlanData) : Prop :=
  ∀ operation ∈ plan.operations, operation.precondition.Bound

theorem nodup_uninstallReviewTable (plan : UninstallPlanData) : ((uninstallReviewTable plan).map Prod.fst).Nodup :=
  (by decide : ["action", "force", "record", "state_path", "state_lock_path", "state_precondition",
    "replacement_state_digest", "reference_owner", "object_store_root", "references_file", "reference_precondition",
    "reference_replacement", "operations", "terminal", "detail"].Nodup)

theorem frozen_uninstallReviewValue (plan : UninstallPlanData) : Frozen (uninstallReviewValue plan) := by
  refine FrozenFields.jsonObject ?_ (nodup_uninstallReviewTable plan)
  have hoperations : Frozen (.arr (plan.operations.map uninstallOperationJson)) := frozen_array fun item hitem => by
    obtain ⟨operation, _, rfl⟩ := List.mem_map.mp hitem
    exact frozen_uninstallOperationJson operation
  simp [FrozenFields, uninstallReviewTable, frozen_str, frozen_bool, frozen_nullable, frozen_snapshotJson, hoperations]

omit [StandardLibrary] in
/-- A plan removes the effects of its record one by one, or nothing. -/
theorem UninstallPlan.effects_eq (plan : UninstallPlan) :
    plan.operations.map (·.effect) = if plan.terminal.isNone then plan.record.effects else [] := by
  have h := plan.accepted
  simp only [UninstallPlanData.valid, Bool.and_eq_true] at h
  have hoperations := h.1.1.2
  split at hoperations
  · rename_i hnone
    rw [if_pos hnone]
    exact beq_iff_eq.mp hoperations
  · rename_i hsome
    rw [if_neg hsome, List.isEmpty_iff.mp hoperations]
    rfl

omit [StandardLibrary] in
/-- The record of a plan is the one the observed manifest holds under its owner. -/
theorem record_eq_of_owner {left right : UninstallPlan} (hstate : left.statePrecondition = right.statePrecondition)
    (howner : left.referenceOwner = right.referenceOwner) : left.record = right.record := by
  obtain ⟨content, executable, current, hleft, hparsed, hmem, _⟩ := left.replacementState_spec
  obtain ⟨other, bit, state, hright, hreparsed, hothermem, _⟩ := right.replacementState_spec
  rw [hleft, hright, Observed.file.injEq] at hstate
  rw [hstate.1, hreparsed] at hparsed
  obtain rfl := Except.ok.inj hparsed
  exact state.eq_of_key_eq hmem hothermem (key_eq_of_referenceOwner_eq howner)

theorem UninstallPlan.statePrecondition_bound (plan : UninstallPlan) :
    plan.statePrecondition.Bound := by
  obtain ⟨content, executable, _, hfile, _⟩ := plan.replacementState_spec
  rw [hfile]
  intro directory h
  exact absurd h (by simp)

omit [StandardLibrary] in
theorem UninstallPlan.replacementState_eq {left right : UninstallPlan}
    (hstate : left.statePrecondition = right.statePrecondition) (hrecord : left.record = right.record) :
    left.replacementState = right.replacementState := by
  have hexpected : left.expectedState = right.expectedState := by
    unfold UninstallPlanData.expectedState
    rw [hstate, hrecord]
  rw [left.expectedState_eq, right.expectedState_eq] at hexpected
  exact Option.some.inj hexpected

omit [StandardLibrary] in
/-- Where a plan has a teardown, all but its directories follows from the rest of the plan. -/
theorem UninstallPlan.teardown_eq (plan : UninstallPlan) {teardown : ScopeTeardown} (h : plan.teardown = some teardown) :
    { teardown with directories := [] } =
      (⟨plan.statePath, plan.stateLockPath, dirName plan.statePath, [],
        plan.replacementState.installations.isEmpty⟩ : ScopeTeardown) := by
  have haccepted := plan.accepted
  simp only [UninstallPlanData.valid, Bool.and_eq_true, UninstallPlanData.teardownMatches, h, beq_iff_eq] at haccepted
  obtain ⟨⟨⟨⟨hvalid, _⟩, hpath⟩, hlock⟩, hreclaims⟩ := haccepted.2
  simp only [ScopeTeardown.valid, Bool.and_eq_true, beq_iff_eq] at hvalid
  obtain ⟨⟨⟨⟨_, hroot⟩, _⟩, _⟩, _⟩ := hvalid
  rw [hpath] at hroot
  rw [hpath, hlock, hroot, hreclaims]

/-- The teardown that the preparation of an uninstall computes for a plan at a location. -/
def UninstallPlanData.teardownAt (plan : UninstallPlanData) (location : InstallLocation) : Option ScopeTeardown :=
  if plan.terminal.isSome then none
  else
    (scopeTeardown plan.record plan.operations plan.statePath plan.stateLockPath location
      plan.replacementState.installations.isEmpty).toOption

/-- Plans with one review digest do the same and differ at most in their teardown: whether
there is one, and which directories it names. The teardowns computed at a location agree. -/
theorem uninstallReviewDigest_inj [JsonRuntime] (hfree : CollisionFree) {left right : UninstallPlan}
    (hleft : left.PartsBound) (hright : right.PartsBound)
    (h : uninstallReviewDigest left.toUninstallPlanData = uninstallReviewDigest right.toUninstallPlanData) :
    { left.toUninstallPlanData with teardown := right.teardown } = right.toUninstallPlanData ∧
      (∀ a b, left.teardown = some a → right.teardown = some b →
        { a with directories := b.directories } = b) ∧
      ∀ location, left.teardownAt location = right.teardownAt location := by
  have htable : uninstallReviewTable left.toUninstallPlanData = uninstallReviewTable right.toUninstallPlanData :=
    jsonObject_injective rfl (nodup_uninstallReviewTable _)
      (jsonDigest_injective hfree (frozen_uninstallReviewValue _) (frozen_uninstallReviewValue _) h)
  simp only [uninstallReviewTable, List.cons.injEq, Prod.mk.injEq, Option.some.injEq, Json.str.injEq, Json.bool.injEq,
    Json.arr.injEq, true_and, and_true] at htable
  obtain ⟨hforce, _, hstatePath, hlockPath, hprecondition, _, howner, hstore, _, hreferences, _, hoperations,
    hterminal, hdetail⟩ := htable
  have hstate := (snapshotJson_inj hfree left.statePrecondition_bound right.statePrecondition_bound hprecondition).2
  have hrecord := record_eq_of_owner hstate howner
  have hreplacement := UninstallPlan.replacementState_eq hstate hrecord
  have hindex := index_eq_of_written hreferences
  have hterminal := value_injective_map lifecycleStatus_value_injective hterminal
  have hpaths : left.objectStorePaths = right.objectStorePaths := by
    cases hl : left.objectStorePaths
    cases hr : right.objectStorePaths
    simp_all only
  have hoperationList : left.operations = right.operations := by
    refine operations_eq ?_ ?_
    · rw [left.effects_eq, right.effects_eq, hterminal, hrecord]
    · exact map_shown_inj hfree hleft hright hoperations
  have hplan : { left.toUninstallPlanData with teardown := right.teardown } = right.toUninstallPlanData := by
    obtain ⟨p, hp⟩ := left
    obtain ⟨q, hq⟩ := right
    cases p
    cases q
    simp only [UninstallPlanData.mk.injEq, and_true]
    exact ⟨hrecord, hforce, hoperationList, hstatePath, hlockPath, hstate, hreplacement, hpaths, hindex, hterminal, hdetail⟩
  refine ⟨hplan, ?_, ?_⟩
  · intro a b ha hb
    have hsame := left.teardown_eq ha
    rw [hstatePath, hlockPath, hreplacement, ← right.teardown_eq hb] at hsame
    cases a
    cases b
    simp_all
  · intro location
    unfold UninstallPlanData.teardownAt
    rw [hterminal, hrecord, hoperationList, hstatePath, hlockPath, hreplacement]

end Plans

/-! ## Two teardowns of one plan -/

section Sample

local instance : StandardLibrary := pythonLibrary id fun _ => true

local instance : ManifestCodec := tableCodec [sampleState, sharedState, emptyState]

/-- The reviewed removal, with the directories it reclaims. -/
def reclaimingData (directories : List String) : UninstallPlanData :=
  { sampleUninstallData with
    teardown := some ⟨"/work/.agent-artifacts/manifest.json", "/work/.agent-artifacts/state.lock",
      "/work/.agent-artifacts", directories, true⟩ }

def reclaimingNothing : UninstallPlan := ⟨reclaimingData [], by decide⟩

def reclaimingDrafts : UninstallPlan := ⟨reclaimingData ["/work/drafts"], by decide⟩

theorem reclaimingData_partsBound (directories : List String) : (reclaimingData directories).PartsBound := by
  intro operation hoperation
  obtain rfl := List.mem_singleton.mp hoperation
  intro directory h
  exact absurd h (by simp [sampleRemoval])

theorem plainHash_collisionFree : CollisionFree := fun _ _ => id

/-- The digest does not tell which directories are reclaimed. -/
theorem uninstallReviewDigest_not_inj :
    CollisionFree ∧ ¬ ∀ left right : UninstallPlan, left.PartsBound → right.PartsBound →
      uninstallReviewDigest left.toUninstallPlanData = uninstallReviewDigest right.toUninstallPlanData →
        left.toUninstallPlanData = right.toUninstallPlanData := by
  refine ⟨plainHash_collisionFree, fun h => ?_⟩
  have hsame : reclaimingData [] = reclaimingData ["/work/drafts"] :=
    h reclaimingNothing reclaimingDrafts (reclaimingData_partsBound _) (reclaimingData_partsBound _) rfl
  exact absurd hsame (by decide)

theorem reclaiming_plans_agree :
    { reclaimingData [] with teardown := reclaimingDrafts.teardown } = reclaimingData ["/work/drafts"] ∧
      (∀ a b, reclaimingNothing.teardown = some a → reclaimingDrafts.teardown = some b →
        { a with directories := b.directories } = b) ∧
      ∀ location, reclaimingNothing.teardownAt location = reclaimingDrafts.teardownAt location :=
  @uninstallReviewDigest_inj _ _ (pythonLibrary_jsonRuntime _ _) plainHash_collisionFree reclaimingNothing
    reclaimingDrafts (reclaimingData_partsBound _) (reclaimingData_partsBound _) rfl

end Sample

end AgentArtifacts
