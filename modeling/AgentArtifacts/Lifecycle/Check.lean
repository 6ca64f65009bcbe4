import AgentArtifacts.Lifecycle.Prepare

/-!
# Checking and updating what was withdrawn

A check and an update look a recorded artifact up by scanning the catalog; a selection resolves
it. Without a tombstone at its coordinate all three agree on whether the artifact is gone.
-/

namespace AgentArtifacts

/-! ## The check -/

/-- No coordinates and no profiles select all of the scope. -/
structure LifecycleSelection where
  scope : InstallScope
  coordinates : List ArtifactCoordinate := []
  profiles : List Slug := []
deriving DecidableEq

def selectInstallations (state : InstallState) (selection : LifecycleSelection) : List InstallationRecord :=
  state.installations.filter fun record =>
    record.scope == selection.scope &&
      (selection.coordinates.isEmpty || selection.coordinates.contains record.coordinate) &&
      (selection.profiles.isEmpty || selection.profiles.contains record.profile)

structure LifecycleOutcome where
  action : String
  selected : Nat
  items : List LifecycleItem
deriving DecidableEq

/-- The catalog's artifact is the recorded one. -/
def sameArtifact (artifact : IndexArtifact) (record : InstallationRecord) : Bool :=
  artifact.version == record.artifact.version && artifact.manifestDigest == record.artifact.manifestDigest &&
    artifact.payloadDigest == record.artifact.payloadDigest && artifact.objectDigest == record.artifact.objectDigest

def checkItem (inputs : PlanningInputs) (record : InstallationRecord) : LifecycleItem :=
  let key := LifecycleKey.fromRecord record
  if !recordedSubscriptionCurrent inputs record then
    ⟨key, .sourceUnavailable, [], ⟨"recorded source unavailable", []⟩⟩
  else if recordedIdentityChanged inputs record then
    let declares := ((catalogSource inputs.catalog record.source.sourceAlias).bind (·.sourceId)).map (·.value)
    ⟨key, .identityChanged, [], ⟨"installed under " ++ record.source.declaredId.value ++ "; " ++
      record.source.sourceAlias.value ++ " now declares " ++ declares.getD "None", []⟩⟩
  else
    match currentItem inputs record with
    | none => ⟨key, .removedUpstream, [], ⟨"removed from recorded source", []⟩⟩
    | some item => ⟨key, if sameArtifact item.artifact record then .current else .updateAvailable, [], ⟨"", []⟩⟩

/-- `check_installations`. -/
def checkInstallations (state : InstallState) (selection : LifecycleSelection) (inputs : PlanningInputs) :
    LifecycleOutcome :=
  let items := (selectInstallations state selection).map (checkItem inputs)
  ⟨"check", items.length, items⟩

/-! ## Withdrawn artifacts -/

/-- The query for a recorded coordinate, which names no version. -/
def recordedQuery (record : InstallationRecord) : ArtifactQuery :=
  ⟨record.artifact.identity, some record.source.sourceAlias, none⟩

/-- The item is the catalog's record of the artifact, available or not. -/
def RecordsAt (record : InstallationRecord) (item : MarketplaceItem) : Prop :=
  item.source.sourceAlias = record.source.sourceAlias ∧ item.artifact.identity = record.artifact.identity

/-- The catalog holds a tombstone of the recorded artifact. -/
def Withdrawn (catalog : MarketplaceCatalog) (record : InstallationRecord) : Prop :=
  ∃ item ∈ catalog.items, RecordsAt record item ∧ item.lifecycle = .removed

/-- Resolution finds no available artifact for the record. -/
def NoneAvailable (catalog : MarketplaceCatalog) (record : InstallationRecord) : Prop :=
  ∀ offline item, resolveArtifact catalog (recordedQuery record) offline ≠ .ok item

variable {catalog : MarketplaceCatalog} {inputs : PlanningInputs} {record : InstallationRecord} {item other : MarketplaceItem}

theorem accepts_recordedQuery :
    (recordedQuery record).accepts item = true ↔ item.lifecycle = .available ∧ RecordsAt record item := by
  simp only [ArtifactQuery.accepts, recordedQuery, RecordsAt, Bool.and_eq_true, beq_iff_eq, and_true]
  constructor
  · rintro ⟨⟨hlifecycle, hidentity⟩, hsource⟩
    exact ⟨hlifecycle, hsource, hidentity⟩
  · rintro ⟨hlifecycle, hsource, hidentity⟩
    exact ⟨⟨hlifecycle, hidentity⟩, hsource⟩

theorem eq_of_recordsAt (hitem : item ∈ catalog.items) (hother : other ∈ catalog.items) (h : RecordsAt record item)
    (h' : RecordsAt record other) : item = other := by
  refine List.inj_on_of_nodup_map catalog.itemsQualified hitem hother ?_
  rw [h.1, h.2, h'.1, h'.2]

section Unique

variable {α : Type} {items : List α} {keep : α → Bool} {only : α}

theorem find?_unique (hmem : only ∈ items) (hkeep : keep only = true)
    (hunique : ∀ other ∈ items, keep other = true → other = only) : items.find? keep = some only := by
  cases hfound : items.find? keep with
  | none => exact absurd hkeep (List.find?_eq_none.mp hfound only hmem)
  | some other => rw [hunique other (List.mem_of_find?_eq_some hfound) (List.find?_some hfound)]

theorem filter_unique (hnodup : items.Nodup) (h : ∀ other, other ∈ items ∧ keep other = true ↔ other = only) :
    items.filter keep = [only] := by
  refine List.perm_singleton.mp ((List.perm_ext_iff_of_nodup (hnodup.filter _) (List.nodup_singleton _)).mpr ?_)
  simpa [List.mem_filter] using h

end Unique

/-- Resolution finds an available artifact exactly when the catalog holds one. -/
theorem noneAvailable_iff : NoneAvailable catalog record ↔
    ∀ item ∈ catalog.items, RecordsAt record item → item.lifecycle = .removed := by
  constructor
  · intro hnone item hitem hrecords
    cases hlifecycle : item.lifecycle with
    | removed => rfl
    | available =>
        refine absurd ?_ (hnone true item)
        have haccepts := accepts_recordedQuery.mpr ⟨hlifecycle, hrecords⟩
        have hfilter : catalog.items.filter (recordedQuery record).accepts = [item] := by
          refine filter_unique (List.Nodup.of_map _ catalog.itemsQualified) fun other => ?_
          constructor
          · rintro ⟨hother, hacc⟩
            exact eq_of_recordsAt hother hitem (accepts_recordedQuery.mp hacc).2 hrecords
          · rintro rfl
            exact ⟨hitem, haccepts⟩
        unfold resolveArtifact
        rw [hfilter]
  · intro hremoved offline item hresolved
    obtain ⟨hitem, haccepts⟩ := resolveArtifact_eq_ok hresolved
    obtain ⟨havailable, hrecords⟩ := accepts_recordedQuery.mp haccepts
    rw [hremoved item hitem hrecords] at havailable
    cases havailable

theorem currentItem_eq_none : currentItem inputs record = none ↔ ∀ item ∈ inputs.catalog.items, ¬ RecordsAt record item := by
  unfold currentItem
  rw [List.find?_eq_none]
  simp only [Bool.and_eq_true, beq_iff_eq]
  rfl

/-- Without a tombstone the scan finds what resolution finds. -/
theorem noneAvailable_iff_currentItem (hlive : ¬ Withdrawn inputs.catalog record) :
    NoneAvailable inputs.catalog record ↔ currentItem inputs record = none := by
  rw [noneAvailable_iff, currentItem_eq_none]
  constructor
  · intro hremoved item hitem hrecords
    exact hlive ⟨item, hitem, hrecords, hremoved item hitem hrecords⟩
  · intro hnone item hitem hrecords
    exact absurd hrecords (hnone item hitem)

theorem checkItem_removed_iff : (checkItem inputs record).status = .removedUpstream ↔
    recordedSubscriptionCurrent inputs record = true ∧ recordedIdentityChanged inputs record = false ∧
      currentItem inputs record = none := by
  unfold checkItem
  cases hcurrent : recordedSubscriptionCurrent inputs record with
  | false => simp
  | true =>
      cases hchanged : recordedIdentityChanged inputs record with
      | true => simp
      | false =>
          cases hitem : currentItem inputs record with
          | none => simp
          | some item =>
              have hstatus : (if sameArtifact item.artifact record = true then LifecycleStatus.current
                  else LifecycleStatus.updateAvailable) ≠ LifecycleStatus.removedUpstream := by
                split <;> simp
              simpa using hstatus

/-! ## The update -/

variable [StandardLibrary] [ManifestCodec]

/-- An update that ends with the artifact gone, or uninstalls it. -/
def UpdatePlan.TreatsAsRemoved (plan : UpdatePlan) : Prop :=
  match plan.choice with
  | .install _ => False
  | .uninstall _ => True
  | .terminal item => item.status = .removedUpstream

variable {updated : UpdatePlan}

theorem failedUpdate_not_removed {diagnostics : List Diagnostic}
    (h : failedUpdate record diagnostics = .ok updated) : ¬ updated.TreatsAsRemoved := by
  unfold failedUpdate at h
  split at h
  · cases h
  · cases h
    unfold UpdatePlan.TreatsAsRemoved terminalUpdate
    dsimp only
    split <;> simp

theorem retiredEffectUpdate_not_removed {install : InstallPlan}
    (h : retiredEffectUpdate record install = some updated) : ¬ updated.TreatsAsRemoved := by
  unfold retiredEffectUpdate at h
  split at h
  · cases h
    simp [UpdatePlan.TreatsAsRemoved, terminalUpdate]
  · split at h
    · cases h
    · cases h
      simp [UpdatePlan.TreatsAsRemoved, terminalUpdate]

theorem prunePlan_removed {ports : LifecycleReadPorts} {force : Bool}
    (h : prunePlan record inputs ports force = .ok updated) : updated.TreatsAsRemoved := by
  unfold prunePlan at h
  obtain ⟨state, _, h⟩ := Result.of_bind_ok h
  obtain ⟨uninstall, _, h⟩ := Result.of_bind_ok h
  cases h
  trivial

theorem prepareUpdate_removed_iff {ports : LifecycleReadPorts} {options : UpdateOptions}
    (h : prepareUpdate record inputs ports options = .ok updated) :
    updated.TreatsAsRemoved ↔ recordedSubscriptionCurrent inputs record = true ∧ currentItem inputs record = none := by
  unfold prepareUpdate at h
  split at h
  · cases h
  · cases hcurrent : recordedSubscriptionCurrent inputs record with
    | false =>
        rw [hcurrent] at h
        cases h
        simp [UpdatePlan.TreatsAsRemoved, terminalUpdate]
    | true =>
        rw [hcurrent, if_neg (by simp)] at h
        split at h
        · rename_i hnone
          rw [hnone]
          refine iff_of_true ?_ ⟨rfl, rfl⟩
          split at h
          · exact prunePlan_removed h
          · cases h
            rfl
        · rename_i item hitem
          rw [hitem]
          refine iff_of_false ?_ (fun hboth => Option.some_ne_none item hboth.2)
          split at h
          · exact failedUpdate_not_removed h
          · split at h
            · rename_i refused hrefused
              cases h
              exact retiredEffectUpdate_not_removed hrefused
            · cases h
              exact id

/-- Where the catalog holds no tombstone of the artifact, a check reports it as removed exactly when
its subscription and identity stand and resolution finds nothing, and so does an update, which a
changed identity does not stop. -/
theorem removedUpstream_agrees (hlive : ¬ Withdrawn inputs.catalog record) (state : InstallState)
    (selection : LifecycleSelection) (ports : LifecycleReadPorts) (options : UpdateOptions) :
    (checkInstallations state selection inputs).items = (selectInstallations state selection).map (checkItem inputs) ∧
      ((checkItem inputs record).status = .removedUpstream ↔
        recordedSubscriptionCurrent inputs record = true ∧ recordedIdentityChanged inputs record = false ∧
          NoneAvailable inputs.catalog record) ∧
      ∀ updated, prepareUpdate record inputs ports options = .ok updated →
        (updated.TreatsAsRemoved ↔
          recordedSubscriptionCurrent inputs record = true ∧ NoneAvailable inputs.catalog record) := by
  refine ⟨rfl, ?_, ?_⟩
  · rw [noneAvailable_iff_currentItem hlive]
    exact checkItem_removed_iff
  · intro updated h
    rw [noneAvailable_iff_currentItem hlive]
    exact prepareUpdate_removed_iff h

end AgentArtifacts
