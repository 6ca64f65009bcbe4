import AgentArtifacts.InstallState.ManifestParts

/-!
# What the parser reads of a written manifest

A state is readable if its constructors accept it, its source paths are lines of
text and its document fits the bounds of the reader. A readable state is read back
from its bytes, and every state that is read is readable.
-/

namespace AgentArtifacts.Manifest

variable [StandardLibrary]

/-- The constructors accept every part, and the records are in their order. -/
structure StateAccepted (services : PlanningServices) (state : InstallState) : Prop where
  records : ∀ record ∈ state.installations, RecordAccepted services record
  ordered : sortRecords state.installations = state.installations

structure Readable (services : PlanningServices) (state : InstallState) : Prop where
  accepted : StateAccepted services state
  plain : ∀ record ∈ state.installations, ∀ effect ∈ record.effects, PlainSourcePath effect
  fits : Fits 0 (installStateToJson state)


/-! ## Parts that were written -/

omit [StandardLibrary] in
theorem parseSource_written {services : PlanningServices} {source : SourceEvidence}
    (h : source.check services = .ok ()) :
    parseSource services (jsonObject (sourceTable source)) = .ok source := by
  refine parseSource_eq_ok.mpr ⟨h, _, objectFields_jsonObject ?_ ?_, holds_written (nodup_sourceTable source)⟩
  · simp [sourceFields, sourceTable]
  · simp [sourceFields, sourceTable]

omit [StandardLibrary] in
theorem parseArtifact_written {artifact : ArtifactEvidence} (h : ArtifactAccepted artifact) :
    parseArtifact (jsonObject (artifactTable artifact)) = .ok artifact := by
  refine parseArtifact_eq_ok.mpr ⟨h, _, objectFields_jsonObject ?_ ?_, holds_written (nodup_artifactTable artifact)⟩
  · simp [artifactFields, artifactTable]
  · simp [artifactFields, artifactTable]

theorem parseEffect_written {effect : EffectProof} (h : EffectAccepted effect) (hplain : PlainSourcePath effect) :
    parseEffect (effectJson effect) = .ok effect := by
  have hholds := holds_written (nodup_effectTable effect)
  have hfield {name : String} {content : Option Json} (hmem : (name, content) ∈ effectTable effect) :=
    hholds (name, content) hmem
  refine parseEffect_eq_ok.mpr ⟨h, hplain, _, objectFields_jsonObject ?_ ?_, fun field hmem => ?_, ?_,
    ⟨some effect.createdDestination, hfield (by simp [effectTable]), rfl⟩,
    ⟨some effect.overwrote, hfield (by simp [effectTable]), rfl⟩⟩
  · simp [effectFields, effectTable]
  · simp [effectFields, optionalEffectFields, effectTable]
  · refine hholds field ?_
    simp only [effectTexts, List.mem_cons, List.not_mem_nil, or_false] at hmem
    simp only [effectTable, List.mem_cons, List.not_mem_nil, or_false]
    tauto
  · have hevidence : Dict.get? (sortEntries (present (effectTable effect))) "identity_evidence" =
        if effect.identityEvidence = .null then none else some effect.identityEvidence :=
      hholds ("identity_evidence", if effect.identityEvidence = .null then none else some effect.identityEvidence)
        (by simp [effectTable])
    rw [hevidence]
    split
    · rename_i hnull
      rw [hnull]
      rfl
    · rfl

theorem parseRecord_written {services : PlanningServices} {record : InstallationRecord}
    (h : RecordAccepted services record) (hplain : ∀ effect ∈ record.effects, PlainSourcePath effect) :
    parseRecord services (recordJson record) = .ok record := by
  have hholds := holds_written (nodup_recordTable record)
  have hfield {name : String} {content : Option Json} (hmem : (name, content) ∈ recordTable record) :=
    hholds (name, content) hmem
  have heffects : (record.effects.map effectJson).mapM parseEffect = .ok record.effects :=
    mapM_written fun effect heffect => parseEffect_written (h.effects effect heffect).1 (hplain effect heffect)
  refine parseRecord_eq_ok.mpr ⟨h.check, h.setupStateRef, _, _, _, _, objectFields_jsonObject ?_ ?_,
    fun field hmem => ?_, hfield (by simp [recordTable]), parseSource_written h.source,
    hfield (by simp [recordTable]), parseArtifact_written h.artifact, hfield (by simp [recordTable]), heffects⟩
  · simp [recordFields, recordTable]
  · simp [recordFields, recordTable]
  · refine hholds field ?_
    simp only [recordTexts, List.mem_cons, List.not_mem_nil, or_false] at hmem
    simp only [recordTable, List.mem_cons, List.not_mem_nil, or_false]
    tauto

/-! ## Documents that were written -/

omit [StandardLibrary] in
theorem make_of_ordered {state : InstallState} (h : sortRecords state.installations = state.installations) :
    InstallState.make state.installations = .ok state := by
  unfold InstallState.make
  simp only [h, state.keysUnique, state.ownersUnique, dite_true]

theorem parseV2_written {services : PlanningServices} {state : InstallState} (h : StateAccepted services state)
    (hplain : ∀ record ∈ state.installations, ∀ effect ∈ record.effects, PlainSourcePath effect) :
    parseV2InstallState services (installStateToJson state) = .ok state := by
  have hholds := holds_written (nodup_stateTable state)
  have hrecords : (state.installations.map recordJson).mapM (parseRecord services) = .ok state.installations :=
    mapM_written fun record hrecord => parseRecord_written (h.records record hrecord) (hplain record hrecord)
  have hfields : objectFields ["schema_version", "installations"] [] (installStateToJson state) = .ok _ :=
    objectFields_jsonObject (by simp [stateTable]) (by simp [stateTable])
  have hversion := ((decodes_integer "schema_version").required (by simp)).mpr
    ⟨hholds ("schema_version", some (.int 2)) (by simp [stateTable]), trivial⟩
  have hitems := ((decodes_array "installations must be an array").required (by simp)).mpr
    ⟨hholds ("installations", some (.arr (state.installations.map recordJson))) (by simp [stateTable]), trivial⟩
  simp only [parseV2InstallState, hfields, bind, Except.bind, hversion, hitems, hrecords, make_of_ordered h.ordered]
  rfl

omit [StandardLibrary] in
theorem not_legacy_written (state : InstallState) : isLegacyEnvelope (installStateToJson state) = false := by
  unfold installStateToJson jsonObject isLegacyEnvelope
  refine Bool.and_eq_false_imp.mpr fun hnames => ?_
  have hmem : ("schema_version", Json.int 2) ∈ sortEntries (present (stateTable state)) :=
    mem_sortEntries.mpr (mem_present.mpr (by simp [stateTable]))
  have hname := List.all_eq_true.mp hnames _ (List.mem_map.mpr ⟨_, hmem, rfl⟩)
  exact absurd hname (by decide)

/-- A readable state is read back from its bytes. -/
theorem parseInstallState_installStateBytes [JsonRuntime] {services : PlanningServices} {state : InstallState}
    (h : Readable services state) : parseInstallState services (installStateBytes state) = .ok state := by
  unfold parseInstallState installStateBytes
  rw [parseJson_canonicalJsonBytes h.fits]
  simp only [asInstallStateInvalid, Except.mapError, bind, Except.bind, not_legacy_written, Bool.false_eq_true, if_false,
    parseV2_written h.accepted h.plain]

/-! ## What was read fits when it is written -/

omit [StandardLibrary] in
theorem fits_of_holds {depth : Nat} {fields : Dict} {table : Fields} (hnodup : (table.map Prod.fst).Nodup)
    (hfits : Fits depth (.obj fields)) (h : Holds fields table) : Fits depth (jsonObject table) :=
  (fits_jsonObject_iff hnodup).mpr ⟨hfits.depth, fun name value hmem => fits_of_get? hfits (h (name, some value) hmem)⟩

omit [StandardLibrary] in
theorem fits_source {services : PlanningServices} {depth : Nat} {value : Json} {source : SourceEvidence}
    (h : parseSource services value = .ok source) (hfits : Fits depth value) :
    Fits depth (jsonObject (sourceTable source)) := by
  obtain ⟨_, fields, hfields, hholds⟩ := parseSource_eq_ok.mp h
  rw [objectFields_eq_ok hfields] at hfits
  exact fits_of_holds (nodup_sourceTable source) hfits hholds

omit [StandardLibrary] in
theorem fits_artifact {depth : Nat} {value : Json} {artifact : ArtifactEvidence}
    (h : parseArtifact value = .ok artifact) (hfits : Fits depth value) :
    Fits depth (jsonObject (artifactTable artifact)) := by
  obtain ⟨_, fields, hfields, hholds⟩ := parseArtifact_eq_ok.mp h
  rw [objectFields_eq_ok hfields] at hfits
  exact fits_of_holds (nodup_artifactTable artifact) hfits hholds

omit [StandardLibrary] in
theorem field_cases_effect {effect : EffectProof} {name : String} {value : Json}
    (h : (name, some value) ∈ effectTable effect) :
    (name, some value) ∈ effectTexts effect ∨
      (name = "identity_evidence" ∧ effect.identityEvidence ≠ .null ∧ value = effect.identityEvidence) ∨
      (name = "created_destination" ∧ value = .bool effect.createdDestination) ∨
      (name = "overwrote" ∧ value = .bool effect.overwrote) := by
  have hform : effectTable effect = (effectTexts effect).take 8 ++
      ("identity_evidence", if effect.identityEvidence = .null then none else some effect.identityEvidence) ::
        ((effectTexts effect).drop 8 ++ [("created_destination", some (.bool effect.createdDestination)),
          ("overwrote", some (.bool effect.overwrote))]) := rfl
  rw [hform] at h
  simp only [List.mem_append, List.mem_cons, List.not_mem_nil, or_false, Prod.mk.injEq, Option.some.injEq] at h
  rcases h with h | ⟨rfl, h⟩ | h | h | h
  · exact Or.inl (List.mem_of_mem_take h)
  · refine Or.inr (Or.inl ⟨rfl, ?_⟩)
    split at h
    · exact absurd h (by simp)
    · exact ⟨‹_›, Option.some.inj h⟩
  · exact Or.inl (List.mem_of_mem_drop h)
  · exact Or.inr (Or.inr (Or.inl h))
  · exact Or.inr (Or.inr (Or.inr h))

theorem fits_effect {depth : Nat} {value : Json} {effect : EffectProof} (h : parseEffect value = .ok effect)
    (hfits : Fits depth value) : Fits depth (effectJson effect) ∧ Frozen effect.identityEvidence := by
  obtain ⟨_, _, fields, hfields, hholds, hevidence, _⟩ := parseEffect_eq_ok.mp h
  rw [objectFields_eq_ok hfields] at hfits
  have hkind := hholds ("kind", some (.str effect.kind.value)) (by simp [effectTexts])
  have hdepth := (fits_of_get? hfits hkind).2.depth
  refine ⟨(fits_jsonObject_iff (nodup_effectTable effect)).mpr ⟨hfits.depth, fun name item hmem => ?_⟩, ?_⟩
  · rcases field_cases_effect hmem with htext | ⟨rfl, hsome, rfl⟩ | ⟨rfl, rfl⟩ | ⟨rfl, rfl⟩
    · exact fits_of_get? hfits (hholds (name, some item) htext)
    · cases hfound : fields.get? "identity_evidence" with
      | none =>
          rw [hfound] at hevidence
          exact absurd hevidence.symm hsome
      | some found =>
          rw [hfound, Option.getD_some] at hevidence
          rw [← hevidence]
          exact fits_of_get? hfits hfound
    · exact ⟨by decide, by rw [Fits]; exact hdepth⟩
    · exact ⟨by decide, by rw [Fits]; exact hdepth⟩
  · cases hfound : fields.get? "identity_evidence" with
    | none =>
        rw [hfound] at hevidence
        rw [← hevidence, Option.getD_none, Frozen]
        trivial
    | some found =>
        rw [hfound, Option.getD_some] at hevidence
        rw [← hevidence]
        exact frozen_of_fits (fits_of_get? hfits hfound).2

omit [StandardLibrary] in
theorem field_cases_record {record : InstallationRecord} {name : String} {value : Json}
    (h : (name, some value) ∈ recordTable record) :
    (name, some value) ∈ recordTexts record ∨
      (name = "source" ∧ value = jsonObject (sourceTable record.source)) ∨
      (name = "artifact" ∧ value = jsonObject (artifactTable record.artifact)) ∨
      (name = "effects" ∧ value = .arr (record.effects.map effectJson)) := by
  have hform : recordTable record = (recordTexts record).take 1 ++
      ("source", some (jsonObject (sourceTable record.source))) ::
        ("artifact", some (jsonObject (artifactTable record.artifact))) ::
          (((recordTexts record).drop 1).take 4 ++ ("effects", some (.arr (record.effects.map effectJson))) ::
            (recordTexts record).drop 5) := rfl
  rw [hform] at h
  simp only [List.mem_append, List.mem_cons, Prod.mk.injEq, Option.some.injEq] at h
  rcases h with h | h | h | h | h | h
  · exact Or.inl (List.mem_of_mem_take h)
  · exact Or.inr (Or.inl h)
  · exact Or.inr (Or.inr (Or.inl h))
  · exact Or.inl (List.mem_of_mem_drop (List.mem_of_mem_take h))
  · exact Or.inr (Or.inr (Or.inr h))
  · exact Or.inl (List.mem_of_mem_drop h)

theorem accepted_of_parseRecord {services : PlanningServices} {depth : Nat} {value : Json}
    {record : InstallationRecord} (h : parseRecord services value = .ok record) (hfits : Fits depth value) :
    RecordAccepted services record ∧ (∀ effect ∈ record.effects, PlainSourcePath effect) ∧
      Fits depth (recordJson record) := by
  obtain ⟨hcheck, href, fields, source, artifact, items, hfields, hholds, gsource, hsource, gartifact, hartifact,
    gitems, heffects⟩ := parseRecord_eq_ok.mp h
  rw [objectFields_eq_ok hfields] at hfits
  obtain ⟨_, hitems⟩ := fits_of_get? hfits gitems
  rw [Fits, fitsItems_iff] at hitems
  have heffect {effect : EffectProof} (hmem : effect ∈ record.effects) :
      ∃ item, Fits (depth + 1 + 1) item ∧ parseEffect item = .ok effect := by
    obtain ⟨item, hitem, hparsed⟩ := exists_of_forall₂_mem (Result.forall₂_of_mapM_ok heffects) hmem
    exact ⟨item, hitems.2 item hitem, hparsed⟩
  refine ⟨⟨hcheck, (parseSource_eq_ok.mp hsource).1, (parseArtifact_eq_ok.mp hartifact).1, href, ?_⟩, ?_, ?_⟩
  · intro effect hmem
    obtain ⟨item, hitem, hparsed⟩ := heffect hmem
    exact ⟨(parseEffect_eq_ok.mp hparsed).1, (fits_effect hparsed hitem).2⟩
  · intro effect hmem
    obtain ⟨item, _, hparsed⟩ := heffect hmem
    exact (parseEffect_eq_ok.mp hparsed).2.1
  · refine (fits_jsonObject_iff (nodup_recordTable record)).mpr ⟨hfits.depth, fun name item hmem => ?_⟩
    rcases field_cases_record hmem with htext | ⟨rfl, rfl⟩ | ⟨rfl, rfl⟩ | ⟨rfl, rfl⟩
    · exact fits_of_get? hfits (hholds (name, some item) htext)
    · exact ⟨by decide, fits_source hsource (fits_of_get? hfits gsource).2⟩
    · exact ⟨by decide, fits_artifact hartifact (fits_of_get? hfits gartifact).2⟩
    · refine ⟨by decide, ?_⟩
      rw [Fits, fitsItems_iff]
      refine ⟨hitems.1, fun written hwritten => ?_⟩
      obtain ⟨effect, hmem, rfl⟩ := List.mem_map.mp hwritten
      obtain ⟨found, hfound, hparsed⟩ := heffect hmem
      exact (fits_effect hparsed hfound).1

omit [StandardLibrary] in
theorem sortRecords_idem (records : List InstallationRecord) : sortRecords (sortRecords records) = sortRecords records := by
  refine List.Pairwise.insertionSort_eq ?_
  have : Std.Total fun a b : InstallationRecord => keyText a ≤ keyText b := ⟨fun a b => le_total (keyText a) (keyText b)⟩
  have : IsTrans InstallationRecord fun a b => keyText a ≤ keyText b := ⟨fun a b c hab hbc => le_trans hab hbc⟩
  exact List.pairwise_insertionSort _ records

omit [StandardLibrary] in
theorem asInstallStateInvalid_eq_ok {α : Type} {result : Result α} {x : α} (h : asInstallStateInvalid result = .ok x) :
    result = .ok x := by
  cases result with
  | error diagnostics => exact absurd h (by simp [asInstallStateInvalid, Except.mapError])
  | ok value => exact h

/-- Every state that is read is readable. -/
theorem readable_of_parseInstallState [JsonRuntime] {services : PlanningServices} {data : Bytes} {state : InstallState}
    (h : parseInstallState services data = .ok state) : Readable services state := by
  unfold parseInstallState at h
  obtain ⟨value, hvalue, h⟩ := Result.of_bind_ok h
  have hfits := fits_of_parseJson (asInstallStateInvalid_eq_ok hvalue)
  split at h
  · exact absurd h (by simp [error])
  · have h := asInstallStateInvalid_eq_ok h
    unfold parseV2InstallState at h
    obtain ⟨fields, hfields, h⟩ := Result.of_bind_ok h
    obtain ⟨version, hversion, h⟩ := Result.of_bind_ok h
    split at h
    · exact absurd h (by simp [stateError, error])
    · rename_i hversionEq
      obtain ⟨items, hitems, h⟩ := Result.of_bind_ok h
      obtain ⟨records, hrecords, h⟩ := Result.of_bind_ok h
      split at h
      · rename_i made hmade
        obtain rfl := Except.ok.inj h
        rw [(decodes_integer _).required (by simp)] at hversion
        rw [(decodes_array _).required (by simp)] at hitems
        rw [objectFields_eq_ok hfields] at hfits
        obtain ⟨_, hversionFits⟩ := fits_of_get? hfits hversion.1
        obtain ⟨_, hitemsFits⟩ := fits_of_get? hfits hitems.1
        rw [Fits, fitsItems_iff] at hitemsFits
        have hrecord {record : InstallationRecord} (hmem : record ∈ made.installations) :=
          exists_of_forall₂_mem (Result.forall₂_of_mapM_ok hrecords) ((InstallState.mem_make hmade record).mp hmem)
        have haccepted {record : InstallationRecord} (hmem : record ∈ made.installations) :
            RecordAccepted services record ∧ (∀ effect ∈ record.effects, PlainSourcePath effect) ∧
              Fits (0 + 1 + 1) (recordJson record) := by
          obtain ⟨item, hitem, hparsed⟩ := hrecord hmem
          exact accepted_of_parseRecord hparsed (hitemsFits.2 item hitem)
        refine ⟨⟨fun record hmem => (haccepted hmem).1, ?_⟩, fun record hmem => (haccepted hmem).2.1, ?_⟩
        · rw [InstallState.make_eq_ok hmade, sortRecords_idem]
        · refine (fits_jsonObject_iff (nodup_stateTable made)).mpr ⟨by decide, fun name item hmem => ?_⟩
          simp only [stateTable, List.mem_cons, List.not_mem_nil, or_false, Prod.mk.injEq, Option.some.injEq] at hmem
          rcases hmem with ⟨rfl, rfl⟩ | ⟨rfl, rfl⟩
          · refine ⟨by decide, ?_⟩
            rw [Fits]
            exact ⟨by decide, by unfold JsonText.InRange; decide⟩
          · refine ⟨by decide, ?_⟩
            rw [Fits, fitsItems_iff]
            refine ⟨by decide, fun written hwritten => ?_⟩
            obtain ⟨record, hmem, rfl⟩ := List.mem_map.mp hwritten
            exact (haccepted hmem).2.2
      · exact absurd h (by simp [stateError, error])

end AgentArtifacts.Manifest
