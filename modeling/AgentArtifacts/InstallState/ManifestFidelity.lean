import AgentArtifacts.InstallState.ManifestRoundTrip

/-!
# Which states survive their own manifest

The constructors admit states that the writer writes and the parser refuses. With
texts and nesting within bounds these are the ones with white space around a source
path, an integer of identity evidence outside the signed 64-bit range, or a
coordinate or version whose rendering is longer than a text may be.
-/

namespace AgentArtifacts.Manifest

/-! ## Bounds on the parts -/

def Short (text : String) : Prop := text.length ≤ maxStringLength

instance (text : String) : Decidable (Short text) := inferInstanceAs (Decidable (text.length ≤ maxStringLength))

/-- The texts of an effect are short and its evidence is shallow. -/
structure EffectWithin (effect : EffectProof) : Prop where
  destination : Short effect.destination
  sourcePath : ∀ path, effect.sourcePath = some path → Short path
  jsonPath : ∀ path, effect.jsonPath = some path → Short path
  linkTarget : ∀ target, effect.linkTarget = some target → Short target
  restoresFrom : ∀ path, effect.restoresFrom = some path → Short path
  evidenceTexts : TextsWithin effect.identityEvidence
  evidenceNesting : nesting effect.identityEvidence ≤ 50

structure RecordWithin (record : InstallationRecord) : Prop where
  sourceAlias : Short record.source.sourceAlias.value
  declaredId : Short record.source.declaredId.value
  origin : Short record.source.origin
  resolvedCommit : Short record.source.resolvedCommit
  subscriptionRef : ∀ ref, record.source.subscriptionRef = some ref → Short ref
  name : Short record.artifact.identity.name.value
  profile : Short record.profile.value
  setupStateRef : ∀ ref, record.setupStateRef = some ref → Short ref
  effects : ∀ effect ∈ record.effects, EffectWithin effect

/-- What the parser asks of a record beyond the constructors and the bounds. -/
structure Rereadable (record : InstallationRecord) : Prop where
  plain : ∀ effect ∈ record.effects, PlainSourcePath effect
  integers : ∀ effect ∈ record.effects, JsonText.Legible JsonText.InRange effect.identityEvidence
  coordinate : Short record.coordinate.str
  version : Short record.artifact.version

/-! ## Written parts within the bounds -/

variable {depth : Nat}

theorem fits_text {text : String} (hdepth : depth ≤ maxDepth) (h : Short text) : Fits depth (.str text) := by
  rw [Fits]
  exact ⟨hdepth, h⟩

theorem fits_optionalText {text : Option String} (hdepth : depth ≤ maxDepth)
    (h : ∀ found, text = some found → Short found) {value : Json} (hvalue : some value = text.map .str) :
    Fits depth value := by
  obtain ⟨found, hfound, rfl⟩ := Option.map_eq_some_iff.mp hvalue.symm
  exact fits_text hdepth (h found hfound)

theorem short_digest {digest : ObjectDigest} (h : validDigest digest = true) : Short digest.str := by
  simp only [validDigest, Bool.and_eq_true, beq_iff_eq] at h
  have hlength : digest.str.length = 71 := by
    rw [← String.length_toList, ObjectDigest.str, String.toList_append, List.length_append, h.1]
    rfl
  rw [Short, hlength]
  decide

theorem fits_sourceTable {record : InstallationRecord} (h : RecordWithin record)
    (hdepth : depth + 1 ≤ maxDepth) : Fits depth (jsonObject (sourceTable record.source)) := by
  refine (fits_jsonObject_iff (nodup_sourceTable record.source)).mpr ⟨by omega, fun name value hmem => ?_⟩
  simp only [sourceTable, List.mem_cons, List.not_mem_nil, or_false, Prod.mk.injEq, Option.some.injEq] at hmem
  rcases hmem with ⟨rfl, rfl⟩ | ⟨rfl, rfl⟩ | ⟨rfl, rfl⟩ | ⟨rfl, rfl⟩ | ⟨rfl, rfl⟩ | ⟨rfl, hvalue⟩
  · exact ⟨by decide, fits_text hdepth h.sourceAlias⟩
  · exact ⟨by decide, fits_text hdepth h.declaredId⟩
  · exact ⟨by decide, fits_text hdepth (by cases record.source.kind <;> decide)⟩
  · exact ⟨by decide, fits_text hdepth h.origin⟩
  · exact ⟨by decide, fits_text hdepth h.resolvedCommit⟩
  · exact ⟨by decide, fits_optionalText hdepth h.subscriptionRef hvalue⟩

theorem fits_artifactTable {record : InstallationRecord} (haccepted : ArtifactAccepted record.artifact)
    (h : RecordWithin record) (hversion : Short record.artifact.version) (hdepth : depth + 1 ≤ maxDepth) :
    Fits depth (jsonObject (artifactTable record.artifact)) := by
  refine (fits_jsonObject_iff (nodup_artifactTable record.artifact)).mpr ⟨by omega, fun name value hmem => ?_⟩
  simp only [artifactTable, List.mem_cons, List.not_mem_nil, or_false, Prod.mk.injEq, Option.some.injEq] at hmem
  rcases hmem with ⟨rfl, rfl⟩ | ⟨rfl, rfl⟩ | ⟨rfl, rfl⟩ | ⟨rfl, rfl⟩ | ⟨rfl, rfl⟩ | ⟨rfl, rfl⟩
  · exact ⟨by decide, fits_text hdepth (by cases record.artifact.identity.kind <;> decide)⟩
  · exact ⟨by decide, fits_text hdepth h.name⟩
  · exact ⟨by decide, fits_text hdepth hversion⟩
  · exact ⟨by decide, fits_text hdepth (short_digest haccepted.manifestDigest)⟩
  · exact ⟨by decide, fits_text hdepth (short_digest haccepted.payloadDigest)⟩
  · exact ⟨by decide, fits_text hdepth (short_digest haccepted.objectDigest)⟩

section Effects

variable [StandardLibrary]

/-- The evidence stands five levels into the document, so fifty more stay within its depth. -/
theorem fits_effectJson {depth : Nat} {effect : EffectProof} (haccepted : EffectAccepted effect)
    (hfrozen : Frozen effect.identityEvidence) (h : EffectWithin effect)
    (hintegers : JsonText.Legible JsonText.InRange effect.identityEvidence) (hdepth : depth + 51 ≤ maxDepth) :
    Fits depth (effectJson effect) := by
  have hnext : depth + 1 ≤ maxDepth := by omega
  have hnesting := h.evidenceNesting
  refine (fits_jsonObject_iff (nodup_effectTable effect)).mpr ⟨by omega, fun name value hmem => ?_⟩
  rcases field_cases_effect hmem with htext | ⟨rfl, _, rfl⟩ | ⟨rfl, rfl⟩ | ⟨rfl, rfl⟩
  · simp only [effectTexts, List.mem_cons, List.not_mem_nil, or_false, Prod.mk.injEq, Option.some.injEq] at htext
    rcases htext with ⟨rfl, rfl⟩ | ⟨rfl, rfl⟩ | ⟨rfl, rfl⟩ | ⟨rfl, rfl⟩ | ⟨rfl, hvalue⟩ | ⟨rfl, hvalue⟩ | ⟨rfl, hvalue⟩ |
      ⟨rfl, hvalue⟩ | ⟨rfl, hvalue⟩ | ⟨rfl, hvalue⟩ | ⟨rfl, hvalue⟩
    · exact ⟨by decide, fits_text hnext (by cases effect.kind <;> decide)⟩
    · exact ⟨by decide, fits_text hnext h.destination⟩
    · exact ⟨by decide, fits_text hnext (by cases effect.actualMode <;> decide)⟩
    · exact ⟨by decide, fits_text hnext (short_digest haccepted.installedDigest)⟩
    · exact ⟨by decide, fits_optionalText hnext h.sourcePath hvalue⟩
    · exact ⟨by decide, fits_optionalText hnext h.jsonPath hvalue⟩
    · obtain ⟨mode, _, rfl⟩ := Option.map_eq_some_iff.mp hvalue.symm
      exact ⟨by decide, fits_text hnext (by cases mode <;> decide)⟩
    · obtain ⟨digest, hdigest, rfl⟩ := Option.map_eq_some_iff.mp hvalue.symm
      exact ⟨by decide, fits_text hnext (short_digest (haccepted.identityDigest digest hdigest))⟩
    · exact ⟨by decide, fits_optionalText hnext h.linkTarget hvalue⟩
    · obtain ⟨semantics, _, rfl⟩ := Option.map_eq_some_iff.mp hvalue.symm
      exact ⟨by decide, fits_text hnext (by cases semantics <;> decide)⟩
    · exact ⟨by decide, fits_optionalText hnext h.restoresFrom hvalue⟩
  · exact ⟨by decide, fits_of_bounds hfrozen hintegers h.evidenceTexts (by omega)⟩
  · exact ⟨by decide, by rw [Fits]; exact hnext⟩
  · exact ⟨by decide, by rw [Fits]; exact hnext⟩

theorem fits_recordJson {services : PlanningServices} {depth : Nat} {record : InstallationRecord}
    (haccepted : RecordAccepted services record) (h : RecordWithin record) (hreread : Rereadable record)
    (hdepth : depth + 53 ≤ maxDepth) : Fits depth (recordJson record) := by
  have hnext : depth + 1 ≤ maxDepth := by omega
  refine (fits_jsonObject_iff (nodup_recordTable record)).mpr ⟨by omega, fun name value hmem => ?_⟩
  rcases field_cases_record hmem with htext | ⟨rfl, rfl⟩ | ⟨rfl, rfl⟩ | ⟨rfl, rfl⟩
  · simp only [recordTexts, List.mem_cons, List.not_mem_nil, or_false, Prod.mk.injEq, Option.some.injEq] at htext
    rcases htext with ⟨rfl, rfl⟩ | ⟨rfl, rfl⟩ | ⟨rfl, rfl⟩ | ⟨rfl, rfl⟩ | ⟨rfl, rfl⟩ | ⟨rfl, hvalue⟩ | ⟨rfl, hvalue⟩
    · exact ⟨by decide, fits_text hnext hreread.coordinate⟩
    · exact ⟨by decide, fits_text hnext h.profile⟩
    · obtain ⟨_, hversion, _⟩ := record_checked haccepted.check
      refine ⟨by decide, ?_⟩
      rw [Fits, JsonText.InRange]
      exact ⟨hnext, by omega, by omega⟩
    · exact ⟨by decide, fits_text hnext (by cases record.scope <;> decide)⟩
    · exact ⟨by decide, fits_text hnext (by cases record.requestedMode <;> decide)⟩
    · obtain ⟨mode, _, rfl⟩ := Option.map_eq_some_iff.mp hvalue.symm
      exact ⟨by decide, fits_text hnext (by cases mode <;> decide)⟩
    · exact ⟨by decide, fits_optionalText hnext h.setupStateRef hvalue⟩
  · exact ⟨by decide, fits_sourceTable h (by omega)⟩
  · exact ⟨by decide, fits_artifactTable haccepted.artifact h hreread.version (by omega)⟩
  · refine ⟨by decide, ?_⟩
    rw [Fits, fitsItems_iff]
    refine ⟨hnext, fun written hwritten => ?_⟩
    obtain ⟨effect, hmem, rfl⟩ := List.mem_map.mp hwritten
    obtain ⟨heffect, hfrozen⟩ := haccepted.effects effect hmem
    exact fits_effectJson heffect hfrozen (h.effects effect hmem) (hreread.integers effect hmem) (by omega)

theorem readable_of_rereadable {services : PlanningServices} {state : InstallState}
    (haccepted : StateAccepted services state) (h : ∀ record ∈ state.installations, RecordWithin record)
    (hreread : ∀ record ∈ state.installations, Rereadable record) : Readable services state := by
  refine ⟨haccepted, fun record hmem => (hreread record hmem).plain, ?_⟩
  refine (fits_jsonObject_iff (nodup_stateTable state)).mpr ⟨by decide, fun name item hmem => ?_⟩
  simp only [stateTable, List.mem_cons, List.not_mem_nil, or_false, Prod.mk.injEq, Option.some.injEq] at hmem
  rcases hmem with ⟨rfl, rfl⟩ | ⟨rfl, rfl⟩
  · refine ⟨by decide, ?_⟩
    rw [Fits]
    exact ⟨by decide, by unfold JsonText.InRange; decide⟩
  · refine ⟨by decide, ?_⟩
    rw [Fits, fitsItems_iff]
    refine ⟨by decide, fun written hwritten => ?_⟩
    obtain ⟨record, hrecord, rfl⟩ := List.mem_map.mp hwritten
    exact fits_recordJson (haccepted.records record hrecord) (h record hrecord) (hreread record hrecord) (by decide)

end Effects

/-! ## Parts of a readable state -/

/-- A field of a written object fits one level deeper. -/
theorem fits_field {table : Fields} (hnodup : (table.map Prod.fst).Nodup)
    (h : Fits depth (jsonObject table)) (name : String) (value : Json) (hmem : (name, some value) ∈ table) :
    Fits (depth + 1) value :=
  (((fits_jsonObject_iff hnodup).mp h).2 name value hmem).2

section Readable

variable [StandardLibrary]

theorem rereadable_of_readable {services : PlanningServices} {state : InstallState} (h : Readable services state)
    {record : InstallationRecord} (hrecord : record ∈ state.installations) : Rereadable record := by
  have hitems := fits_field (nodup_stateTable state) h.fits "installations"
    (.arr (state.installations.map recordJson)) (by simp [stateTable])
  rw [Fits, fitsItems_iff] at hitems
  have hfits := hitems.2 _ (List.mem_map.mpr ⟨record, hrecord, rfl⟩)
  have hcoordinate := fits_field (nodup_recordTable record) hfits "coordinate"
    (.str record.coordinate.str) (by simp [recordTable])
  have hartifact := fits_field (nodup_recordTable record) hfits "artifact"
    (jsonObject (artifactTable record.artifact)) (by simp [recordTable])
  have hversion := fits_field (nodup_artifactTable record.artifact) hartifact "version"
    (.str record.artifact.version) (by simp [artifactTable])
  have heffects := fits_field (nodup_recordTable record) hfits "effects"
    (.arr (record.effects.map effectJson)) (by simp [recordTable])
  rw [Fits] at hcoordinate hversion
  rw [Fits, fitsItems_iff] at heffects
  refine ⟨h.plain record hrecord, fun effect heffect => ?_, hcoordinate.2, hversion.2⟩
  by_cases hnull : effect.identityEvidence = .null
  · rw [hnull, JsonText.Legible]
    trivial
  · have hevidence := fits_field (nodup_effectTable effect) (heffects.2 _ (List.mem_map.mpr ⟨effect, heffect, rfl⟩))
      "identity_evidence" effect.identityEvidence (by simp [effectTable, hnull])
    exact legible_of_fits hevidence

end Readable

/-! ## Round trips -/

/-- An accepted state within the bounds is read back exactly when its records are
rereadable, and whatever was read is read back. -/
theorem parseInstallState_installStateBytes_iff [StandardLibrary] [JsonRuntime] (services : PlanningServices) :
    (∀ state : InstallState, StateAccepted services state → (∀ record ∈ state.installations, RecordWithin record) →
      (parseInstallState services (installStateBytes state) = .ok state ↔
        ∀ record ∈ state.installations, Rereadable record)) ∧
      ∀ (data : Bytes) (state : InstallState), parseInstallState services data = .ok state →
        parseInstallState services (installStateBytes state) = .ok state := by
  refine ⟨fun state haccepted hwithin => ⟨fun h record hrecord => ?_, fun h => ?_⟩, fun data state h => ?_⟩
  · exact rereadable_of_readable (readable_of_parseInstallState h) hrecord
  · exact parseInstallState_installStateBytes (readable_of_rereadable haccepted hwithin h)
  · exact parseInstallState_installStateBytes (readable_of_parseInstallState h)

/-! ## One state that is not read back -/

/-- A runtime with a constant for the hash, in which every text is in normal form. -/
@[reducible] def notesLibrary : StandardLibrary := pythonLibrary (fun _ => []) fun _ => true

section Notes

attribute [local instance] notesLibrary

def notesServices : PlanningServices where
  validateObjectEvidence _ _ := .ok ()
  incompatibilities _ _ := []
  gitLocationParts _ := none
  policyDigest _ := sampleDigest '0'

def notesEffect (sourcePath : String) : EffectProof :=
  { kind := .writeFile, destination := "notes.md", actualMode := .copy, installedDigest := sampleDigest '0'
    sourcePath := some sourcePath }

def notesSource : SourceEvidence :=
  ⟨⟨"team", Eq.refl true⟩, ⟨"team", Eq.refl true⟩, .sourceLocal, "/work/registry", "local", none⟩

def notesArtifact : ArtifactEvidence :=
  ⟨⟨.skill, ⟨"notes", by decide⟩⟩, "1.0.0", sampleDigest '0', sampleDigest '0', sampleDigest '0'⟩

def notesProfile : Slug := ⟨"claude", Eq.refl true⟩

def notesRecord (sourcePath : String) : InstallationRecord where
  source := notesSource
  artifact := notesArtifact
  profile := notesProfile
  profileVersion := 1
  scope := .project
  requestedMode := .copy
  effects := [notesEffect sourcePath]

def notesState (sourcePath : String) : InstallState :=
  ⟨[notesRecord sourcePath], by simp, by simp [InstallationRecord.effectOwners, notesRecord]⟩

variable {sourcePath : String}

theorem notesEffect_check (h : isSafeRelative sourcePath = true) :
    (notesEffect sourcePath).check = .ok () := by
  have hline : oneLine "notes.md" = true := by decide
  simp [EffectProof.check, notesEffect, hline, h, EffectKind.isLink, pure, Except.pure]

theorem notesRecord_check (sourcePath : String) : (notesRecord sourcePath).check = .ok () := by
  have hsafe : isSafeRelative "notes.md" = true := by decide
  simp [InstallationRecord.check, notesRecord, notesEffect, hsafe, bind, Except.bind, pure, Except.pure]

theorem notesArtifact_accepted : ArtifactAccepted notesArtifact :=
  ⟨⟨⟨1, 0, 0, [], []⟩, by decide⟩, by decide, by decide, by decide⟩

theorem notesSource_check : notesSource.check notesServices = .ok () := by
  decide

theorem notesState_accepted (h : isSafeRelative sourcePath = true) :
    StateAccepted notesServices (notesState sourcePath) := by
  refine ⟨fun record hrecord => ?_, rfl⟩
  obtain rfl := List.mem_singleton.mp hrecord
  refine ⟨notesRecord_check sourcePath, notesSource_check, notesArtifact_accepted, by simp [notesRecord],
    fun effect heffect => ?_⟩
  obtain rfl := List.mem_singleton.mp heffect
  refine ⟨⟨notesEffect_check h, notesArtifact_accepted.manifestDigest, by simp [notesEffect]⟩, ?_⟩
  rw [notesEffect, Frozen]
  trivial

theorem notesState_within (h : Short sourcePath) :
    ∀ record ∈ (notesState sourcePath).installations, RecordWithin record := by
  intro record hrecord
  obtain rfl := List.mem_singleton.mp hrecord
  have hsource : Short notesSource.sourceAlias.value ∧ Short notesSource.origin ∧ Short notesSource.resolvedCommit := by
    decide
  have hnames : Short notesArtifact.identity.name.value ∧ Short notesProfile.value ∧ Short "notes.md" := by
    decide
  refine ⟨hsource.1, hsource.1, hsource.2.1, hsource.2.2, by simp [notesRecord, notesSource], hnames.1, hnames.2.1,
    by simp [notesRecord], fun effect heffect => ?_⟩
  obtain rfl := List.mem_singleton.mp heffect
  refine ⟨hnames.2.2, ?_, by simp [notesEffect], by simp [notesEffect], by simp [notesEffect], ?_,
    by simp [notesEffect, nesting]⟩
  · intro path hpath
    rw [← Option.some.inj hpath]
    exact h
  · rw [notesEffect, TextsWithin]
    trivial

theorem notesRecord_rereadable (h : pyStrip sourcePath = sourcePath) :
    Rereadable (notesRecord sourcePath) := by
  have htexts : Short (⟨notesSource.sourceAlias, notesArtifact.identity, none⟩ : ArtifactCoordinate).str ∧
      Short notesArtifact.version := by
    decide
  refine ⟨fun effect heffect path hpath => ?_, fun effect heffect => ?_, htexts.1, htexts.2⟩
  · obtain rfl := List.mem_singleton.mp heffect
    rw [← Option.some.inj hpath]
    exact h
  · obtain rfl := List.mem_singleton.mp heffect
    rw [notesEffect, JsonText.Legible]
    trivial

theorem notes_read_back :
    @parseInstallState notesLibrary notesServices (installStateBytes (notesState "payload/notes.md")) =
      .ok (notesState "payload/notes.md") := by
  have hruntime := pythonLibrary_jsonRuntime (fun _ => []) fun _ => true
  refine ((@parseInstallState_installStateBytes_iff notesLibrary hruntime notesServices).1 _
    (notesState_accepted (by decide)) (notesState_within (by decide))).mpr fun record hrecord => ?_
  obtain rfl := List.mem_singleton.mp hrecord
  exact notesRecord_rereadable (by decide)

/-- The constructors admit a source path that ends in white space, and the parser does not. -/
theorem notes_not_read_back :
    StateAccepted notesServices (notesState "payload/notes.md ") ∧
      (∀ record ∈ (notesState "payload/notes.md ").installations, RecordWithin record) ∧
      parseInstallState notesServices (installStateBytes (notesState "payload/notes.md ")) ≠
        .ok (notesState "payload/notes.md ") := by
  have hruntime := pythonLibrary_jsonRuntime (fun _ => []) fun _ => true
  refine ⟨notesState_accepted (by decide), notesState_within (by decide), fun h => ?_⟩
  have hplain := (@readable_of_parseInstallState notesLibrary hruntime _ _ _ h).plain _ (List.mem_singleton_self _) _
    (List.mem_singleton_self _) "payload/notes.md " rfl
  exact absurd hplain (by decide)

end Notes

end AgentArtifacts.Manifest
