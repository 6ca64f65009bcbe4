import AgentArtifacts.InstallState.Manifest

/-!
# Fields of the manifest document

What it takes for a field to be read as a value, for each kind of field. The writer
leaves out the fields without a value, so a field is found in a written object
exactly when the table has a value for it.
-/

namespace AgentArtifacts

/-! ## Dictionaries with distinct keys -/

theorem Dict.get?_eq_some_iff {dict : Dict} (hkeys : (dict.map Prod.fst).Nodup) {name : String} {value : Json} :
    dict.get? name = some value ↔ (name, value) ∈ dict := by
  induction dict with
  | nil => simp
  | cons entry rest ih =>
      obtain ⟨key, item⟩ := entry
      obtain ⟨hfresh, hrest⟩ := List.nodup_cons.mp hkeys
      rw [Dict.get?_cons, List.mem_cons]
      by_cases hkey : key = name
      · subst hkey
        rw [if_pos rfl]
        constructor
        · intro h
          rw [Option.some.inj h]
          exact Or.inl rfl
        · rintro (h | h)
          · rw [(Prod.mk.inj h).2]
          · exact absurd (List.mem_map.mpr ⟨_, h, rfl⟩) hfresh
      · rw [if_neg hkey, ih hrest]
        constructor
        · exact Or.inr
        · rintro (h | h)
          · exact absurd (Prod.mk.inj h).1.symm hkey
          · exact h

theorem Dict.get?_sortEntries {dict : Dict} (hkeys : (dict.map Prod.fst).Nodup) (name : String) :
    Dict.get? (sortEntries dict) name = dict.get? name := by
  have hsorted : ((sortEntries dict).map Prod.fst).Nodup :=
    ((List.perm_insertionSort _ dict).map _).nodup_iff.mpr hkeys
  refine Option.ext fun value => ?_
  rw [Dict.get?_eq_some_iff hsorted, Dict.get?_eq_some_iff hkeys, mem_sortEntries]

namespace Manifest

/-! ## Written objects -/

variable {value : Json}

theorem mem_present {fields : Fields} {name : String} :
    (name, value) ∈ present fields ↔ (name, some value) ∈ fields := by
  unfold present
  simp only [List.mem_filterMap, Option.map_eq_some_iff, Prod.mk.injEq]
  constructor
  · rintro ⟨⟨key, content⟩, hmem, found, rfl, rfl, rfl⟩
    exact hmem
  · intro hmem
    exact ⟨_, hmem, value, rfl, rfl, rfl⟩

theorem present_keys_sublist (fields : Fields) : ((present fields).map Prod.fst).Sublist (fields.map Prod.fst) := by
  induction fields with
  | nil => exact .slnil
  | cons field rest ih =>
      obtain ⟨name, content⟩ := field
      cases content with
      | none => exact ih.cons _
      | some value => exact ih.cons_cons _

theorem nodup_present {fields : Fields} (h : (fields.map Prod.fst).Nodup) : ((present fields).map Prod.fst).Nodup :=
  h.sublist (present_keys_sublist fields)

/-- A field of the table is found with the value it has there. -/
theorem get?_field {fields : Fields} (h : (fields.map Prod.fst).Nodup) {name : String} {content : Option Json}
    (hmem : (name, content) ∈ fields) : Dict.get? (sortEntries (present fields)) name = content := by
  rw [Dict.get?_sortEntries (nodup_present h)]
  cases content with
  | some value => exact (Dict.get?_eq_some_iff (nodup_present h)).mpr (mem_present.mpr hmem)
  | none =>
      cases hfound : (present fields).get? name with
      | none => rfl
      | some value =>
          have hother := mem_present.mp ((Dict.get?_eq_some_iff (nodup_present h)).mp hfound)
          exact absurd (List.inj_on_of_nodup_map h hmem hother rfl) (by simp)

theorem fits_jsonObject_iff {depth : Nat} {fields : Fields} (h : (fields.map Prod.fst).Nodup) :
    Fits depth (jsonObject fields) ↔ depth ≤ maxDepth ∧ ∀ name value, (name, some value) ∈ fields →
      name.length ≤ maxStringLength ∧ Fits (depth + 1) value := by
  unfold jsonObject
  rw [Fits, fitsEntries_iff]
  constructor
  · rintro ⟨hdepth, _, hentries⟩
    exact ⟨hdepth, fun name value hmem => hentries (name, value) (mem_sortEntries.mpr (mem_present.mpr hmem))⟩
  · rintro ⟨hdepth, hfields⟩
    refine ⟨hdepth, sortEntries_pairwise (nodup_present h), fun entry hentry => ?_⟩
    exact hfields entry.1 entry.2 (mem_present.mp (mem_sortEntries.mp hentry))

theorem fits_of_get? {depth : Nat} {entries : Dict} (h : Fits depth (.obj entries)) {name : String}
    (hget : Dict.get? entries name = some value) : name.length ≤ maxStringLength ∧ Fits (depth + 1) value := by
  rw [Fits, fitsEntries_iff] at h
  exact h.2.2 (name, value) ((Dict.get?_eq_some_iff (nodup_of_pairwise_lt h.2.1)).mp hget)

/-! ## Reading objects -/

theorem objectFields_eq_ok {required optional : List String} {fields : Dict}
    (h : objectFields required optional value = .ok fields) : value = .obj fields := by
  unfold objectFields at h
  split at h
  · unfold validateObjectFields at h
    dsimp only at h
    split at h
    · rw [Except.ok.inj h]
    · cases h
  · exact absurd h (by simp [stateError, error])

/-- A written object has the required fields and no other than the known ones. -/
theorem objectFields_jsonObject {required optional : List String} {fields : Fields}
    (hrequired : ∀ name ∈ required, ∃ value, (name, some value) ∈ fields)
    (hknown : ∀ name ∈ fields.map Prod.fst, name ∈ required ++ optional) :
    objectFields required optional (jsonObject fields) = .ok (sortEntries (present fields)) := by
  have hnames (name : String) : name ∈ (sortEntries (present fields)).map Prod.fst ↔
      ∃ value, (name, some value) ∈ fields := by
    simp only [List.mem_map, mem_sortEntries]
    constructor
    · rintro ⟨⟨key, value⟩, hmem, rfl⟩
      exact ⟨value, mem_present.mp hmem⟩
    · rintro ⟨value, hmem⟩
      exact ⟨(name, value), mem_present.mpr hmem, rfl⟩
  have hmissing : (required.insertionSort (· ≤ ·)).filter
      (· ∉ (sortEntries (present fields)).map Prod.fst) = [] := by
    rw [List.filter_eq_nil_iff]
    intro name hname
    simpa using (hnames name).mpr (hrequired name ((List.mem_insertionSort _).mp hname))
  have hunknown : (((sortEntries (present fields)).map Prod.fst).insertionSort (· ≤ ·)).filter
      (· ∉ required ++ optional) = [] := by
    rw [List.filter_eq_nil_iff]
    intro name hname
    obtain ⟨value, hmem⟩ := (hnames name).mp ((List.mem_insertionSort _).mp hname)
    simpa only [decide_eq_true_eq, not_not] using hknown name (List.mem_map.mpr ⟨_, hmem, rfl⟩)
  unfold jsonObject objectFields validateObjectFields
  simp only [hmissing, hunknown, List.map_nil, List.append_nil]

/-- What each item is read back from is read back item by item. -/
theorem mapM_written {α β : Type} {parse : β → Result α} {encode : α → β} {values : List α}
    (h : ∀ x ∈ values, parse (encode x) = .ok x) : (values.map encode).mapM parse = .ok values := by
  induction values with
  | nil => rfl
  | cons x rest ih =>
      rw [List.map_cons, List.mapM_cons, h x List.mem_cons_self, ih fun y hy => h y (List.mem_cons_of_mem _ hy)]
      rfl

/-! ## Lines -/

theorem strip_eq_self {p : Char → Bool} {text : List Char} (h : ∀ c ∈ text, p c = false) : Text.strip p text = text := by
  have hdrop {chars : List Char} (hchars : ∀ c ∈ chars, p c = false) : chars.dropWhile p = chars := by
    cases chars with
    | nil => rfl
    | cons c rest => rw [List.dropWhile_cons, hchars c List.mem_cons_self]; simp
  unfold Text.strip Text.stripRight
  rw [hdrop h, hdrop fun c hc => h c (List.mem_reverse.mp hc), List.reverse_reverse]

theorem pyIn_eq_false {needle text : String} {c : Char} (hc : c ∈ needle.toList) (h : c ∉ text.toList) :
    pyIn needle text = false := by
  have hnone : Text.partition? needle.toList text.toList = none :=
    Text.partition?_eq_none_iff.mpr fun hpart => h (hpart.subset hc)
  simp [pyIn, Text.contains, hnone]

variable {text : String}

/-- A text without white space is a line. -/
theorem oneLine_of_not_space (hne : text ≠ "") (h : ∀ c ∈ text.toList, isSpace c = false) :
    oneLine text = true := by
  have hstrip : pyStrip text = text := by
    unfold pyStrip
    rw [strip_eq_self h, String.ofList_toList]
  have hreturn : pyIn "\r" text = false :=
    pyIn_eq_false (List.mem_singleton_self '\r') fun hmem => absurd (h _ hmem) (by decide)
  have hnewline : pyIn "\n" text = false :=
    pyIn_eq_false (List.mem_singleton_self '\n') fun hmem => absurd (h _ hmem) (by decide)
  simp [oneLine, hne, hstrip, hreturn, hnewline]

theorem lowerAlphanumeric_toNat {c : Char} (h : isLowerAlphanumeric c = true) : 48 ≤ c.toNat ∧ c.toNat ≤ 122 := by
  simp only [isLowerAlphanumeric, isLowerLetter, Bool.or_eq_true, Bool.and_eq_true, decide_eq_true_eq] at h
  rcases h with ⟨hlow, hhigh⟩ | ⟨hlow, hhigh⟩
  · exact ⟨le_trans (by decide) (Char.le_def.mp hlow), Char.le_def.mp hhigh⟩
  · exact ⟨Char.le_def.mp hlow, le_trans (Char.le_def.mp hhigh) (by decide)⟩

theorem lowerHex_not_space {c : Char} (h : isLowerHex c = true) : isSpace c = false := by
  have hletter : isLowerAlphanumeric c = true := by
    simp only [isLowerHex, Bool.or_eq_true, Bool.and_eq_true, decide_eq_true_eq] at h
    simp only [isLowerAlphanumeric, isLowerLetter, Bool.or_eq_true, Bool.and_eq_true, decide_eq_true_eq]
    exact h.symm.imp_left fun hrange => ⟨hrange.1, le_trans hrange.2 (by decide)⟩
  obtain ⟨hlow, hhigh⟩ := lowerAlphanumeric_toNat hletter
  exact not_space_of_toNat (by omega) hhigh

theorem not_space_label : ∀ c ∈ "sha256:".toList, isSpace c = false := by
  decide

/-! ## Fields by their kind -/

theorem parseString_eq_ok {label text : String} :
    parseString label value = .ok text ↔ value = .str text ∧ oneLine text = true := by
  unfold parseString
  split
  · rename_i found
    split
    · rename_i hline
      constructor
      · intro h
        obtain rfl := Except.ok.inj h
        exact ⟨rfl, hline⟩
      · rintro ⟨h, _⟩
        rw [Json.str.inj h]
    · rename_i hline
      refine iff_of_false (by simp [stateError, error]) ?_
      rintro ⟨h, hok⟩
      rw [Json.str.inj h] at hline
      exact hline hok
  · rename_i hother
    refine iff_of_false (by simp [stateError, error]) ?_
    rintro ⟨rfl, _⟩
    exact hother text rfl

theorem append_removePrefix {head text : String} (h : startsWith head text = true) :
    head ++ removePrefix head text = text := by
  unfold removePrefix
  rw [if_pos h]
  obtain ⟨rest, hrest⟩ := List.isPrefixOf_iff_prefix.mp h
  refine String.toList_inj.mp ?_
  rw [String.toList_append, String.toList_ofList, ← hrest, List.drop_left]

variable {digest : ObjectDigest}

theorem parseSha256_eq_ok {raw : String} :
    parseSha256 raw = .ok digest ↔ raw = digest.str ∧ validDigest digest = true := by
  unfold parseSha256
  dsimp only
  constructor
  · intro h
    split at h
    · rename_i hvalid
      obtain rfl := Except.ok.inj h
      simp only [Bool.and_eq_true] at hvalid
      refine ⟨?_, hvalid.2⟩
      exact (append_removePrefix hvalid.1).symm
    · exact absurd h (by simp [error])
  · rintro ⟨rfl, hvalid⟩
    have hprefix : startsWith "sha256:" digest.str = true := by
      unfold startsWith ObjectDigest.str
      rw [String.toList_append]
      exact List.isPrefixOf_iff_prefix.mpr (List.prefix_append _ _)
    have hdigest : (⟨removePrefix "sha256:" digest.str⟩ : ObjectDigest) = digest := by
      unfold removePrefix
      rw [if_pos hprefix]
      cases digest with
      | mk text =>
          rw [ObjectDigest.str, String.toList_append, List.drop_left, String.ofList_toList]
    rw [hdigest, hprefix, hvalid]
    rfl

theorem oneLine_digest (h : validDigest digest = true) : oneLine digest.str = true := by
  simp only [validDigest, Bool.and_eq_true, List.all_eq_true] at h
  refine oneLine_of_not_space (by simp [ObjectDigest.str]) fun c hc => ?_
  rw [ObjectDigest.str, String.toList_append] at hc
  rcases List.mem_append.mp hc with hc | hc
  · exact not_space_label c hc
  · exact lowerHex_not_space (h.2 c hc)

theorem parseDigest_eq_ok {label : String} :
    parseDigest label value = .ok digest ↔ value = .str digest.str ∧ validDigest digest = true := by
  unfold parseDigest
  constructor
  · intro h
    obtain ⟨raw, hraw, hdigest⟩ := Result.of_bind_ok h
    obtain ⟨hvalue, _⟩ := parseString_eq_ok.mp hraw
    obtain ⟨htext, hvalid⟩ := parseSha256_eq_ok.mp hdigest
    rw [hvalue, htext]
    exact ⟨rfl, hvalid⟩
  · rintro ⟨rfl, hvalid⟩
    rw [parseString_eq_ok.mpr ⟨rfl, oneLine_digest hvalid⟩]
    exact parseSha256_eq_ok.mpr ⟨rfl, hvalid⟩

/-- A kind of field: what its values are written as, and which of them are admitted. -/
def Decodes {α : Type} (parse : Json → Result α) (encode : α → Json) (admitted : α → Prop) : Prop :=
  ∀ value x, parse value = .ok x ↔ value = encode x ∧ admitted x

theorem decodes_string (label : String) : Decodes (parseString label) .str (oneLine · = true) :=
  fun _ _ => parseString_eq_ok

theorem decodes_digest (label : String) : Decodes (parseDigest label) (fun digest => .str digest.str) (validDigest · = true) :=
  fun _ _ => parseDigest_eq_ok

theorem decodes_integer (label : String) : Decodes (parseIntegerField label) .int fun _ => True := by
  intro value x
  cases value <;> simp [parseIntegerField, stateError, error]

theorem decodes_boolean (label : String) : Decodes (parseBoolean label) .bool fun _ => True := by
  intro value x
  cases value <;> simp [parseBoolean, stateError, error]

theorem decodes_array (message : String) : Decodes (parseArray message) .arr fun _ => True := by
  intro value x
  cases value <;> simp [parseArray, stateError, error]

section Kinds

variable {α : Type} {parse : Json → Result α} {encode : α → Json} {admitted : α → Prop} {fields : Dict} {name : String}

theorem Decodes.required (h : Decodes parse encode admitted) (hnull : ∀ x, encode x ≠ .null) {x : α} :
    requiredField fields name parse = .ok x ↔ fields.get? name = some (encode x) ∧ admitted x := by
  unfold requiredField
  rw [h]
  refine and_congr_left fun _ => ?_
  cases fields.get? name with
  | none => exact iff_of_false (fun heq => hnull x heq.symm) (by simp)
  | some value => simp

theorem Decodes.optional (h : Decodes parse encode admitted) {o : Option α} :
    optionalField fields name parse = .ok o ↔ fields.get? name = o.map encode ∧ ∀ x, o = some x → admitted x := by
  unfold optionalField
  cases hfound : fields.get? name with
  | none =>
      cases o with
      | none => simp
      | some x => simp
  | some value =>
      constructor
      · intro hok
        obtain ⟨x, hx, rfl⟩ := Result.of_map_ok hok
        obtain ⟨rfl, hadmitted⟩ := (h _ _).mp hx
        refine ⟨rfl, fun y hy => ?_⟩
        rw [← Option.some.inj hy]
        exact hadmitted
      · rintro ⟨heq, hadmitted⟩
        cases o with
        | none => exact absurd heq (by simp)
        | some x =>
            have hx : parse value = .ok x := (h _ _).mpr ⟨Option.some.inj heq, hadmitted x rfl⟩
            simp only [hx]
            rfl

end Kinds

theorem required_string {fields : Dict} {name label text : String} :
    requiredField fields name (parseString label) = .ok text ↔
      fields.get? name = some (.str text) ∧ oneLine text = true :=
  (decodes_string label).required (by simp)

theorem required_digest {fields : Dict} {name label : String} :
    requiredField fields name (parseDigest label) = .ok digest ↔
      fields.get? name = some (.str digest.str) ∧ validDigest digest = true :=
  (decodes_digest label).required (by simp)

theorem optional_string {fields : Dict} {name label : String} {text : Option String} :
    optionalField fields name (parseString label) = .ok text ↔
      fields.get? name = text.map .str ∧ ∀ line, text = some line → oneLine line = true :=
  (decodes_string label).optional

theorem optional_digest {fields : Dict} {name label : String} {digest : Option ObjectDigest} :
    optionalField fields name (parseDigest label) = .ok digest ↔
      fields.get? name = digest.map (fun digest => .str digest.str) ∧
        ∀ found, digest = some found → validDigest found = true :=
  (decodes_digest label).optional

/-! ## Choices -/

theorem choiceOf_eq_some {α : Type} {all : List α} {value : α → String} (hall : ∀ choice, choice ∈ all)
    (hvalue : Function.Injective value) {choice : α} :
    choiceOf all value text = some choice ↔ text = value choice := by
  unfold choiceOf
  constructor
  · intro h
    have hfound := List.find?_some h
    exact (beq_iff_eq.mp hfound).symm
  · rintro rfl
    cases hfound : all.find? fun other => value other == value choice with
    | none => exact absurd (List.find?_eq_none.mp hfound choice (hall choice)) (by simp)
    | some other =>
        have hsame := List.find?_some hfound
        rw [hvalue (beq_iff_eq.mp hsame)]

theorem slugOf_eq_some {slug : Slug} : slugOf text = some slug ↔ text = slug.value := by
  unfold slugOf
  split
  · rename_i hvalid
    constructor
    · intro h
      rw [← Option.some.inj h]
    · rintro rfl
      rfl
  · rename_i hinvalid
    refine iff_of_false (by simp) ?_
    rintro rfl
    exact hinvalid slug.valid

theorem sourceKind_choice {kind : SourceKind} :
    choiceOf sourceKinds SourceKind.value text = some kind ↔ text = kind.value :=
  choiceOf_eq_some (fun kind => by cases kind <;> decide) fun a b h => by cases a <;> cases b <;> simp_all [SourceKind.value]

theorem artifactKind_choice {kind : ArtifactKind} :
    choiceOf artifactKinds ArtifactKind.value text = some kind ↔ text = kind.value :=
  choiceOf_eq_some (fun kind => by cases kind <;> decide) fun _ _ h => ArtifactKind.value_injective h

theorem effectKind_choice {kind : EffectKind} :
    choiceOf effectKinds EffectKind.value text = some kind ↔ text = kind.value :=
  choiceOf_eq_some (fun kind => by cases kind <;> decide) fun a b h => by cases a <;> cases b <;> simp_all [EffectKind.value]

theorem installMode_choice {mode : InstallMode} :
    choiceOf installModes InstallMode.value text = some mode ↔ text = mode.value :=
  choiceOf_eq_some (fun mode => by cases mode <;> decide) fun a b h => by cases a <;> cases b <;> simp_all [InstallMode.value]

theorem installScope_choice {scope : InstallScope} :
    choiceOf installScopes InstallScope.value text = some scope ↔ text = scope.value :=
  choiceOf_eq_some (fun scope => by cases scope <;> decide) fun _ _ h => InstallScope.value_injective h

theorem memoryMode_choice {mode : MemoryMode} :
    choiceOf memoryModes memoryModeValue text = some mode ↔ text = memoryModeValue mode :=
  choiceOf_eq_some (fun mode => by cases mode <;> decide) fun a b h => by cases a <;> cases b <;> simp_all [memoryModeValue]

theorem mergeMode_choice {mode : MergeMode} :
    choiceOf mergeModes mergeModeValue text = some mode ↔ text = mergeModeValue mode :=
  choiceOf_eq_some (fun mode => by cases mode <;> decide) fun a b h => by cases a <;> cases b <;> simp_all [mergeModeValue]

theorem linkSemantics_choice {semantics : LinkSemantics} :
    choiceOf linkSemanticsValues linkSemanticsValue text = some semantics ↔ text = linkSemanticsValue semantics :=
  choiceOf_eq_some (fun semantics => by cases semantics <;> decide)
    fun a b h => by cases a <;> cases b <;> simp_all [linkSemanticsValue]

/-- A written choice is read back. -/
theorem optionalChoice_map {α : Type} {all : List α} {value : α → String}
    (hchoice : ∀ {text : String} {choice : α}, choiceOf all value text = some choice ↔ text = value choice)
    (expected : Bool) (other : α) (choice : Option α) :
    optionalChoice all value expected other (choice.map value) = choice := by
  cases choice with
  | none => rfl
  | some choice =>
      have hfound : choiceOf all value (value choice) = some choice := hchoice.mpr rfl
      simp [optionalChoice, hfound]

/-! ## Names of the tables -/

theorem nodup_sourceTable (source : SourceEvidence) : ((sourceTable source).map Prod.fst).Nodup := by
  show ["alias", "declared_id", "kind", "origin", "resolved_commit", "subscription_ref"].Nodup
  decide

theorem nodup_artifactTable (artifact : ArtifactEvidence) : ((artifactTable artifact).map Prod.fst).Nodup := by
  show ["type", "name", "version", "manifest_digest", "payload_digest", "object_digest"].Nodup
  decide

theorem nodup_effectTable (effect : EffectProof) : ((effectTable effect).map Prod.fst).Nodup := by
  show ["kind", "destination", "actual_mode", "installed_digest", "source_path", "json_path", "merge_mode",
    "identity_digest", "identity_evidence", "link_target", "link_semantics", "restores_from", "created_destination",
    "overwrote"].Nodup
  decide

theorem nodup_recordTable (record : InstallationRecord) : ((recordTable record).map Prod.fst).Nodup := by
  show ["coordinate", "source", "artifact", "profile", "profile_version", "scope", "requested_mode", "effects",
    "memory_mode", "setup_state_ref"].Nodup
  decide

theorem nodup_stateTable (state : InstallState) : ((stateTable state).map Prod.fst).Nodup := by
  show ["schema_version", "installations"].Nodup
  decide

end Manifest

end AgentArtifacts
