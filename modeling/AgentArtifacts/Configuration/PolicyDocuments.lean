import AgentArtifacts.Configuration.Documents

/-!
# The organization policy as bytes

Reading a policy folds hosts and takes one suffix off each repository of a designated
registry. The policy is read back from its bytes exactly where neither does anything to
what the first reading left, and where no folded host outgrows the bound on texts.
-/

namespace AgentArtifacts.Configuration

open Manifest (Fields present jsonObject requiredField optionalField choiceOf slugOf mapM_written)
open Registry (Capability sortedBy sortedSet perm_sortedBy mem_sortedBy)
open Schema (ReadsBack TextOf Shape refuse asArray asObject objectOf validateObjectFields defaultedField schemaVersion
  parseCapability stringArray refuse_eq_ok asArray_eq_ok asObject_eq_ok textOf_slug textOf_capability sortedBy_sortedBy
  sortedSet_sortedSet mem_sortedSet fits_arr fits_obj stringArray_map objectOf_written body_of_objectOf fits_written
  members_of_object validateObjectFields_eq_ok sortedBy_eq_self pairwise_sortedBy)

/-! ## Suffixes -/

variable {tail text : String}

theorem endsWith_iff : endsWith tail text = true ↔ ∃ head, text.toList = head ++ tail.toList := by
  unfold endsWith
  rw [List.isSuffixOf_iff_suffix]
  exact ⟨fun ⟨head, h⟩ => ⟨head, h.symm⟩, fun ⟨head, h⟩ => ⟨head, h.symm⟩⟩

theorem removeSuffix_of_endsWith {head : List Char} (h : text.toList = head ++ tail.toList) :
    removeSuffix tail text = String.ofList head := by
  rw [removeSuffix, if_pos (endsWith_iff.mpr ⟨head, h⟩), h]
  simp

theorem removeSuffix_of_not (h : endsWith tail text = false) : removeSuffix tail text = text := by
  rw [removeSuffix, if_neg (by simp [h])]

theorem length_removeSuffix_le (tail text : String) : (removeSuffix tail text).length ≤ text.length := by
  unfold removeSuffix
  split
  · rw [← String.length_toList, ← String.length_toList, String.toList_ofList, List.length_take]
    omega
  · exact Nat.le_refl _

theorem mem_removeSuffix {c : Char} (h : c ∈ (removeSuffix tail text).toList) : c ∈ text.toList := by
  unfold removeSuffix at h
  split at h
  · rw [String.toList_ofList] at h
    exact List.mem_of_mem_take h
  · exact h

/-- A suffix is left after it was taken off exactly where it was there twice. -/
theorem endsWith_removeSuffix (text : String) :
    endsWith ".git" (removeSuffix ".git" text) = endsWith ".git.git" text := by
  rw [Bool.eq_iff_iff]
  constructor
  · intro h
    cases hsuffix : endsWith ".git" text with
    | false =>
        rw [removeSuffix_of_not hsuffix, hsuffix] at h
        cases h
    | true =>
        obtain ⟨head, hhead⟩ := endsWith_iff.mp hsuffix
        rw [removeSuffix_of_endsWith hhead] at h
        obtain ⟨rest, hrest⟩ := endsWith_iff.mp h
        rw [String.toList_ofList] at hrest
        exact endsWith_iff.mpr ⟨rest, by rw [hhead, hrest, List.append_assoc]; rfl⟩
  · intro h
    obtain ⟨head, hhead⟩ := endsWith_iff.mp h
    have hform : text.toList = (head ++ ".git".toList) ++ ".git".toList := by
      rw [hhead, List.append_assoc]
      rfl
    rw [removeSuffix_of_endsWith hform]
    exact endsWith_iff.mpr ⟨head, String.toList_ofList⟩

theorem length_removeSuffix_lt {text : String} (h : endsWith ".git" text = true) :
    (removeSuffix ".git" text).length < text.length := by
  obtain ⟨head, hhead⟩ := endsWith_iff.mp h
  rw [removeSuffix_of_endsWith hhead, ← String.length_toList, ← String.length_toList, String.toList_ofList, hhead,
    List.length_append]
  have hsuffix : ".git".toList.length = 4 := rfl
  omega

theorem pyLstrip_of_not {text : String} (h : startsWith "/" text = false) : pyLstrip '/' text = text := by
  have hhead : text.toList.dropWhile (· == '/') = text.toList := by
    unfold startsWith at h
    cases htext : text.toList with
    | nil => rfl
    | cons c rest =>
        rw [htext] at h
        have hc : (c == '/') = false := by
          have hslash : ('/' == c) = false := by
            simpa only [show "/".toList = ['/'] from rfl, List.isPrefixOf, Bool.and_true] using h
          exact beq_eq_false_iff_ne.mpr (beq_eq_false_iff_ne.mp hslash).symm
        rw [List.dropWhile_cons, hc]
        rfl
  rw [pyLstrip, hhead, String.ofList_toList]

/-! ## Lists of texts -/

theorem texts_of_items {name : String} {normalize : String → String} {valid : String → Bool} {items : List Json}
    {read : List String} (h : List.Forall₂ (fun item text => (do
      let raw ← stringField policyInvalid (name ++ " item") item
      refuse (!valid (normalize raw)) policyInvalid (name ++ " contains an unsafe value")
      return normalize raw) = .ok text) items read) :
    ∃ raws : List String, items = raws.map .str ∧ read = raws.map normalize ∧
      ∀ raw ∈ raws, oneLine raw = true ∧ valid (normalize raw) = true := by
  induction h with
  | nil => exact ⟨[], rfl, rfl, by simp⟩
  | cons hfirst _ ih =>
      obtain ⟨raws, rfl, rfl, hvalid⟩ := ih
      obtain ⟨raw, hraw, h1⟩ := Result.of_bind_ok hfirst
      obtain ⟨checked, hchecked, h2⟩ := Result.of_bind_ok h1
      obtain rfl := Except.ok.inj h2
      obtain ⟨rfl, hline⟩ := stringField_eq_ok_iff.mp hraw
      refine ⟨raw :: raws, rfl, rfl, List.forall_mem_cons.mpr ⟨⟨hline, ?_⟩, hvalid⟩⟩
      simpa using refuse_eq_ok.mp hchecked

/-- The texts that a set of texts was read from. -/
theorem optionalStrings_eq_ok {fields : Dict} {name : String} {normalize : String → String} {valid : String → Bool}
    {found : List String} (h : optionalStrings fields name normalize valid = .ok (some found)) :
    ∃ raws : List String, Dict.get? fields name = some (stringArray raws) ∧ found = sortedSet (raws.map normalize) ∧
      ∀ raw ∈ raws, oneLine raw = true ∧ valid (normalize raw) = true := by
  unfold optionalStrings optionalField at h
  split at h
  · cases h
  · rename_i value hvalue
    obtain ⟨texts, htexts, hsame⟩ := Result.of_map_ok h
    obtain rfl := Option.some.inj hsame
    obtain ⟨items, hitems, h1⟩ := Result.of_bind_ok htexts
    obtain ⟨read, hread, h2⟩ := Result.of_bind_ok h1
    obtain rfl := asArray_eq_ok hitems
    obtain rfl := Except.ok.inj h2
    have hall := Result.forall₂_of_mapM_ok hread
    obtain ⟨raws, hraws, hnormal, hvalid⟩ := texts_of_items hall
    exact ⟨raws, by rw [hvalue, hraws]; rfl, by rw [hnormal], hvalid⟩

theorem optionalStrings_written {written : Dict} {name : String} {normalize : String → String} {valid : String → Bool}
    {found : Option (List String)} (hget : Dict.get? written name = found.map stringArray)
    (h : ∀ texts, found = some texts → sortedSet texts = texts ∧
      ∀ text ∈ texts, oneLine text = true ∧ normalize text = text ∧ valid text = true) :
    optionalStrings written name normalize valid = .ok found := by
  cases found with
  | none => rw [optionalStrings, optionalField, hget, Option.map_none]
  | some texts =>
      obtain ⟨hsorted, htexts⟩ := h texts rfl
      have hread : (texts.map Json.str).mapM (fun item => do
          let raw ← stringField policyInvalid (name ++ " item") item
          refuse (!valid (normalize raw)) policyInvalid (name ++ " contains an unsafe value")
          return normalize raw) = .ok texts := by
        refine mapM_written fun text hmem => ?_
        obtain ⟨hline, hnormal, hvalid⟩ := htexts text hmem
        simp only [stringField_eq_ok_iff.mpr ⟨rfl, hline⟩, hnormal, hvalid, refuse, bind, Except.bind]
        rfl
      rw [optionalStrings, optionalField, hget, Option.map_some]
      simp only [stringArray, asArray, bind, Except.bind] at hread ⊢
      rw [hread]
      simp only [hsorted]
      rfl

variable {depth : Nat}

theorem fits_strings {texts : List String} (hdepth : depth + 1 ≤ maxDepth) :
    Fits depth (stringArray texts) ↔ ∀ text ∈ texts, text.length ≤ maxStringLength := by
  rw [stringArray, fits_arr]
  constructor
  · rintro ⟨_, h⟩ text hmem
    have hitem := h _ (List.mem_map.mpr ⟨text, hmem, rfl⟩)
    rw [Fits] at hitem
    exact hitem.2
  · refine fun h => ⟨by omega, fun item hitem => ?_⟩
    obtain ⟨text, hmem, rfl⟩ := List.mem_map.mp hitem
    rw [Fits]
    exact ⟨hdepth, h text hmem⟩

/-! ## Aliases and capabilities -/

/-- Names in order and each once. -/
structure SoundNames (names : List Slug) : Prop where
  sorted : sortedBy Slug.value names = names
  nodup : names.Nodup
  short : ∀ name ∈ names.map Slug.value, name.length ≤ maxStringLength

theorem soundNames_of_field {fields : Dict} {name label : String} {found : List SourceAlias}
    (hfits : Fits depth (.obj fields))
    (h : defaultedField fields name [] (aliasArray policyInvalid label) = .ok found) : SoundNames found := by
  unfold defaultedField at h
  split at h
  · rw [← Except.ok.inj h]
    exact ⟨rfl, List.nodup_nil, by simp⟩
  · rename_i value hvalue
    have hvalueFits := (Manifest.fits_of_get? hfits hvalue).2
    have hwritten := (readsBack_aliasArray policyInvalid label hvalueFits h).2
    obtain ⟨items, hitems, h1⟩ := Result.of_bind_ok h
    obtain ⟨names, hnames, h2⟩ := Result.of_bind_ok h1
    obtain ⟨distinct, hdistinct, h3⟩ := Result.of_bind_ok h2
    obtain rfl := Except.ok.inj h3
    refine ⟨sortedBy_sortedBy _ _, (perm_sortedBy _ _).nodup_iff.mpr (by simpa using refuse_eq_ok.mp hdistinct), ?_⟩
    intro text hmem
    have hitem := (fits_arr.mp hwritten).2 _ (List.mem_map.mpr ⟨text, hmem, rfl⟩)
    rw [Fits] at hitem
    exact hitem.2

theorem SoundNames.read {names : List Slug} (h : SoundNames names) (label : String) :
    aliasArray policyInvalid label (stringArray (names.map Slug.value)) = .ok names := by
  have hread : ((names.map Slug.value).map Json.str).mapM (aliasField policyInvalid (label ++ " item")) = .ok names := by
    rw [List.map_map]
    exact mapM_written fun name _ => aliasField_written _ _ name
  have hdistinct : decide (¬ names.Nodup) = false := decide_eq_false (not_not.mpr h.nodup)
  simp only [aliasArray, stringArray, asArray, hread, hdistinct, h.sorted, refuse, bind, Except.bind]
  rfl

structure SoundCapabilities (capabilities : List Capability) : Prop where
  sorted : sortedBy Capability.value capabilities = capabilities
  nodup : capabilities.Nodup
  slugs : ∀ capability ∈ capabilities, isSlug capability.value = true
  short : ∀ name ∈ capabilities.map Capability.value, name.length ≤ maxStringLength

theorem soundCapabilities_of_read {value : Json} {found : List Capability} (hfits : Fits depth value)
    (h : allowedCapabilities value = .ok found) : SoundCapabilities found := by
  obtain ⟨items, hitems, h1⟩ := Result.of_bind_ok h
  obtain ⟨read, hread, h2⟩ := Result.of_bind_ok h1
  obtain rfl := Except.ok.inj h2
  obtain rfl := asArray_eq_ok hitems
  have hitem (capability : Capability) (hmem : capability ∈ sortedBy Capability.value read.dedup) :
      isSlug capability.value = true ∧ capability.value.length ≤ maxStringLength := by
    obtain ⟨item, hitem, hparse⟩ := exists_of_forall₂_mem (Result.forall₂_of_mapM_ok hread)
      (List.mem_dedup.mp (mem_sortedBy.mp hmem))
    obtain ⟨raw, hraw, hcapability⟩ := Result.of_bind_ok hparse
    obtain ⟨rfl, _⟩ := stringField_eq_ok_iff.mp hraw
    have hshort := (fits_arr.mp hfits).2 _ hitem
    rw [Fits] at hshort
    unfold parseCapability at hcapability
    split at hcapability
    · rename_i hslug
      rw [← Except.ok.inj hcapability]
      exact ⟨hslug, hshort.2⟩
    · cases hcapability
  refine ⟨sortedBy_sortedBy _ _, (perm_sortedBy _ _).nodup_iff.mpr (List.nodup_dedup _),
    fun capability hmem => (hitem capability hmem).1, ?_⟩
  intro name hname
  obtain ⟨capability, hmem, rfl⟩ := List.mem_map.mp hname
  exact (hitem capability hmem).2

theorem SoundCapabilities.read {capabilities : List Capability} (h : SoundCapabilities capabilities) :
    allowedCapabilities (stringArray (capabilities.map Capability.value)) = .ok capabilities := by
  have hread : ((capabilities.map Capability.value).map Json.str).mapM
      (textField policyInvalid "allowed setup capability" parseCapability) = .ok capabilities := by
    rw [List.map_map]
    refine mapM_written fun capability hmem => ?_
    have hslug := h.slugs capability hmem
    have hline : oneLine capability.value = true := Manifest.Slug.oneLine ⟨capability.value, hslug⟩
    simp only [Function.comp_apply, textField, stringField_eq_ok_iff.mpr ⟨rfl, hline⟩, parseCapability, hslug, if_true,
      bind, Except.bind]
  simp only [allowedCapabilities, stringArray, asArray, hread, h.nodup.dedup, h.sorted, bind, Except.bind]
  rfl

/-! ## Reporting -/

theorem shape_policyReporting :
    Shape [] ["mode", "destination", "deny_public_destinations"] policyReportingTable where
  names reporting := by simp [policyReportingTable]
  nodup reporting := by simp [policyReportingTable]
  found := by simp
  short := by decide

theorem policyReporting_written (settings : ReportingPolicy) :
    policyReporting (jsonObject (policyReportingTable settings)) = .ok settings := by
  refine objectOf_written shape_policyReporting fun written hwritten => ?_
  simp only [policyReportingTable, List.forall_mem_cons] at hwritten
  obtain ⟨wdeny, wmode, wdestination, _⟩ := hwritten
  have hmode : optionalField written "mode"
      (enumField reportingModes ReportingMode.value policyInvalid "policy reporting mode") = .ok settings.mode := by
    rw [optionalField, wmode]
    rcases settings.mode with _ | mode
    · rfl
    · cases mode <;> rfl
  have hdeny : defaultedField written "deny_public_destinations" false
      (booleanField policyInvalid "deny_public_destinations") = .ok settings.denyPublicDestinations := by
    rw [defaultedField, wdeny]
    rfl
  simp only [policyReportingBody, hmode, optionalAlias_written wdestination, hdeny, bind, Except.bind]
  rfl

theorem short_of_policyReporting {value : Json} {settings : ReportingPolicy} (hfits : Fits depth value)
    (h : policyReporting value = .ok settings) :
    ∀ name, settings.destination = some name → name.value.length ≤ maxStringLength := by
  obtain ⟨entries, hentries, h1⟩ := Result.of_bind_ok h
  obtain ⟨fields, hfields, h2⟩ := Result.of_bind_ok h1
  obtain rfl := asObject_eq_ok hentries
  obtain ⟨rfl, _⟩ := validateObjectFields_eq_ok.mp hfields
  obtain ⟨mode, _, h3⟩ := Result.of_bind_ok h2
  obtain ⟨destination, hdestination, h4⟩ := Result.of_bind_ok h3
  obtain ⟨deny, _, h5⟩ := Result.of_bind_ok h4
  obtain rfl := Except.ok.inj h5
  exact short_of_optionalAlias hfits hdestination

theorem fits_policyReporting {settings : ReportingPolicy}
    (h : ∀ name, settings.destination = some name → name.value.length ≤ maxStringLength) :
    Fits 1 (jsonObject (policyReportingTable settings)) := by
  have hmode : ∀ mode, settings.mode = some mode → mode.value.length ≤ maxStringLength := by
    intro mode _
    cases mode <;> decide
  have hdeny : Fits 2 (.bool settings.denyPublicDestinations) := by
    rw [Fits]
    decide
  refine fits_written shape_policyReporting (by decide) ?_
  simp only [policyReportingTable, List.forall_mem_cons, Option.some.injEq, forall_eq']
  exact ⟨hdeny, fits_optionalText (by decide) hmode, fits_optionalText (by decide) h, by simp⟩

/-! ## Designated registries -/

section Company

variable [TextRuntime]

omit [TextRuntime] in
theorem shape_companySource : Shape ["source_id", "git_host", "repository"] [] companySourceTable where
  names source := by simp [companySourceTable]
  nodup source := by simp [companySourceTable]
  found := by simp [companySourceTable]
  short := by decide

variable {source : CompanyReviewedSource}

/-- The constructor, where it takes what it is given. -/
theorem companyReviewedSource_eq_ok {rawId rawHost rawRepository : String}
    (h : companyReviewedSource rawId rawHost rawRepository = .ok source) :
    startsWith "/" rawRepository = false ∧ (rawRepository.toList.any fun c => c == '?' || c == '#') = false ∧
      source.sourceId.value = rawId ∧ source.gitHost = TextRuntime.casefold rawHost ∧
      source.repository = removeSuffix ".git" rawRepository := by
  unfold companyReviewedSource at h
  dsimp only at h
  split at h
  · cases h
  · rename_i hclean
    rw [Bool.or_eq_true, not_or, Bool.not_eq_true, Bool.not_eq_true] at hclean
    split at h
    · cases h
    · rename_i sourceId hid
      split at h
      · obtain rfl := Except.ok.inj h
        have hid' := Manifest.slugOf_eq_some.mp hid
        refine ⟨hclean.1, hclean.2, hid'.symm, rfl, ?_⟩
        dsimp only
        rw [pyLstrip_of_not hclean.1]
      · cases h

/-- What was read of one designated registry. -/
theorem companySource_eq_ok {depth : Nat} {value : Json} (hfits : Fits depth value)
    (h : companySource value = .ok source) :
    ∃ fields rawHost rawRepository, value = .obj fields ∧
      Dict.get? fields "git_host" = some (.str rawHost) ∧ Dict.get? fields "repository" = some (.str rawRepository) ∧
      source.sourceId.value.length ≤ maxStringLength ∧ rawRepository.length ≤ maxStringLength ∧
      startsWith "/" rawRepository = false ∧ (rawRepository.toList.any fun c => c == '?' || c == '#') = false ∧
      source.gitHost = TextRuntime.casefold rawHost ∧ source.repository = removeSuffix ".git" rawRepository := by
  obtain ⟨entries, hentries, h1⟩ := Result.of_bind_ok h
  obtain ⟨fields, hfields, h2⟩ := Result.of_bind_ok h1
  obtain rfl := asObject_eq_ok hentries
  obtain ⟨rfl, hrequired, _⟩ := validateObjectFields_eq_ok.mp hfields
  obtain ⟨rawId, hid, h3⟩ := Result.of_bind_ok h2
  obtain ⟨rawHost, hhost, h4⟩ := Result.of_bind_ok h3
  obtain ⟨rawRepository, hrepository, h5⟩ := Result.of_bind_ok h4
  obtain ⟨hstart, hclean, hsameId, hsameHost, hsameRepository⟩ := companyReviewedSource_eq_ok h5
  have hmember {name label text : String} (hread : requiredField fields name (stringField policyInvalid label) = .ok text) :
      Dict.get? fields name = some (.str text) ∧ text.length ≤ maxStringLength := by
    unfold requiredField at hread
    cases hget : Dict.get? fields name with
    | none =>
        rw [hget] at hread
        cases hread
    | some member =>
        rw [hget] at hread
        obtain rfl := stringField_eq_ok hread
        have hshort := (Manifest.fits_of_get? hfits hget).2
        rw [Fits] at hshort
        exact ⟨rfl, hshort.2⟩
  refine ⟨fields, rawHost, rawRepository, rfl, (hmember hhost).1, (hmember hrepository).1, ?_, (hmember hrepository).2,
    hstart, hclean, hsameHost, hsameRepository⟩
  rw [hsameId]
  exact (hmember hid).2

/-- A designated registry that can be written, but for how long its host is. -/
structure SoundCompany (source : CompanyReviewedSource) : Prop where
  sourceId : source.sourceId.value.length ≤ maxStringLength
  repository : source.repository.length ≤ maxStringLength
  clean : (source.repository.toList.any fun c => c == '?' || c == '#') = false

theorem soundCompany_of_read {depth : Nat} {value : Json} (hfits : Fits depth value)
    (h : companySource value = .ok source) : SoundCompany source := by
  obtain ⟨fields, rawHost, rawRepository, _, _, _, hid, hshort, _, hclean, _, hsame⟩ := companySource_eq_ok hfits h
  refine ⟨hid, ?_, ?_⟩
  · rw [hsame]
    exact Nat.le_trans (length_removeSuffix_le _ _) hshort
  · rw [hsame]
    exact List.any_eq_false.mpr fun c hc => List.any_eq_false.mp hclean c (mem_removeSuffix hc)

omit [TextRuntime] in
theorem isSpace_of_isHostLetter {c : Char} (h : isHostLetter c = true) : isSpace c = false := by
  simp only [isHostLetter, Bool.or_eq_true, beq_iff_eq] at h
  rcases h with (h | rfl) | rfl
  · refine not_space_of_alphanum ?_
    simp only [isLowerAlphanumeric, isLowerLetter, Bool.or_eq_true, Bool.and_eq_true, decide_eq_true_eq] at h
    simp only [Char.isAlphanum, isAlpha_eq, isLower_eq, Char.isDigit, Bool.or_eq_true, Bool.and_eq_true,
      decide_eq_true_eq]
    rcases h with ⟨hleast, hmost⟩ | ⟨hleast, hmost⟩
    · exact Or.inl (Or.inr ⟨hleast, hmost⟩)
    · exact Or.inr ⟨hleast, hmost⟩
  · decide
  · decide

omit [TextRuntime] in
theorem oneLine_host {host : String} (h : isGitHost host = true) : oneLine host = true := by
  simp only [isGitHost, Bool.and_eq_true] at h
  refine Manifest.oneLine_of_not_space ?_ fun c hc => isSpace_of_isHostLetter (List.all_eq_true.mp h.2 c hc)
  rintro rfl
  exact absurd h.1.1 (by decide)

omit [TextRuntime] in
theorem oneLine_repository {path : String} (h : isRepositoryPath path = true) : oneLine path = true := by
  simp only [isRepositoryPath, Bool.and_eq_true, bne_iff_ne, Bool.not_eq_true', List.any_eq_false, Bool.or_eq_true,
    not_or, Bool.not_eq_true] at h
  exact Manifest.oneLine_of_not_space h.1.1.1.1 fun c hc => (h.2 c hc).1

omit [TextRuntime] in
theorem startsWith_repository {path : String} (h : isRepositoryPath path = true) : startsWith "/" path = false := by
  rw [← Bool.not_eq_true]
  intro hslash
  simp only [isRepositoryPath, Bool.and_eq_true, Bool.not_eq_true'] at h
  have hparts := h.1.1.2
  obtain ⟨rest, hrest⟩ := List.isPrefixOf_iff_prefix.mp hslash
  have hfirst : "" ∈ splitChar '/' path := by
    rw [splitChar, ← hrest, show "/".toList = ['/'] from rfl, List.singleton_append,
      List.splitOn_cons_eq_if_modifyHead, if_pos (beq_self_eq_true _), List.map_cons]
    exact List.mem_cons_self
  exact absurd (List.any_eq_false.mp hparts "" hfirst) (by decide)

/-- A designated registry is constructed again from what is written of it. -/
theorem SoundCompany.constructed (hfolds : FoldsHosts) (h : SoundCompany source)
    (hsuffix : endsWith ".git" source.repository = false) :
    companyReviewedSource source.sourceId.value source.gitHost source.repository = .ok source := by
  have hstart := startsWith_repository source.repository_valid
  have hhost : TextRuntime.casefold source.gitHost = source.gitHost := by
    have hvalid := source.host_valid
    simp only [isGitHost, Bool.and_eq_true] at hvalid
    exact hfolds _ hvalid.2
  have hrepository : removeSuffix ".git" (pyLstrip '/' source.repository) = source.repository := by
    rw [pyLstrip_of_not hstart, removeSuffix_of_not hsuffix]
  unfold companyReviewedSource
  simp only [hstart, h.clean, Bool.or_self, Bool.false_eq_true, if_false, hhost, hrepository,
    Manifest.slugOf_eq_some.mpr rfl, source.host_valid, source.repository_valid, and_self, dif_pos]

theorem companySource_written (source : CompanyReviewedSource) : companySource (companySourceJson source) =
    companyReviewedSource source.sourceId.value source.gitHost source.repository := by
  refine objectOf_written shape_companySource fun written hwritten => ?_
  simp only [companySourceTable, List.forall_mem_cons] at hwritten
  obtain ⟨whost, wrepository, wid, _⟩ := hwritten
  have hid : requiredField written "source_id" (stringField policyInvalid "company source ID") =
      .ok source.sourceId.value := by
    rw [requiredField, wid]
    exact stringField_eq_ok_iff.mpr ⟨rfl, Manifest.Slug.oneLine _⟩
  have hhost : requiredField written "git_host" (stringField policyInvalid "company Git host") = .ok source.gitHost := by
    rw [requiredField, whost]
    exact stringField_eq_ok_iff.mpr ⟨rfl, oneLine_host source.host_valid⟩
  have hrepository : requiredField written "repository" (stringField policyInvalid "company repository") =
      .ok source.repository := by
    rw [requiredField, wrepository]
    exact stringField_eq_ok_iff.mpr ⟨rfl, oneLine_repository source.repository_valid⟩
  simp only [companySourceBody, hid, hhost, hrepository, bind, Except.bind]

omit [TextRuntime] in
theorem SoundCompany.fits_iff (h : SoundCompany source) :
    Fits 2 (companySourceJson source) ↔ source.gitHost.length ≤ maxStringLength := by
  constructor
  · intro hfits
    have hhost := ((Manifest.fits_jsonObject_iff (shape_companySource.nodup source)).mp hfits).2 "git_host"
      (.str source.gitHost) (by simp [companySourceTable])
    have hmember := hhost.2
    rw [Fits] at hmember
    exact hmember.2
  · intro hhost
    have htext {text : String} (hshort : text.length ≤ maxStringLength) : Fits 3 (.str text) := by
      rw [Fits]
      exact ⟨by decide, hshort⟩
    refine fits_written shape_companySource (by decide) ?_
    simp only [companySourceTable, List.forall_mem_cons, Option.some.injEq, forall_eq']
    exact ⟨htext hhost, htext h.repository, htext h.sourceId, by simp⟩

end Company

end AgentArtifacts.Configuration
