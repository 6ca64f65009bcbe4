import AgentArtifacts.InstallState.ManifestFields

/-!
# The parts of a manifest

Which values each part of the document is read as: the fields hold the texts of the
value, and the constructors accept it. The same characterization gives what is read
of a written part and what is known of a part that was read.
-/

namespace AgentArtifacts.Manifest

variable [StandardLibrary]

/-! ## Values that the constructors accept -/

structure ArtifactAccepted (artifact : ArtifactEvidence) : Prop where
  version : ∃ version, parseSemver artifact.version = .ok version
  manifestDigest : validDigest artifact.manifestDigest = true
  payloadDigest : validDigest artifact.payloadDigest = true
  objectDigest : validDigest artifact.objectDigest = true

structure EffectAccepted (effect : EffectProof) : Prop where
  check : effect.check = .ok ()
  installedDigest : validDigest effect.installedDigest = true
  identityDigest : ∀ digest, effect.identityDigest = some digest → validDigest digest = true

structure RecordAccepted (services : PlanningServices) (record : InstallationRecord) : Prop where
  check : record.check = .ok ()
  source : record.source.check services = .ok ()
  artifact : ArtifactAccepted record.artifact
  setupStateRef : ∀ ref, record.setupStateRef = some ref → isSetupRef ref = true
  effects : ∀ effect ∈ record.effects, EffectAccepted effect ∧ Frozen effect.identityEvidence

/-- The one text that the constructors admit with white space around it. -/
def PlainSourcePath (effect : EffectProof) : Prop := ∀ path, effect.sourcePath = some path → pyStrip path = path

/-! ## Lines -/

omit [StandardLibrary] in
theorem Slug.not_space (slug : Slug) : ∀ c ∈ slug.value.toList, isSpace c = false := by
  intro c hc
  rcases slug.mem_value hc with hletter | rfl
  · obtain ⟨hlow, hhigh⟩ := lowerAlphanumeric_toNat hletter
    exact not_space_of_toNat (by omega) hhigh
  · decide

omit [StandardLibrary] in
theorem Slug.oneLine (slug : Slug) : AgentArtifacts.oneLine slug.value = true := by
  refine oneLine_of_not_space ?_ (Slug.not_space slug)
  intro hempty
  have hvalid := slug.valid
  rw [hempty] at hvalid
  exact absurd hvalid (by decide)

omit [StandardLibrary] in
theorem oneLine_setupRef {ref : String} (h : isSetupRef ref = true) : oneLine ref = true := by
  simp only [isSetupRef, Bool.and_eq_true] at h
  obtain ⟨_, hchars⟩ := h
  split at hchars
  · exact absurd hchars (by simp)
  · rename_i first rest hform
    simp only [Bool.and_eq_true, List.all_eq_true] at hchars
    refine oneLine_of_not_space ?_ fun c hc => ?_
    · rintro rfl
      exact absurd hform (by simp)
    · rw [hform] at hc
      have hchar : isSetupRefChar c = true := by
        rcases List.mem_cons.mp hc with rfl | hc
        · simp [isSetupRefChar, hchars.1]
        · exact hchars.2 c hc
      simp only [isSetupRefChar, Bool.or_eq_true, beq_iff_eq] at hchar
      rcases hchar with ((hletter | rfl) | rfl) | rfl
      · obtain ⟨hlow, hhigh⟩ := lowerAlphanumeric_toNat hletter
        exact not_space_of_toNat (by omega) hhigh
      all_goals decide

variable {text : String}

omit [StandardLibrary] in
theorem oneLine_of_length {n : Nat} (hn : 0 < n) (hlength : text.toList.length = n)
    (hall : text.toList.all isLowerHex = true) : oneLine text = true := by
  refine oneLine_of_not_space ?_ fun c hc => lowerHex_not_space (List.all_eq_true.mp hall c hc)
  rintro rfl
  rw [String.toList_empty, List.length_nil] at hlength
  omega

omit [StandardLibrary] in
theorem oneLine_commit (h : isCommit text = true) : oneLine text = true := by
  simp only [isCommit, Bool.and_eq_true, beq_iff_eq] at h
  exact oneLine_of_length (by omega) h.1 h.2

omit [StandardLibrary] in
theorem oneLine_localRevision (h : isLocalRevision text = true) : oneLine text = true := by
  simp only [isLocalRevision, Bool.or_eq_true, Bool.and_eq_true, beq_iff_eq] at h
  rcases h with rfl | ⟨⟨hhead, _⟩, hrest⟩
  · decide
  · obtain ⟨rest, hrest'⟩ := List.isPrefixOf_iff_prefix.mp hhead
    refine oneLine_of_not_space ?_ fun c hc => ?_
    · rintro rfl
      exact absurd hrest' (by simp)
    · rw [← hrest'] at hc hrest
      rcases List.mem_append.mp hc with hc | hc
      · exact (by decide : ∀ c ∈ "local:".toList, isSpace c = false) c hc
      · exact lowerHex_not_space (List.all_eq_true.mp hrest c hc)

variable {services : PlanningServices}

omit [StandardLibrary] in
/-- The texts of source evidence are lines. -/
theorem source_lines {source : SourceEvidence} (h : source.check services = .ok ()) :
    oneLine source.origin = true ∧ oneLine source.resolvedCommit = true ∧
      ∀ ref, source.subscriptionRef = some ref → oneLine ref = true := by
  unfold SourceEvidence.check at h
  split at h
  · exact absurd h (by simp)
  · rename_i horigin
    have horigin : oneLine source.origin = true := by simpa using horigin
    split at h
    · split at h
      · rename_i hlocal
        simp only [Bool.and_eq_true, Option.isNone_iff_eq_none] at hlocal
        refine ⟨horigin, oneLine_localRevision hlocal.1.2, fun ref href => ?_⟩
        rw [hlocal.2] at href
        exact absurd href (by simp)
      · exact absurd h (by simp)
    · split at h
      · rename_i hgit
        simp only [Bool.and_eq_true] at hgit
        refine ⟨horigin, oneLine_commit hgit.1.1, fun ref href => ?_⟩
        have hsafe := hgit.2
        rw [href, Option.getD_some] at hsafe
        simp only [safeGitRef, Bool.and_eq_true] at hsafe
        exact hsafe.1.1.1.1.1.1
      · exact absurd h (by simp)

/-! ## Sources -/

omit [StandardLibrary] in
theorem constructed_eq_ok {α : Type} {check : Except String Unit} {value x : α} :
    constructed check value = .ok x ↔ check = .ok () ∧ value = x := by
  unfold constructed
  cases check with
  | ok _ => simp
  | error message => simp [stateError, error]

/-- The fields of an object hold the values of a table. -/
def Holds (fields : Dict) (table : Fields) : Prop := ∀ field ∈ table, fields.get? field.1 = field.2

omit [StandardLibrary] in
theorem holds_written {table : Fields} (h : (table.map Prod.fst).Nodup) :
    Holds (sortEntries (present table)) table := fun _ hfield => get?_field h hfield

variable {value : Json}

omit [StandardLibrary] in
theorem parseSource_eq_ok {source : SourceEvidence} :
    parseSource services value = .ok source ↔
      source.check services = .ok () ∧ ∃ fields,
        objectFields sourceFields ["subscription_ref"] value = .ok fields ∧ Holds fields (sourceTable source) := by
  constructor
  · intro h
    unfold parseSource at h
    obtain ⟨fields, hfields, h⟩ := Result.of_bind_ok h
    obtain ⟨sourceAlias, halias, h⟩ := Result.of_bind_ok h
    obtain ⟨declaredId, hid, h⟩ := Result.of_bind_ok h
    obtain ⟨kind, hkind, h⟩ := Result.of_bind_ok h
    obtain ⟨origin, horigin, h⟩ := Result.of_bind_ok h
    obtain ⟨commit, hcommit, h⟩ := Result.of_bind_ok h
    obtain ⟨ref, href, h⟩ := Result.of_bind_ok h
    split at h
    · exact absurd h (by simp [stateError, error])
    · rename_i kindChoice hchoice
      split at h
      · rename_i aliasSlug idSlug haliasSlug hidSlug
        obtain ⟨hcheck, rfl⟩ := constructed_eq_ok.mp h
        rw [required_string] at halias hid hkind horigin hcommit
        rw [optional_string] at href
        rw [sourceKind_choice] at hchoice
        rw [slugOf_eq_some] at haliasSlug hidSlug
        subst hchoice haliasSlug hidSlug
        refine ⟨hcheck, fields, hfields, ?_⟩
        simp [Holds, sourceTable, halias, hid, hkind, horigin, hcommit, href]
      · exact absurd h (by simp [stateError, error])
  · rintro ⟨hcheck, fields, hfields, hholds⟩
    obtain ⟨horigin, hcommit, href⟩ := source_lines hcheck
    simp only [Holds, sourceTable, List.forall_mem_cons, List.not_mem_nil, false_implies, implies_true, and_true]
      at hholds
    obtain ⟨galias, gid, gkind, gorigin, gcommit, gref⟩ := hholds
    have hkind : oneLine source.kind.value = true := by cases source.kind <;> decide
    simp only [parseSource, hfields, bind, Except.bind,
      required_string.mpr ⟨galias, Slug.oneLine source.sourceAlias⟩,
      required_string.mpr ⟨gid, Slug.oneLine source.declaredId⟩, required_string.mpr ⟨gkind, hkind⟩,
      required_string.mpr ⟨gorigin, horigin⟩, required_string.mpr ⟨gcommit, hcommit⟩,
      optional_string.mpr ⟨gref, href⟩, sourceKind_choice.mpr rfl, slugOf_eq_some.mpr rfl]
    exact constructed_eq_ok.mpr ⟨hcheck, rfl⟩

/-! ## Artifacts -/

omit [StandardLibrary] in
theorem oneLine_version {version : SemVer} (h : parseSemver text = .ok version) :
    oneLine text = true := by
  refine oneLine_of_not_space ?_ fun c hc => ?_
  · rintro rfl
    exact absurd h (by simp [parseSemver, cutAt, error])
  · have hchar := isVersionChar_of_parseSemver h hc
    simp only [isVersionChar, isIdentifierChar, Bool.or_eq_true, beq_iff_eq] at hchar
    rcases hchar with ((halphanum | rfl) | rfl) | rfl
    · exact not_space_of_alphanum halphanum
    all_goals decide

omit [StandardLibrary] in
theorem parseArtifact_eq_ok {artifact : ArtifactEvidence} :
    parseArtifact value = .ok artifact ↔
      ArtifactAccepted artifact ∧ ∃ fields,
        objectFields artifactFields [] value = .ok fields ∧ Holds fields (artifactTable artifact) := by
  constructor
  · intro h
    unfold parseArtifact at h
    obtain ⟨fields, hfields, h⟩ := Result.of_bind_ok h
    obtain ⟨kind, hkind, h⟩ := Result.of_bind_ok h
    obtain ⟨name, hname, h⟩ := Result.of_bind_ok h
    obtain ⟨text, htext, h⟩ := Result.of_bind_ok h
    obtain ⟨version, hversion, h⟩ := Result.of_bind_ok h
    obtain ⟨manifestDigest, hmanifest, h⟩ := Result.of_bind_ok h
    obtain ⟨payloadDigest, hpayload, h⟩ := Result.of_bind_ok h
    obtain ⟨objectDigest, hobject, h⟩ := Result.of_bind_ok h
    split at h
    · rename_i kindChoice nameSlug hchoice hslug
      obtain rfl := Except.ok.inj h
      rw [required_string] at hkind hname htext
      rw [required_digest] at hmanifest hpayload hobject
      rw [artifactKind_choice] at hchoice
      rw [slugOf_eq_some] at hslug
      subst hchoice hslug
      have hsame := str_of_parseSemver hversion
      rw [hsame]
      refine ⟨⟨⟨version, hversion⟩, hmanifest.2, hpayload.2, hobject.2⟩, fields, hfields, ?_⟩
      simp [Holds, artifactTable, hkind, hname, htext, hmanifest, hpayload, hobject]
    · exact absurd h (by simp [stateError, error])
  · rintro ⟨⟨⟨version, hversion⟩, hmanifest, hpayload, hobject⟩, fields, hfields, hholds⟩
    simp only [Holds, artifactTable, List.forall_mem_cons, List.not_mem_nil, false_implies, implies_true, and_true]
      at hholds
    obtain ⟨gkind, gname, gversion, gmanifest, gpayload, gobject⟩ := hholds
    have hkind : oneLine artifact.identity.kind.value = true := by cases artifact.identity.kind <;> decide
    simp only [parseArtifact, hfields, bind, Except.bind, required_string.mpr ⟨gkind, hkind⟩,
      required_string.mpr ⟨gname, Slug.oneLine artifact.identity.name⟩, required_string.mpr ⟨gversion, oneLine_version hversion⟩,
      hversion, required_digest.mpr ⟨gmanifest, hmanifest⟩, required_digest.mpr ⟨gpayload, hpayload⟩,
      required_digest.mpr ⟨gobject, hobject⟩, artifactKind_choice.mpr rfl, slugOf_eq_some.mpr rfl,
      str_of_parseSemver hversion]
    rfl

/-! ## Effects -/

/-- What the checks of an effect leave for the reader of its fields. -/
structure EffectLines (effect : EffectProof) : Prop where
  destination : oneLine effect.destination = true
  restoresFrom : ∀ path, effect.restoresFrom = some path → oneLine path = true
  sourcePath : ∀ path, effect.sourcePath = some path → isSafeRelative path = true
  jsonPath : ∀ path, effect.jsonPath = some path → oneLine path = true
  mergeMode : effect.mergeMode.isSome = (effect.kind == .mergeJson)
  linkTarget : ∀ target, effect.linkTarget = some target → oneLine target = true
  linkSemantics : effect.linkSemantics.isSome = effect.kind.isLink

omit [StandardLibrary] in
theorem ok_of_refuse {p : Prop} [Decidable p] {message : String} {next : Unit → Except String Unit}
    {rest : Except String Unit}
    (h : (if p then throw message >>= next else rest) = .ok ()) : ¬ p ∧ rest = .ok () := by
  split at h
  · exact absurd h (by simp [throw, throwThe, MonadExceptOf.throw, bind, Except.bind])
  · exact ⟨‹_›, h⟩

theorem effect_lines {effect : EffectProof} (h : effect.check = .ok ()) : EffectLines effect := by
  unfold EffectProof.check at h
  extract_lets copied linked merged sourced restored at h
  obtain ⟨hdestination, h⟩ := ok_of_refuse h
  have hrestored : (∀ path, effect.restoresFrom = some path → oneLine path = true) ∧ sourced () = .ok () := by
    simp only [restored] at h
    split at h
    · rename_i path hpath
      obtain ⟨hpassed, h⟩ := ok_of_refuse h
      refine ⟨fun other hother => ?_, h⟩
      rw [hpath] at hother
      obtain rfl := Option.some.inj hother
      simp only [Bool.or_eq_true, not_or, Bool.not_eq_true', Bool.not_eq_false] at hpassed
      exact hpassed.1.2
    · rename_i hnone
      exact ⟨fun path hpath => absurd (hnone.symm.trans hpath) (by simp), h⟩
  have hsourced : (∀ path, effect.sourcePath = some path → isSafeRelative path = true) ∧ merged () = .ok () := by
    have h := hrestored.2
    simp only [sourced] at h
    split at h
    · rename_i path hpath
      obtain ⟨hpassed, h⟩ := ok_of_refuse h
      refine ⟨fun other hother => ?_, h⟩
      rw [hpath] at hother
      obtain rfl := Option.some.inj hother
      simpa using hpassed
    · rename_i hnone
      exact ⟨fun path hpath => absurd (hnone.symm.trans hpath) (by simp), h⟩
  have hmerged : (∀ path, effect.jsonPath = some path → oneLine path = true) ∧
      effect.mergeMode.isSome = (effect.kind == .mergeJson) ∧ linked () = .ok () := by
    have h := hsourced.2
    simp only [merged] at h
    split at h
    · rename_i hkind
      obtain ⟨hpassed, h⟩ := ok_of_refuse h
      simp only [Bool.or_eq_true, not_or, Bool.not_eq_true', Bool.not_eq_false] at hpassed
      obtain ⟨⟨⟨⟨⟨hline, hmode⟩, _⟩, _⟩, _⟩, _⟩ := hpassed
      refine ⟨fun path hpath => ?_, ?_, h⟩
      · rw [hpath, Option.getD_some] at hline
        exact hline
      · rw [hkind]
        simpa [Option.isSome_iff_ne_none] using hmode
    · rename_i hkind
      obtain ⟨hpassed, h⟩ := ok_of_refuse h
      obtain ⟨_, h⟩ := ok_of_refuse h
      simp only [Bool.or_eq_true, not_or, Bool.not_eq_true] at hpassed
      obtain ⟨⟨⟨hpath, hmode⟩, _⟩, _⟩ := hpassed
      refine ⟨fun path hsome => ?_, ?_, h⟩
      · rw [hsome] at hpath
        exact absurd hpath (by simp)
      · rw [hmode]
        simpa using hkind
  have hlinked : (∀ target, effect.linkTarget = some target → oneLine target = true) ∧
      effect.linkSemantics.isSome = effect.kind.isLink := by
    have h := hmerged.2.2
    simp only [linked] at h
    split at h
    · rename_i hkind
      split at h
      · exact absurd h (by simp [throw, throwThe, MonadExceptOf.throw, bind, Except.bind])
      · rename_i target htarget
        obtain ⟨hpassed, _⟩ := ok_of_refuse h
        simp only [Bool.or_eq_true, not_or, Bool.not_eq_true', Bool.not_eq_false] at hpassed
        obtain ⟨⟨⟨⟨⟨_, hline⟩, _⟩, _⟩, _⟩, hsemantics⟩ := hpassed
        refine ⟨fun other hother => ?_, ?_⟩
        · rw [htarget] at hother
          obtain rfl := Option.some.inj hother
          exact hline
        · rw [hkind]
          simpa [Option.isSome_iff_ne_none] using hsemantics
    · rename_i hkind
      obtain ⟨hpassed, _⟩ := ok_of_refuse h
      simp only [Bool.or_eq_true, not_or, Bool.not_eq_true] at hpassed
      refine ⟨fun target htarget => ?_, ?_⟩
      · rw [htarget] at hpassed
        exact absurd hpassed.1 (by simp)
      · rw [hpassed.2]
        simpa using hkind
  exact ⟨by simpa using hdestination, hrestored.1, hsourced.1, hmerged.1, hmerged.2.1, hlinked.1, hlinked.2⟩

theorem oneLine_sourcePath {path : String} (hsafe : isSafeRelative path = true) (hplain : pyStrip path = path) :
    oneLine path = true := by
  unfold isSafeRelative parseRelativePath at hsafe
  split at hsafe
  · exact absurd hsafe (by simp [invalidPath, error, Except.toBool])
  · rename_i hne
    split at hsafe
    · exact absurd hsafe (by simp [invalidPath, error, Except.toBool])
    · split at hsafe
      · exact absurd hsafe (by simp [invalidPath, error, Except.toBool])
      · split at hsafe
        · exact absurd hsafe (by simp [invalidPath, error, Except.toBool])
        · split at hsafe
          · exact absurd hsafe (by simp [invalidPath, error, Except.toBool])
          · rename_i hcontrol
            simp only [List.any_eq_true, not_exists, not_and, Bool.not_eq_true, Bool.or_eq_false_iff,
              decide_eq_false_iff_not] at hcontrol
            have hreturn : pyIn "\r" path = false :=
              pyIn_eq_false (List.mem_singleton_self '\r') fun hmem => absurd (hcontrol _ hmem).1 (by decide)
            have hnewline : pyIn "\n" path = false :=
              pyIn_eq_false (List.mem_singleton_self '\n') fun hmem => absurd (hcontrol _ hmem).1 (by decide)
            simp [oneLine, hne, hplain, hreturn, hnewline]

/-- The fields of an effect that hold a text. -/
def effectTexts (effect : EffectProof) : Fields :=
  [("kind", some (.str effect.kind.value)), ("destination", some (.str effect.destination)),
    ("actual_mode", some (.str effect.actualMode.value)),
    ("installed_digest", some (.str effect.installedDigest.str)),
    ("source_path", effect.sourcePath.map .str), ("json_path", effect.jsonPath.map .str),
    ("merge_mode", effect.mergeMode.map fun mode => .str (mergeModeValue mode)),
    ("identity_digest", effect.identityDigest.map fun digest => .str digest.str),
    ("link_target", effect.linkTarget.map .str),
    ("link_semantics", effect.linkSemantics.map fun semantics => .str (linkSemanticsValue semantics)),
    ("restores_from", effect.restoresFrom.map .str)]

/-- A flag is read as unset where the field is missing. -/
def HoldsFlag (fields : Dict) (name : String) (flag : Bool) : Prop :=
  ∃ found : Option Bool, fields.get? name = found.map .bool ∧ found.getD false = flag

omit [StandardLibrary] in
theorem optional_flag {fields : Dict} {name label : String} {found : Option Bool} :
    optionalField fields name (parseBoolean label) = .ok found ↔ fields.get? name = found.map .bool := by
  rw [(decodes_boolean label).optional]
  simp

omit [StandardLibrary] in
/-- A text is the one of the choice when the constructor checks whether there is one. -/
theorem eq_map_of_optionalChoice {α : Type} {all : List α} {value : α → String}
    (hchoice : ∀ {text : String} {choice : α}, choiceOf all value text = some choice ↔ text = value choice)
    {expected : Bool} {other : α} {text : Option String}
    (h : (optionalChoice all value expected other text).isSome = expected) :
    text = (optionalChoice all value expected other text).map value := by
  cases text with
  | none => rfl
  | some text =>
      unfold optionalChoice at h ⊢
      rw [Option.bind_some] at h ⊢
      cases hfound : choiceOf all value text with
      | some choice => rw [hchoice.mp hfound]; rfl
      | none =>
          rw [hfound] at h
          cases expected <;> exact absurd h (by simp)

theorem parseEffect_eq_ok {effect : EffectProof} :
    parseEffect value = .ok effect ↔
      EffectAccepted effect ∧ PlainSourcePath effect ∧ ∃ fields,
        objectFields effectFields optionalEffectFields value = .ok fields ∧ Holds fields (effectTexts effect) ∧
          (fields.get? "identity_evidence").getD .null = effect.identityEvidence ∧
          HoldsFlag fields "created_destination" effect.createdDestination ∧
          HoldsFlag fields "overwrote" effect.overwrote := by
  constructor
  · intro h
    unfold parseEffect at h
    obtain ⟨fields, hfields, h⟩ := Result.of_bind_ok h
    obtain ⟨kind, hkind, h⟩ := Result.of_bind_ok h
    obtain ⟨destination, hdestination, h⟩ := Result.of_bind_ok h
    obtain ⟨mode, hmode, h⟩ := Result.of_bind_ok h
    obtain ⟨installedDigest, hinstalled, h⟩ := Result.of_bind_ok h
    obtain ⟨sourcePath, hsource, h⟩ := Result.of_bind_ok h
    obtain ⟨jsonPath, hjson, h⟩ := Result.of_bind_ok h
    obtain ⟨mergeText, hmerge, h⟩ := Result.of_bind_ok h
    obtain ⟨linkTarget, htarget, h⟩ := Result.of_bind_ok h
    obtain ⟨linkText, hlink, h⟩ := Result.of_bind_ok h
    obtain ⟨restoresFrom, hrestores, h⟩ := Result.of_bind_ok h
    obtain ⟨identityDigest, hidentity, h⟩ := Result.of_bind_ok h
    obtain ⟨created, hcreated, h⟩ := Result.of_bind_ok h
    obtain ⟨overwrote, hoverwrote, h⟩ := Result.of_bind_ok h
    split at h
    · rename_i kindChoice modeChoice hkindChoice hmodeChoice
      obtain ⟨hcheck, rfl⟩ := constructed_eq_ok.mp h
      rw [required_string] at hkind hdestination hmode
      rw [required_digest] at hinstalled
      rw [optional_string] at hsource hjson hmerge htarget hlink hrestores
      rw [optional_digest] at hidentity
      rw [optional_flag] at hcreated hoverwrote
      rw [effectKind_choice] at hkindChoice
      rw [installMode_choice] at hmodeChoice
      subst hkindChoice hmodeChoice
      have hlines := effect_lines hcheck
      have hmergeText := eq_map_of_optionalChoice mergeMode_choice hlines.mergeMode
      have hlinkText := eq_map_of_optionalChoice linkSemantics_choice hlines.linkSemantics
      refine ⟨⟨hcheck, hinstalled.2, hidentity.2⟩, ?_, fields, hfields, ?_, rfl, ⟨created, hcreated, rfl⟩,
        ⟨overwrote, hoverwrote, rfl⟩⟩
      · intro path hpath
        have hline := hsource.2 path hpath
        simp only [oneLine, Bool.and_eq_true, beq_iff_eq] at hline
        exact hline.1.1.2.symm
      · have hmergeField := hmerge.1.trans (congrArg (Option.map Json.str) hmergeText)
        have hlinkField := hlink.1.trans (congrArg (Option.map Json.str) hlinkText)
        rw [Option.map_map] at hmergeField hlinkField
        simp only [Holds, effectTexts, List.forall_mem_cons, List.not_mem_nil, false_implies, implies_true, and_true]
        exact ⟨hkind.1, hdestination.1, hmode.1, hinstalled.1, hsource.1, hjson.1, hmergeField, hidentity.1, htarget.1,
          hlinkField, hrestores.1⟩
    · exact absurd h (by simp [stateError, error])
  · rintro ⟨⟨hcheck, hinstalled, hidentity⟩, hplain, fields, hfields, hholds, hevidence, ⟨created, gcreated, hcreated⟩,
      ⟨overwrote, goverwrote, hoverwrote⟩⟩
    simp only [Holds, effectTexts, List.forall_mem_cons, List.not_mem_nil, false_implies, implies_true, and_true]
      at hholds
    obtain ⟨gkind, gdestination, gmode, ginstalled, gsource, gjson, gmerge, gidentity, gtarget, glink, grestores⟩ := hholds
    have hlines := effect_lines hcheck
    have hkind : oneLine effect.kind.value = true := by cases effect.kind <;> decide
    have hmode : oneLine effect.actualMode.value = true := by cases effect.actualMode <;> decide
    have hsource (path : String) (hpath : effect.sourcePath = some path) : oneLine path = true :=
      oneLine_sourcePath (hlines.sourcePath path hpath) (hplain path hpath)
    have hmerge (text : String) (htext : effect.mergeMode.map mergeModeValue = some text) : oneLine text = true := by
      obtain ⟨mode, _, rfl⟩ := Option.map_eq_some_iff.mp htext
      cases mode <;> decide
    have hlink (text : String) (htext : effect.linkSemantics.map linkSemanticsValue = some text) :
        oneLine text = true := by
      obtain ⟨semantics, _, rfl⟩ := Option.map_eq_some_iff.mp htext
      cases semantics <;> decide
    have gmergeText : fields.get? "merge_mode" = (effect.mergeMode.map mergeModeValue).map .str := by
      rw [gmerge, Option.map_map]
      rfl
    have glinkText : fields.get? "link_semantics" = (effect.linkSemantics.map linkSemanticsValue).map .str := by
      rw [glink, Option.map_map]
      rfl
    simp only [parseEffect, hfields, bind, Except.bind, required_string.mpr ⟨gkind, hkind⟩,
      required_string.mpr ⟨gdestination, hlines.destination⟩, required_string.mpr ⟨gmode, hmode⟩,
      required_digest.mpr ⟨ginstalled, hinstalled⟩, optional_string.mpr ⟨gsource, hsource⟩,
      optional_string.mpr ⟨gjson, hlines.jsonPath⟩, optional_string.mpr ⟨gmergeText, hmerge⟩,
      optional_string.mpr ⟨gtarget, hlines.linkTarget⟩, optional_string.mpr ⟨glinkText, hlink⟩,
      optional_string.mpr ⟨grestores, hlines.restoresFrom⟩, optional_digest.mpr ⟨gidentity, hidentity⟩,
      optional_flag.mpr gcreated, optional_flag.mpr goverwrote, effectKind_choice.mpr rfl,
      installMode_choice.mpr rfl, optionalChoice_map mergeMode_choice, optionalChoice_map linkSemantics_choice,
      hevidence, hcreated, hoverwrote]
    exact constructed_eq_ok.mpr ⟨hcheck, rfl⟩

/-! ## Records -/

omit [StandardLibrary] in
theorem slashJoin_splitChar (text : String) : slashJoin (splitChar '/' text) = text := by
  refine String.toList_inj.mp ?_
  rw [slashJoin_toList, splitChar, texts_ofList, List.intercalate_splitOn]

omit [StandardLibrary] in
theorem splitChar_slashJoin {segments : List String} (hno : ∀ s ∈ segments, '/' ∉ s.toList) (hne : segments ≠ []) :
    splitChar '/' (slashJoin segments) = segments := by
  have hsplit : List.splitOn '/' (slashJoin segments).toList = segments.map String.toList := by
    rw [slashJoin_toList]
    refine List.splitOn_intercalate '/' ?_ (by simpa using hne)
    intro chars hchars
    obtain ⟨s, hs, rfl⟩ := List.mem_map.mp hchars
    exact hno s hs
  rw [splitChar, hsplit]
  simp

omit [StandardLibrary] in
theorem coordinate_parts_iff {source : SourceAlias} {identity : ArtifactIdentity} :
    splitChar '/' text = [source.value, identity.kind.value, identity.name.value] ↔
      text = (⟨source, identity, none⟩ : ArtifactCoordinate).str := by
  have hjoin : slashJoin [source.value, identity.kind.value, identity.name.value] =
      (⟨source, identity, none⟩ : ArtifactCoordinate).str := by
    simp [slashJoin, ArtifactCoordinate.str, ArtifactIdentity.str, String.append_assoc]
  constructor
  · intro h
    rw [← slashJoin_splitChar text, h, hjoin]
  · rintro rfl
    rw [← hjoin]
    refine splitChar_slashJoin ?_ (by simp)
    simp only [List.forall_mem_cons, List.not_mem_nil, false_implies, implies_true, and_true]
    exact ⟨source.slash_not_mem, identity.kind.slash_not_mem, identity.name.slash_not_mem⟩

omit [StandardLibrary] in
theorem oneLine_coordinate (record : InstallationRecord) : oneLine record.coordinate.str = true := by
  refine oneLine_of_not_space ?_ fun c hc => ?_
  · simp [InstallationRecord.coordinate, ArtifactCoordinate.str]
  · have hkind : ∀ d ∈ record.artifact.identity.kind.value.toList, isSpace d = false := by
      cases record.artifact.identity.kind <;> decide
    have hslash : ∀ d ∈ "/".toList, isSpace d = false := by decide
    simp only [InstallationRecord.coordinate, ArtifactCoordinate.str, ArtifactIdentity.str, String.append_empty,
      String.toList_append, List.mem_append] at hc
    rcases hc with (halias | hc) | (hc | hc) | hname
    · exact Slug.not_space _ c halias
    · exact hslash c hc
    · exact hkind c hc
    · exact hslash c hc
    · exact Slug.not_space _ c hname

omit [StandardLibrary] in
theorem recordMemoryMode_eq_ok {text : Option String} {mode : Option MemoryMode} :
    recordMemoryMode text = .ok mode ↔ text = mode.map memoryModeValue := by
  cases text with
  | none => cases mode <;> simp [recordMemoryMode]
  | some text =>
      unfold recordMemoryMode
      dsimp only
      cases hfound : choiceOf memoryModes memoryModeValue text with
      | some choice =>
          constructor
          · intro h
            obtain rfl := Except.ok.inj h
            rw [memoryMode_choice.mp hfound]
            rfl
          · intro h
            obtain ⟨other, rfl, hother⟩ := Option.map_eq_some_iff.mp h.symm
            rw [memoryMode_choice.mpr hother.symm] at hfound
            rw [Option.some.inj hfound]
      | none =>
          refine iff_of_false (by simp [recordInvalid, stateError, error]) fun h => ?_
          obtain ⟨other, rfl, hother⟩ := Option.map_eq_some_iff.mp h.symm
          rw [memoryMode_choice.mpr hother.symm] at hfound
          exact absurd hfound (by simp)

/-- The fields of a record that hold a text or a number. -/
def recordTexts (record : InstallationRecord) : Fields :=
  [("coordinate", some (.str record.coordinate.str)), ("profile", some (.str record.profile.value)),
    ("profile_version", some (.int record.profileVersion)), ("scope", some (.str record.scope.value)),
    ("requested_mode", some (.str record.requestedMode.value)),
    ("memory_mode", record.memoryMode.map fun mode => .str (memoryModeValue mode)),
    ("setup_state_ref", record.setupStateRef.map .str)]

omit [StandardLibrary] in
theorem required_eq_ok {α : Type} {parse : Json → Result α} (hnull : ∀ x, parse .null ≠ .ok x) {fields : Dict}
    {name : String} {x : α} :
    requiredField fields name parse = .ok x ↔ ∃ value, fields.get? name = some value ∧ parse value = .ok x := by
  unfold requiredField
  cases fields.get? name with
  | none => simpa using hnull x
  | some value => simp

omit [StandardLibrary] in
theorem parseSource_null (x : SourceEvidence) : parseSource services .null ≠ .ok x := by
  intro h
  obtain ⟨_, fields, hfields, _⟩ := parseSource_eq_ok.mp h
  exact absurd (objectFields_eq_ok hfields) (by simp)

omit [StandardLibrary] in
theorem parseArtifact_null (x : ArtifactEvidence) : parseArtifact .null ≠ .ok x := by
  intro h
  obtain ⟨_, fields, hfields, _⟩ := parseArtifact_eq_ok.mp h
  exact absurd (objectFields_eq_ok hfields) (by simp)

theorem record_checked {record : InstallationRecord} (h : record.check = .ok ()) :
    1 ≤ record.profileVersion ∧ record.profileVersion ≤ 2 ^ 63 - 1 ∧ record.effects ≠ [] := by
  unfold InstallationRecord.check at h
  extract_lets placed at h
  obtain ⟨hpassed, _⟩ := ok_of_refuse h
  simp only [Bool.or_eq_true, not_or, decide_eq_true_eq, List.isEmpty_iff] at hpassed
  exact ⟨by omega, by omega, hpassed.1.2⟩

theorem parseRecord_eq_ok {record : InstallationRecord} :
    parseRecord services value = .ok record ↔
      record.check = .ok () ∧ (∀ ref, record.setupStateRef = some ref → isSetupRef ref = true) ∧
        ∃ fields source artifact items,
          objectFields recordFields ["memory_mode", "setup_state_ref"] value = .ok fields ∧
          Holds fields (recordTexts record) ∧ fields.get? "source" = some source ∧
          parseSource services source = .ok record.source ∧ fields.get? "artifact" = some artifact ∧
          parseArtifact artifact = .ok record.artifact ∧ fields.get? "effects" = some (.arr items) ∧
          items.mapM parseEffect = .ok record.effects := by
  constructor
  · intro h
    unfold parseRecord at h
    obtain ⟨fields, hfields, h⟩ := Result.of_bind_ok h
    obtain ⟨coordinate, hcoordinate, h⟩ := Result.of_bind_ok h
    obtain ⟨profile, hprofile, h⟩ := Result.of_bind_ok h
    obtain ⟨scope, hscope, h⟩ := Result.of_bind_ok h
    obtain ⟨mode, hmode, h⟩ := Result.of_bind_ok h
    dsimp only at h
    split at h
    · exact absurd h (by simp [stateError, error])
    · obtain ⟨source, hsource, h⟩ := Result.of_bind_ok h
      obtain ⟨artifact, hartifact, h⟩ := Result.of_bind_ok h
      obtain ⟨version, hversion, h⟩ := Result.of_bind_ok h
      obtain ⟨items, hitems, h⟩ := Result.of_bind_ok h
      split at h
      · exact absurd h (by simp [stateError, error])
      · obtain ⟨effects, heffects, h⟩ := Result.of_bind_ok h
        obtain ⟨ref, href, h⟩ := Result.of_bind_ok h
        obtain ⟨memoryText, hmemory, h⟩ := Result.of_bind_ok h
        unfold constructRecord at h
        obtain ⟨memoryMode, hmemoryMode, h⟩ := Result.of_bind_ok h
        split at h
        · rename_i profileSlug scopeChoice modeChoice hprofileSlug hscopeChoice hmodeChoice
          split at h
          · rename_i hparts
            obtain ⟨hcheck, rfl⟩ := constructed_eq_ok.mp h
            rw [required_string] at hcoordinate hprofile hscope hmode
            rw [optional_string] at href hmemory
            rw [(decodes_integer _).required (by simp)] at hversion
            rw [(decodes_array _).required (by simp)] at hitems
            rw [required_eq_ok parseSource_null] at hsource
            rw [required_eq_ok parseArtifact_null] at hartifact
            rw [slugOf_eq_some] at hprofileSlug
            rw [installScope_choice] at hscopeChoice
            rw [installMode_choice] at hmodeChoice
            rw [recordMemoryMode_eq_ok] at hmemoryMode
            subst hprofileSlug hscopeChoice hmodeChoice hmemoryMode
            obtain ⟨sourceValue, gsource, hsource⟩ := hsource
            obtain ⟨artifactValue, gartifact, hartifact⟩ := hartifact
            refine ⟨hcheck, fun ref hsome => ?_, fields, sourceValue, artifactValue, items, hfields, ?_, gsource, hsource,
              gartifact, hartifact, hitems.1, heffects⟩
            · have hrefs := hparts.2.2
              dsimp only at hsome
              rw [hsome, Option.all_some] at hrefs
              exact hrefs
            · have hversionField := hversion.1
              rw [← Int.toNat_of_nonneg (show 0 ≤ version by omega)] at hversionField
              have hmemoryField := hmemory.1
              rw [Option.map_map] at hmemoryField
              have htext := coordinate_parts_iff.mp hparts.1
              simp only [Holds, recordTexts, List.forall_mem_cons, List.not_mem_nil, false_implies, implies_true,
                and_true]
              exact ⟨hcoordinate.1.trans (congrArg (fun text => some (Json.str text)) htext), hprofile.1, hversionField,
                hscope.1, hmode.1, hmemoryField, href.1⟩
          · exact absurd h (by simp [recordInvalid, stateError, error])
        · exact absurd h (by simp [recordInvalid, stateError, error])
  · rintro ⟨hcheck, hrefs, fields, source, artifact, items, hfields, hholds, gsource, hsource, gartifact, hartifact,
      gitems, heffects⟩
    obtain ⟨hversion, _, hnonempty⟩ := record_checked hcheck
    simp only [Holds, recordTexts, List.forall_mem_cons, List.not_mem_nil, false_implies, implies_true, and_true]
      at hholds
    obtain ⟨gcoordinate, gprofile, gversion, gscope, gmode, gmemory, gref⟩ := hholds
    have hscope : oneLine record.scope.value = true := by cases record.scope <;> decide
    have hmode : oneLine record.requestedMode.value = true := by cases record.requestedMode <;> decide
    have hmemory (text : String) (htext : record.memoryMode.map memoryModeValue = some text) : oneLine text = true := by
      obtain ⟨mode, _, rfl⟩ := Option.map_eq_some_iff.mp htext
      cases mode <;> decide
    have gmemoryText : fields.get? "memory_mode" = (record.memoryMode.map memoryModeValue).map .str := by
      rw [gmemory, Option.map_map]
      rfl
    have hparts : splitChar '/' record.coordinate.str = [record.source.sourceAlias.value,
        record.artifact.identity.kind.value, record.artifact.identity.name.value] := coordinate_parts_iff.mpr rfl
    have hitems : items ≠ [] := by
      rintro rfl
      exact hnonempty (Except.ok.inj heffects).symm
    have hrefAll : record.setupStateRef.all isSetupRef = true := by
      cases href : record.setupStateRef with
      | none => rfl
      | some ref => exact hrefs ref href
    simp only [parseRecord, hfields, bind, Except.bind,
      required_string.mpr ⟨gcoordinate, oneLine_coordinate record⟩,
      required_string.mpr ⟨gprofile, Slug.oneLine record.profile⟩, required_string.mpr ⟨gscope, hscope⟩,
      required_string.mpr ⟨gmode, hmode⟩, hparts, List.length_cons, List.length_nil,
      (required_eq_ok parseSource_null).mpr ⟨source, gsource, hsource⟩,
      (required_eq_ok parseArtifact_null).mpr ⟨artifact, gartifact, hartifact⟩,
      ((decodes_integer _).required (by simp)).mpr ⟨gversion, trivial⟩,
      ((decodes_array _).required (by simp)).mpr ⟨gitems, trivial⟩, hitems, heffects,
      optional_string.mpr ⟨gref, fun ref hsome => oneLine_setupRef (hrefs ref hsome)⟩,
      optional_string.mpr ⟨gmemoryText, hmemory⟩]
    simp only [constructRecord, bind, Except.bind, recordMemoryMode_eq_ok.mpr rfl, slugOf_eq_some.mpr rfl,
      installScope_choice.mpr rfl, installMode_choice.mpr rfl, hrefAll]
    have hpositive : (1 : Int) ≤ record.profileVersion := by exact_mod_cast hversion
    simp only [ne_eq, Nat.reduceAdd, not_true_eq_false, if_false, and_true, hpositive, if_true,
      Int.toNat_natCast]
    exact constructed_eq_ok.mpr ⟨hcheck, rfl⟩

end AgentArtifacts.Manifest
