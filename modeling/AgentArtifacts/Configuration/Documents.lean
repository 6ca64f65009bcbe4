import AgentArtifacts.Configuration.Schema
import AgentArtifacts.Protocol.Documents
import AgentArtifacts.Protocol.Printing

/-!
# Configuration documents as bytes

The user configuration is read back from its canonical bytes. The organization policy is
read back exactly where folding a host keeps it within the bound on texts and no
repository has the suffix twice.
-/

namespace AgentArtifacts.Configuration

open Manifest (Fields present jsonObject requiredField optionalField choiceOf slugOf sourceKinds fits_jsonObject_iff
  mapM_written)
open Registry (Capability sortedBy sortedSet perm_sortedBy mem_sortedBy)
open Schema (ReadsBack TextOf Shape Rereads Kept kept_required kept_optional kept_defaulted kept_written readsBack_object refuse asArray
  asObject objectOf validateObjectFields defaultedField integerField schemaVersion parseCapability stringArray
  refuse_eq_ok asArray_eq_ok asObject_eq_ok textOf_slug textOf_capability readsBack_integer readsBack_schemaVersion
  readsBack_sortedItems sortedBy_sortedBy fits_arr fits_obj stringArray_map objectOf_written body_of_objectOf fits_written
  members_of_object validateObjectFields_eq_ok)

/-! ## Fields -/

variable {value : Json}

theorem stringField_eq_ok_iff {code : DiagnosticCode} {label text : String} :
    stringField code label value = .ok text ↔ value = .str text ∧ oneLine text = true := by
  constructor
  · intro h
    unfold stringField at h
    split at h
    · obtain ⟨hplain, h⟩ := Result.of_check_ok h
      obtain ⟨hline, h⟩ := Result.of_check_ok h
      obtain rfl := Except.ok.inj h
      rw [not_or, not_not] at hplain
      rw [Bool.or_eq_true, not_or, Bool.not_eq_true, Bool.not_eq_true] at hline
      refine ⟨rfl, ?_⟩
      unfold oneLine
      simp [hplain.1, ← hplain.2, hline.1, hline.2]
    · cases h
  · rintro ⟨rfl, h⟩
    unfold oneLine at h
    simp only [Bool.and_eq_true, bne_iff_ne, beq_iff_eq, Bool.not_eq_true'] at h
    obtain ⟨⟨⟨hne, hplain⟩, hreturn⟩, hnewline⟩ := h
    unfold stringField
    simp [hne, ← hplain, hreturn, hnewline]

theorem stringField_eq_ok {code : DiagnosticCode} {label text : String}
    (h : stringField code label value = .ok text) : value = .str text := (stringField_eq_ok_iff.mp h).1

theorem readsBack_stringField (code : DiagnosticCode) (label : String) : ReadsBack (stringField code label) .str :=
  ReadsBack.of_exact fun _ _ h => stringField_eq_ok h

theorem readsBack_booleanField (code : DiagnosticCode) (label : String) : ReadsBack (booleanField code label) .bool := by
  refine ReadsBack.of_exact fun value flag h => ?_
  unfold booleanField at h
  split at h
  · rw [Except.ok.inj h]
  · cases h

theorem readsBack_textField {α : Type} {read : String → Result α} {text : α → String} (h : TextOf read text)
    (code : DiagnosticCode) (label : String) : ReadsBack (textField code label read) fun x => .str (text x) := by
  refine ReadsBack.of_exact fun value x hread => ?_
  obtain ⟨raw, hraw, hx⟩ := Result.of_bind_ok hread
  rw [stringField_eq_ok hraw, h raw x hx]

theorem readsBack_aliasField (code : DiagnosticCode) (label : String) :
    ReadsBack (aliasField code label) fun name => .str name.value :=
  readsBack_textField (textOf_slug _ _) _ _

theorem readsBack_aliasArray (code : DiagnosticCode) (label : String) :
    ReadsBack (aliasArray code label) fun names => stringArray (names.map Slug.value) := by
  simp only [stringArray_map]
  refine readsBack_sortedItems (readsBack_aliasField _ _) _ _ ?_
  intro left right hperm
  simp only [hperm.nodup_iff]

/-! ## Sources -/

section Sources

variable [TextRuntime]

omit [TextRuntime] in
theorem shape_localSource : Shape localSourceFields [] localSourceTable where
  names source := by simp [localSourceTable, localSourceFields]
  nodup source := by simp [localSourceTable]
  found := by simp [localSourceTable, localSourceFields]
  short := by decide

omit [TextRuntime] in
theorem shape_gitSource : Shape gitSourceFields ["ref"] gitSourceTable where
  names source := by simp [gitSourceTable, gitSourceFields]
  nodup source := by simp [gitSourceTable]
  found := by simp [gitSourceTable, gitSourceFields]
  short := by decide

variable {kind : SourceKind}

/-- A source is as it was entered. -/
theorem source_of_input {rawAlias : String} {location : String} {ref : Option String}
    {found : ConfiguredSource} (h : configuredSourceFromInput rawAlias kind location ref = .ok found) :
    found.sourceAlias.value = rawAlias ∧ found.kind = kind ∧ found.location = location ∧
      (kind = .sourceLocal → found.ref = none) ∧ (kind ≠ .sourceLocal → found.ref = some (ref.getD "main")) := by
  obtain ⟨sourceAlias, halias, h1⟩ := Result.of_bind_ok h
  obtain ⟨raw, hraw, hslug⟩ := Result.of_bind_ok halias
  have hsame : sourceAlias.value = rawAlias := by
    rw [textOf_slug _ _ _ _ hslug]
    exact (Json.str.inj (stringField_eq_ok hraw)).symm
  have hgit (kind : SourceKind) (hkind : kind ≠ .sourceLocal) (h : (do
      let url ← stringField configInvalid "source URL" (.str location)
      let ref ← stringField configInvalid "source ref" (.str (ref.getD "main"))
      refuse (gitLocationParts url).isNone configInvalid "source URL must be a safe credential-free Git location"
      refuse (!safeRef ref) configInvalid "source ref is unsafe"
      return (⟨sourceAlias, kind, url, some ref, true⟩ : ConfiguredSource)) = .ok found) :
      found.sourceAlias.value = rawAlias ∧ found.kind = kind ∧ found.location = location ∧
        (kind = .sourceLocal → found.ref = none) ∧ (kind ≠ .sourceLocal → found.ref = some (ref.getD "main")) := by
    obtain ⟨url, hurl, h2⟩ := Result.of_bind_ok h
    obtain ⟨checkedRef, href, h3⟩ := Result.of_bind_ok h2
    obtain ⟨safe, _, h4⟩ := Result.of_bind_ok h3
    obtain ⟨safeToo, _, h5⟩ := Result.of_bind_ok h4
    obtain rfl := Except.ok.inj h5
    refine ⟨hsame, rfl, (Json.str.inj (stringField_eq_ok hurl)).symm, fun hlocal => absurd hlocal hkind, fun _ => ?_⟩
    rw [Json.str.inj (stringField_eq_ok href)]
  cases kind with
  | sourceLocal =>
      obtain ⟨noRef, _, h2⟩ := Result.of_bind_ok h1
      obtain ⟨path, hpath, h3⟩ := Result.of_bind_ok h2
      obtain ⟨normal, _, h4⟩ := Result.of_bind_ok h3
      obtain rfl := Except.ok.inj h4
      exact ⟨hsame, rfl, (Json.str.inj (stringField_eq_ok hpath)).symm, fun _ => rfl, fun hgit => absurd rfl hgit⟩
  | registryGit => exact hgit _ (by decide) h1
  | sourceGit => exact hgit _ (by decide) h1

/-- A source that is valid is itself. -/
theorem validateConfiguredSource_eq_ok {source found : ConfiguredSource} (h : validateConfiguredSource source = .ok found)
    (hlocal : source.kind = .sourceLocal → source.ref = none) : found = source := by
  obtain ⟨hasRef, href, h1⟩ := Result.of_bind_ok h
  obtain ⟨parsed, hparsed, h2⟩ := Result.of_bind_ok h1
  obtain rfl := Except.ok.inj h2
  obtain ⟨halias, hkind, hlocation, hnone, hsome⟩ := source_of_input hparsed
  have hrefs : parsed.ref = source.ref := by
    by_cases hkindLocal : source.kind = .sourceLocal
    · rw [hnone hkindLocal, hlocal hkindLocal]
    · rw [hsome hkindLocal]
      have hpresent := refuse_eq_ok.mp href
      cases hsource : source.ref with
      | none => simp [hkindLocal, hsource] at hpresent
      | some ref => rfl
  have hsame := Manifest.slug_eq_of_value halias
  cases source
  simp_all

variable {value : Json}

omit [TextRuntime] in
theorem fits_text {depth : Nat} (h : Fits depth value) {text : String}
    (hshort : text.length ≤ maxStringLength) : Fits depth (.str text) := by
  have hdepth := (fits_iff_documentable.mp h).depth
  rw [Fits]
  exact ⟨by omega, hshort⟩

omit [TextRuntime] in
theorem length_kind (kind : SourceKind) : kind.value.length ≤ maxStringLength := by
  cases kind <;> decide

theorem readsBack_localSource :
    ReadsBack (objectOf configInvalid "source" false localSourceFields [] localSourceBody) fun source =>
      jsonObject (localSourceTable source) := by
  refine readsBack_object shape_localSource ?_
  intro depth fields source hfits hfound h
  obtain ⟨sourceAlias, halias, h1⟩ := Result.of_bind_ok h
  obtain ⟨enabled, henabled, h2⟩ := Result.of_bind_ok h1
  obtain ⟨location, hlocation, h3⟩ := Result.of_bind_ok h2
  obtain rfl := validateConfiguredSource_eq_ok h3 fun _ => rfl
  have kalias := kept_required (readsBack_aliasField _ _) hfits (hfound _ (by decide)) halias
  have kenabled := kept_required (readsBack_booleanField _ _) hfits (hfound _ (by decide)) henabled
  have klocation := kept_required (readsBack_stringField _ _) hfits (hfound _ (by decide)) hlocation
  refine ⟨?_, ?_⟩
  · simp only [localSourceTable, List.forall_mem_cons, Option.some.injEq, forall_eq']
    exact ⟨kalias.fits _ rfl, kenabled.fits _ rfl, fits_text (kalias.fits _ rfl) (length_kind _), klocation.fits _ rfl, by simp⟩
  · intro written hwritten _
    simp only [localSourceTable, List.forall_mem_cons] at hwritten
    obtain ⟨walias, wenabled, _, wlocation, _⟩ := hwritten
    simp only [localSourceBody, kalias.again _ walias, kenabled.again _ wenabled, klocation.again _ wlocation, bind,
      Except.bind]
    exact h3

theorem readsBack_gitSource (hkind : kind ≠ .sourceLocal) :
    ReadsBack (objectOf configInvalid "source" false gitSourceFields ["ref"] (gitSourceBody kind)) fun source =>
      jsonObject (gitSourceTable source) := by
  refine readsBack_object shape_gitSource ?_
  intro depth fields source hfits hfound h
  obtain ⟨sourceAlias, halias, h1⟩ := Result.of_bind_ok h
  obtain ⟨enabled, henabled, h2⟩ := Result.of_bind_ok h1
  obtain ⟨location, hlocation, h3⟩ := Result.of_bind_ok h2
  obtain ⟨ref, href, h4⟩ := Result.of_bind_ok h3
  obtain rfl := validateConfiguredSource_eq_ok h4 fun hlocal => absurd hlocal hkind
  have kalias := kept_required (readsBack_aliasField _ _) hfits (hfound _ (by decide)) halias
  have kenabled := kept_required (readsBack_booleanField _ _) hfits (hfound _ (by decide)) henabled
  have klocation := kept_required (readsBack_stringField _ _) hfits (hfound _ (by decide)) hlocation
  have kref := kept_written (readsBack_stringField _ _) hfits href (fits_text (kalias.fits _ rfl) (by decide)) rfl
  refine ⟨?_, ?_⟩
  · simp only [gitSourceTable, List.forall_mem_cons, Option.some.injEq, forall_eq', Option.map_some]
    exact ⟨kalias.fits _ rfl, kenabled.fits _ rfl, fits_text (kalias.fits _ rfl) (length_kind _), kref.fits _ rfl,
      klocation.fits _ rfl, by simp⟩
  · intro written hwritten _
    simp only [gitSourceTable, List.forall_mem_cons] at hwritten
    obtain ⟨walias, wenabled, _, wref, wlocation, _⟩ := hwritten
    simp only [gitSourceBody, kalias.again _ walias, kenabled.again _ wenabled, klocation.again _ wlocation,
      kref.again _ wref, bind, Except.bind]
    exact h4

omit [TextRuntime] in
theorem kind_of_object {required optional : List String} {body : Dict → Result ConfiguredSource}
    (hbody : ∀ fields source, body fields = .ok source → source.kind = kind)
    {found : ConfiguredSource} (h : objectOf configInvalid "source" false required optional body value = .ok found) :
    found.kind = kind := by
  obtain ⟨_, _, h1⟩ := Result.of_bind_ok h
  obtain ⟨fields, _, h2⟩ := Result.of_bind_ok h1
  exact hbody fields found h2

theorem kind_of_localBody (fields : Dict) (source : ConfiguredSource) (h : localSourceBody fields = .ok source) :
    source.kind = .sourceLocal := by
  obtain ⟨_, _, h1⟩ := Result.of_bind_ok h
  obtain ⟨_, _, h2⟩ := Result.of_bind_ok h1
  obtain ⟨_, _, h3⟩ := Result.of_bind_ok h2
  rw [validateConfiguredSource_eq_ok h3 fun _ => rfl]

theorem kind_of_gitBody (hkind : kind ≠ .sourceLocal) (fields : Dict) (source : ConfiguredSource)
    (h : gitSourceBody kind fields = .ok source) : source.kind = kind := by
  obtain ⟨_, _, h1⟩ := Result.of_bind_ok h
  obtain ⟨_, _, h2⟩ := Result.of_bind_ok h1
  obtain ⟨_, _, h3⟩ := Result.of_bind_ok h2
  obtain ⟨_, _, h4⟩ := Result.of_bind_ok h3
  rw [validateConfiguredSource_eq_ok h4 fun hlocal => absurd hlocal hkind]

/-- The kind is read first, from the object as it was written. -/
theorem source_of_kind {table : ConfiguredSource → Fields} {required optional : List String}
    {body : Dict → Result ConfiguredSource} (hshape : Shape required optional table) {found : ConfiguredSource}
    (htable : ("kind", some (.str found.kind.value)) ∈ table found)
    (hagain : objectOf configInvalid "source" false required optional body (jsonObject (table found)) = .ok found)
    (hbranch : (match found.kind with
      | .sourceLocal => objectOf configInvalid "source" false localSourceFields [] localSourceBody
      | kind => objectOf configInvalid "source" false gitSourceFields ["ref"] (gitSourceBody kind))
        = objectOf configInvalid "source" false required optional body) :
    source (jsonObject (table found)) = .ok found := by
  obtain ⟨written, hobject, _, hfields⟩ := members_of_object hshape configInvalid "source" found
  have hget := hfields _ htable
  have hkind : requiredField written "kind" (enumField sourceKinds SourceKind.value configInvalid "source kind") =
      .ok found.kind := by
    rw [requiredField, hget]
    cases found.kind <;> rfl
  simp only [source, hobject, hkind, bind, Except.bind]
  rw [← hagain, ← hbranch]
  cases found.kind <;> rfl

theorem readsBack_source : ReadsBack source sourceJson := by
  intro depth value found hfits h
  obtain ⟨entries, _, h1⟩ := Result.of_bind_ok h
  obtain ⟨kind, _, h2⟩ := Result.of_bind_ok h1
  have hgit (kind : SourceKind) (hkind : kind ≠ .sourceLocal)
      (h : objectOf configInvalid "source" false gitSourceFields ["ref"] (gitSourceBody kind) value = .ok found) :
      source (sourceJson found) = .ok found ∧ Fits depth (sourceJson found) := by
    obtain ⟨hagain, hwritten⟩ := readsBack_gitSource hkind hfits h
    have hsame := kind_of_object (kind_of_gitBody hkind) h
    have hjson : sourceJson found = jsonObject (gitSourceTable found) := by
      rw [sourceJson, if_neg (hsame ▸ hkind)]
    rw [hjson]
    refine ⟨source_of_kind shape_gitSource (by simp [gitSourceTable]) hagain ?_, hwritten⟩
    rw [hsame]
    cases kind <;> first | rfl | exact absurd rfl hkind
  cases kind with
  | sourceLocal =>
      obtain ⟨hagain, hwritten⟩ := readsBack_localSource hfits h2
      have hsame := kind_of_object kind_of_localBody h2
      have hjson : sourceJson found = jsonObject (localSourceTable found) := by
        rw [sourceJson, if_pos hsame]
      rw [hjson]
      refine ⟨source_of_kind shape_localSource (by simp [localSourceTable]) hagain ?_, hwritten⟩
      rw [hsame]
  | registryGit => exact hgit _ (by decide) h2
  | sourceGit => exact hgit _ (by decide) h2

theorem checkSources_of_perm {left right : List ConfiguredSource} (h : left.Perm right) :
    checkSources left = checkSources right := by
  simp only [checkSources, (h.map _).nodup_iff, ((h.filter _).map _).nodup_iff]

/-- The sources are written in order and read in that order. -/
theorem sources_again {depth : Nat} {found : List ConfiguredSource} (hfits : Fits depth value)
    (h : sources value = .ok found) (key : ConfiguredSource → String) :
    sources (.arr ((sortedBy key found).map sourceJson)) = .ok (sortedBy key found) ∧
      Fits depth (.arr ((sortedBy key found).map sourceJson)) := by
  obtain ⟨items, hitems, h1⟩ := Result.of_bind_ok h
  obtain ⟨values, hvalues, h2⟩ := Result.of_bind_ok h1
  obtain ⟨done, hdone, h3⟩ := Result.of_bind_ok h2
  obtain rfl := Except.ok.inj h3
  obtain rfl := asArray_eq_ok hitems
  have hmem (x : ConfiguredSource) (hx : x ∈ sortedBy key values) :
      source (sourceJson x) = .ok x ∧ Fits (depth + 1) (sourceJson x) := by
    obtain ⟨item, hitem, hparse⟩ := exists_of_forall₂_mem (Result.forall₂_of_mapM_ok hvalues) (mem_sortedBy.mp hx)
    exact readsBack_source ((fits_arr.mp hfits).2 item hitem) hparse
  have hagain : ((sortedBy key values).map sourceJson).mapM source = .ok (sortedBy key values) :=
    mapM_written fun x hx => (hmem x hx).1
  refine ⟨?_, fits_arr.mpr ⟨(fits_arr.mp hfits).1, ?_⟩⟩
  · simp only [sources, asArray, hagain, checkSources_of_perm (perm_sortedBy key values), hdone, bind, Except.bind]
    rfl
  · intro item hitem
    obtain ⟨x, hx, rfl⟩ := List.mem_map.mp hitem
    exact (hmem x hx).2

theorem nodup_of_sources {found : List ConfiguredSource} (h : sources value = .ok found) :
    (found.map (·.sourceAlias)).Nodup := by
  obtain ⟨_, _, h1⟩ := Result.of_bind_ok h
  obtain ⟨values, _, h2⟩ := Result.of_bind_ok h1
  obtain ⟨done, hdone, h3⟩ := Result.of_bind_ok h2
  obtain rfl := Except.ok.inj h3
  obtain ⟨_, haliases, _⟩ := Result.of_bind_ok hdone
  simpa using refuse_eq_ok.mp haliases

end Sources

/-! ## Settings -/

theorem shape_sync : Shape [] ["mode", "max_age_seconds"] syncTable where
  names sync := by simp [syncTable]
  nodup sync := by simp [syncTable]
  found := by simp
  short := by decide

/-- The age that the constructor of the settings takes. -/
def SoundSync (settings : SyncSettings) : Prop := 0 ≤ settings.maxAgeSeconds ∧ settings.maxAgeSeconds ≤ 2 ^ 31 - 1

theorem soundSync_of_read {settings : SyncSettings} (h : sync value = .ok settings) :
    SoundSync settings := by
  obtain ⟨_, _, h1⟩ := Result.of_bind_ok h
  obtain ⟨_, _, h2⟩ := Result.of_bind_ok h1
  obtain ⟨mode, _, h3⟩ := Result.of_bind_ok h2
  obtain ⟨age, _, h4⟩ := Result.of_bind_ok h3
  obtain ⟨_, hbounded, h5⟩ := Result.of_bind_ok h4
  obtain rfl := Except.ok.inj h5
  simpa [SoundSync] using refuse_eq_ok.mp hbounded

theorem SoundSync.read {settings : SyncSettings} (h : SoundSync settings) :
    sync (jsonObject (syncTable settings)) = .ok settings := by
  refine objectOf_written shape_sync fun written hwritten => ?_
  simp only [syncTable, List.forall_mem_cons] at hwritten
  obtain ⟨wage, wmode, _⟩ := hwritten
  have hmode : defaultedField written "mode" .auto (enumField [.auto, .manual] SyncMode.value configInvalid "sync mode") =
      .ok settings.mode := by
    rw [defaultedField, wmode]
    cases settings.mode <;> rfl
  have hage : defaultedField written "max_age_seconds" 900 (integerField configInvalid "sync max age") =
      .ok settings.maxAgeSeconds := by
    rw [defaultedField, wage]
    rfl
  have hbounded : decide (¬ (0 ≤ settings.maxAgeSeconds ∧ settings.maxAgeSeconds ≤ 2 ^ 31 - 1)) = false :=
    decide_eq_false (not_not.mpr h)
  simp only [syncBody, hmode, hage, hbounded, refuse, bind, Except.bind]
  rfl

theorem SoundSync.fits {settings : SyncSettings} (h : SoundSync settings) : Fits 1 (jsonObject (syncTable settings)) := by
  refine fits_written shape_sync (by decide) ?_
  simp only [syncTable, List.forall_mem_cons, Option.some.injEq, forall_eq']
  refine ⟨?_, ?_, by simp⟩
  · rw [Fits, JsonText.InRange]
    obtain ⟨hleast, hmost⟩ := h
    exact ⟨by decide, by omega, by omega⟩
  · rw [Fits]
    exact ⟨by decide, by cases settings.mode <;> decide⟩

theorem shape_reporting : Shape [] ["mode", "destination"] reportingTable where
  names reporting := by simp [reportingTable]
  nodup reporting := by simp [reportingTable]
  found := by simp
  short := by decide

theorem aliasField_written (code : DiagnosticCode) (label : String) (name : SourceAlias) :
    aliasField code label (.str name.value) = .ok name := by
  have hline : stringField code label (.str name.value) = .ok name.value :=
    stringField_eq_ok_iff.mpr ⟨rfl, Manifest.Slug.oneLine name⟩
  simp only [aliasField, textField, hline, Schema.slug, Manifest.slugOf_eq_some.mpr rfl, bind, Except.bind]

theorem optionalAlias_written {written : Dict} {field : String} {found : Option SourceAlias}
    (hget : Dict.get? written field = found.map fun name => .str name.value) (code : DiagnosticCode) (label : String) :
    optionalField written field (aliasField code label) = .ok found := by
  cases found with
  | none => rw [optionalField, hget, Option.map_none]
  | some name =>
      rw [optionalField, hget, Option.map_some]
      simp only [aliasField_written]
      rfl

variable {settings : ReportingSettings}

theorem reporting_written (h : (settings.mode == .automatic && settings.destination.isNone) = false) :
    reporting (jsonObject (reportingTable settings)) = .ok settings := by
  refine objectOf_written shape_reporting fun written hwritten => ?_
  simp only [reportingTable, List.forall_mem_cons] at hwritten
  obtain ⟨wmode, wdestination, _⟩ := hwritten
  have hmode : defaultedField written "mode" .prompt
      (enumField reportingModes ReportingMode.value configInvalid "reporting mode") = .ok settings.mode := by
    rw [defaultedField, wmode]
    cases settings.mode <;> rfl
  simp only [reportingBody, hmode, optionalAlias_written wdestination, h, refuse, bind, Except.bind]
  rfl

theorem automatic_of_read (h : reporting value = .ok settings) :
    (settings.mode == .automatic && settings.destination.isNone) = false := by
  obtain ⟨_, _, h1⟩ := Result.of_bind_ok h
  obtain ⟨_, _, h2⟩ := Result.of_bind_ok h1
  obtain ⟨mode, _, h3⟩ := Result.of_bind_ok h2
  obtain ⟨destination, _, h4⟩ := Result.of_bind_ok h3
  obtain ⟨_, hchecked, h5⟩ := Result.of_bind_ok h4
  obtain rfl := Except.ok.inj h5
  exact refuse_eq_ok.mp hchecked

/-- The alias of a document is as short as the document says. -/
theorem short_of_optionalAlias {fields : Dict} {depth : Nat} {field label : String} {code : DiagnosticCode}
    {found : Option SourceAlias} (hfits : Fits depth (.obj fields))
    (h : optionalField fields field (aliasField code label) = .ok found) :
    ∀ name, found = some name → name.value.length ≤ maxStringLength := by
  rintro name rfl
  have hkept := (kept_optional (readsBack_aliasField _ _) hfits h).fits _ rfl
  rw [Fits] at hkept
  exact hkept.2

theorem fits_optionalText {α : Type} {text : α → String} {found : Option α} {depth : Nat} (hdepth : depth ≤ maxDepth)
    (h : ∀ x, found = some x → (text x).length ≤ maxStringLength) (value : Json)
    (hvalue : found.map (fun x => Json.str (text x)) = some value) : Fits depth value := by
  obtain ⟨x, hx, rfl⟩ := Option.map_eq_some_iff.mp hvalue
  rw [Fits]
  exact ⟨hdepth, h x hx⟩

theorem fits_reporting (h : ∀ name, settings.destination = some name → name.value.length ≤ maxStringLength) :
    Fits 1 (jsonObject (reportingTable settings)) := by
  refine fits_written shape_reporting (by decide) ?_
  simp only [reportingTable, List.forall_mem_cons, Option.some.injEq, forall_eq']
  refine ⟨?_, fits_optionalText (by decide) h, by simp⟩
  rw [Fits]
  exact ⟨by decide, by cases settings.mode <;> decide⟩

theorem short_of_reporting {depth : Nat} (hfits : Fits depth value)
    (h : reporting value = .ok settings) :
    ∀ name, settings.destination = some name → name.value.length ≤ maxStringLength := by
  obtain ⟨entries, hentries, h1⟩ := Result.of_bind_ok h
  obtain ⟨fields, hfields, h2⟩ := Result.of_bind_ok h1
  obtain rfl := asObject_eq_ok hentries
  obtain ⟨rfl, _⟩ := validateObjectFields_eq_ok.mp hfields
  obtain ⟨mode, _, h3⟩ := Result.of_bind_ok h2
  obtain ⟨destination, hdestination, h4⟩ := Result.of_bind_ok h3
  obtain ⟨_, _, h5⟩ := Result.of_bind_ok h4
  obtain rfl := Except.ok.inj h5
  exact short_of_optionalAlias hfits hdestination

/-! ## The user configuration -/

theorem isEnabledRegistry_iff {sources : List ConfiguredSource} (hnodup : (sources.map (·.sourceAlias)).Nodup)
    {name : SourceAlias} : isEnabledRegistry sources name = true ↔
      ∃ source ∈ sources, source.sourceAlias = name ∧ source.enabled = true ∧ isRegistry source = true := by
  unfold isEnabledRegistry
  constructor
  · intro h
    obtain ⟨source, hfound, hsource⟩ := (Option.any_eq_true _ _).mp h
    rw [Bool.and_eq_true] at hsource
    exact ⟨source, List.mem_of_find?_eq_some hfound, by simpa using List.find?_some hfound, hsource⟩
  · rintro ⟨source, hmem, rfl, henabled, hregistry⟩
    cases hfind : sources.find? fun other => other.sourceAlias == source.sourceAlias with
    | none => exact absurd (List.find?_eq_none.mp hfind source hmem) (by simp)
    | some other =>
        have hsame := List.inj_on_of_nodup_map hnodup (List.mem_of_find?_eq_some hfind) hmem
          (by simpa using List.find?_some hfind)
        simp [hsame, henabled, hregistry]

theorem isEnabledRegistry_of_perm {left right : List ConfiguredSource} (hperm : left.Perm right)
    (hnodup : (left.map (·.sourceAlias)).Nodup) (name : SourceAlias) :
    isEnabledRegistry left name = isEnabledRegistry right name := by
  rw [Bool.eq_iff_iff, isEnabledRegistry_iff hnodup, isEnabledRegistry_iff ((hperm.map _).nodup_iff.mp hnodup)]
  simp only [hperm.mem_iff]

section Configurations

variable [TextRuntime]

omit [TextRuntime] in
theorem shape_userConfiguration : Shape ["schema_version"] configurationOptional userConfigurationTable where
  names configuration := by simp [userConfigurationTable, configurationOptional]
  nodup configuration := by simp [userConfigurationTable]
  found := by simp [userConfigurationTable]
  short := by decide

omit [TextRuntime] in
theorem documentOf_written {α β : Type} {code : DiagnosticCode} {required optional : List String} {table : α → Fields}
    {x : α} {body : Dict → Result β} {result : Result β} (hshape : Shape required optional table)
    (h : ∀ written : Dict, (∀ field ∈ table x, written.get? field.1 = field.2) → body written = result) :
    documentOf code required optional body (jsonObject (table x)) = result := by
  obtain ⟨written, hobject, hvalid, hfields⟩ := members_of_object hshape code "" x
  rw [asObject_eq_ok hobject]
  simp only [documentOf, hvalid, bind, Except.bind]
  exact h written hfields

omit [TextRuntime] in
theorem documentOf_eq_ok {α : Type} {code : DiagnosticCode} {required optional : List String} {body : Dict → Result α}
    {value : Json} {found : α} (h : documentOf code required optional body value = .ok found) :
    ∃ fields, value = .obj fields ∧ body fields = .ok found := by
  unfold documentOf at h
  split at h
  · obtain ⟨fields, hfields, hbody⟩ := Result.of_bind_ok h
    obtain ⟨rfl, _⟩ := validateObjectFields_eq_ok.mp hfields
    exact ⟨fields, rfl, hbody⟩
  · cases h

omit [TextRuntime] in
theorem defaultRegistry_written {written : Dict} {found : Option SourceAlias}
    (hget : Dict.get? written "default_registry" = found.map fun name => .str name.value) :
    defaultRegistryField written = .ok found := by
  cases found with
  | none => rw [defaultRegistryField, hget, Option.map_none]
  | some name =>
      rw [defaultRegistryField, hget, Option.map_some]
      simp only [aliasField_written]
      rfl

omit [TextRuntime] in
theorem short_of_defaultRegistry {fields : Dict} {found : Option SourceAlias} (hfits : Fits 0 (.obj fields))
    (h : defaultRegistryField fields = .ok found) :
    ∀ name, found = some name → name.value.length ≤ maxStringLength := by
  rintro name rfl
  unfold defaultRegistryField at h
  split at h
  · cases h
  · cases h
  · rename_i value _ hvalue
    obtain ⟨same, hsame, hname⟩ := Result.of_map_ok h
    obtain rfl := Option.some.inj hname
    have hwritten := (readsBack_aliasField _ _ (Manifest.fits_of_get? hfits hvalue).2 hsame).2
    rw [Fits] at hwritten
    exact hwritten.2

theorem userConfiguration_again {value : Json} {configuration : UserConfiguration} (hfits : Fits 0 value)
    (h : userConfigurationOf value = .ok configuration) :
    userConfigurationOf (userConfigurationJson configuration) = .ok configuration ∧
      Fits 0 (userConfigurationJson configuration) := by
  obtain ⟨fields, rfl, hbody⟩ := documentOf_eq_ok h
  obtain ⟨version, hversion, h1⟩ := Result.of_bind_ok hbody
  obtain ⟨found, hsources, h2⟩ := Result.of_bind_ok h1
  obtain ⟨syncSettings, hsync, h3⟩ := Result.of_bind_ok h2
  obtain ⟨reportingSettings, hreporting, h4⟩ := Result.of_bind_ok h3
  obtain ⟨defaultRegistry, hdefault, h5⟩ := Result.of_bind_ok h4
  obtain ⟨knownDefault, hknownDefault, h6⟩ := Result.of_bind_ok h5
  obtain ⟨knownDestination, hknownDestination, h7⟩ := Result.of_bind_ok h6
  obtain rfl := Except.ok.inj h7
  have hsorted : sources (.arr ((sortedBy (fun source => source.sourceAlias.value) found).map sourceJson)) =
      .ok (sortedBy (fun source => source.sourceAlias.value) found) ∧
        Fits 1 (.arr ((sortedBy (fun source => source.sourceAlias.value) found).map sourceJson)) := by
    unfold defaultedField at hsources
    split at hsources
    · obtain rfl := Except.ok.inj hsources
      exact ⟨rfl, fits_arr.mpr ⟨by decide, by simp [sortedBy]⟩⟩
    · rename_i written hwritten
      exact sources_again (Manifest.fits_of_get? hfits hwritten).2 hsources _
  have hnodup : (found.map (·.sourceAlias)).Nodup := by
    unfold defaultedField at hsources
    split at hsources
    · rw [← Except.ok.inj hsources]
      exact List.nodup_nil
    · exact nodup_of_sources hsources
  have hsound : SoundSync syncSettings := by
    unfold defaultedField at hsync
    split at hsync
    · rw [← Except.ok.inj hsync]
      exact ⟨by decide, by decide⟩
    · exact soundSync_of_read hsync
  have hautomatic : (reportingSettings.mode == .automatic && reportingSettings.destination.isNone) = false := by
    unfold defaultedField at hreporting
    split at hreporting
    · rw [← Except.ok.inj hreporting]
      rfl
    · exact automatic_of_read hreporting
  have hdestination : ∀ name, reportingSettings.destination = some name → name.value.length ≤ maxStringLength := by
    unfold defaultedField at hreporting
    split at hreporting
    · rw [← Except.ok.inj hreporting]
      simp
    · rename_i written hwritten
      exact short_of_reporting (Manifest.fits_of_get? hfits hwritten).2 hreporting
  have hsame := isEnabledRegistry_of_perm (perm_sortedBy (fun source : ConfiguredSource => source.sourceAlias.value)
    found).symm hnodup
  refine ⟨documentOf_written shape_userConfiguration fun written hwritten => ?_, ?_⟩
  · simp only [userConfigurationTable, List.forall_mem_cons] at hwritten
    obtain ⟨wreporting, wversion, wsources, wsync, wdefault, _⟩ := hwritten
    have hversionField : requiredField written "schema_version" (schemaVersion configInvalid) = .ok 1 := by
      rw [requiredField, wversion]
      rfl
    have hsourcesField : defaultedField written "sources" [] sources =
        .ok (sortedBy (fun source => source.sourceAlias.value) found) := by
      rw [defaultedField, wsources]
      exact hsorted.1
    have hsyncField : defaultedField written "sync" {} sync = .ok syncSettings := by
      rw [defaultedField, wsync]
      exact hsound.read
    have hreportingField : defaultedField written "reporting" {} reporting = .ok reportingSettings := by
      rw [defaultedField, wreporting]
      exact reporting_written hautomatic
    simp only [hsame] at hknownDefault hknownDestination
    simp only [userConfigurationBody, hversionField, hsourcesField, hsyncField, hreportingField,
      defaultRegistry_written wdefault, userConfiguration, hknownDefault, hknownDestination, sortedBy_sortedBy, bind,
      Except.bind]
    rfl
  · refine fits_written shape_userConfiguration (by decide) ?_
    simp only [userConfigurationTable, List.forall_mem_cons, Option.some.injEq, forall_eq']
    refine ⟨fits_reporting hdestination, ?_, hsorted.2, hsound.fits,
      fits_optionalText (by decide) (short_of_defaultRegistry hfits hdefault), by simp⟩
    rw [Fits, JsonText.InRange]
    decide

end Configurations

end AgentArtifacts.Configuration
