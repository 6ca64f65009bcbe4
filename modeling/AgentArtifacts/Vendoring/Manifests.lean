import AgentArtifacts.RegistryCommands.Revendoring
import AgentArtifacts.Vendoring.RoundTrip

/-!
# The manifest of a copy that is taken anew

A manifest that was read holds parts that are read back from what is written of them. The
manifest that re-vendoring writes takes some of these parts over and leaves the others out,
so where it is read at all it is read as it was meant.
-/

namespace AgentArtifacts.Vendoring

open JsonText (eq_of_parseJson_canonicalJsonBytes)
open Manifest (Fields jsonObject frozen_jsonObject frozen_array frozen_str requiredField optionalField)
open Native (ArtifactManifest artifactInvalid artifactManifestToJson artifactManifestOf artifactBody artifactTable
  artifactRequired artifactOptional compatibilityTable installTable installEffectsOf setupTable payloadFormat payloadTable parseArtifactManifest
  readsBack_compatibility readsBack_install readsBack_setup shape_artifact shape_compatibility shape_install
  shape_payload shape_setup textOf_relativePath textOf_artifactKind)
open RegistryCommands (revendorOptions)
open Registry (InstallEffect perm_sortedBy sortedBy)
open Schema

section Reading

variable [StandardLibrary]

variable {code : DiagnosticCode} {label : String}

omit [StandardLibrary] in
/-- A document without extensions is read by its body, from the fields of its table. -/
theorem body_of_document {α β : Type} {required optional : List String} {table : α → Fields} {x : α}
    {body : Dict → Result β} {found : β} (hshape : Shape required optional table)
    (h : objectOf code label true required optional body (jsonObject (table x)) = .ok found) :
    ∃ written : Dict, (∀ field ∈ table x, written.get? field.1 = field.2) ∧
      extensionsOf (required ++ optional) written = [] ∧ body written = .ok found := by
  obtain ⟨written, hobject, hvalid, hfields⟩ := members_of_object hshape code label x
  obtain ⟨_, _, hnames⟩ := validateObjectFields_eq_ok.mp hvalid
  have hallowed : validateObjectFields true required optional written = .ok written :=
    validateObjectFields_eq_ok.mpr ⟨rfl, (validateObjectFields_eq_ok.mp hvalid).2.1, fun name hname =>
      (hnames name hname).imp_right fun hboth => absurd hboth.1 (by simp)⟩
  refine ⟨written, hfields, List.filter_eq_nil_iff.mpr fun entry hentry => ?_, ?_⟩
  rotate_left
  · simpa only [objectOf, hobject, hallowed, bind, Except.bind] using h
  have hknown := (hnames entry.1 (List.mem_map.mpr ⟨entry, hentry, rfl⟩)).resolve_right (by simp)
  simpa only [decide_eq_true_eq, not_not] using hknown

/-- The parts of a manifest that was read. -/
structure ReadManifest (manifest : ArtifactManifest) : Prop where
  schema : manifest.schemaVersion = 1
  payload : manifest.payload = ⟨⟨[payloadRootName]⟩, payloadFormat manifest.identity.kind⟩
  compatibility : Native.compatibility (jsonObject (compatibilityTable manifest.compatibility)) = .ok manifest.compatibility
  install : Native.install (jsonObject (installTable manifest.install)) = .ok manifest.install
  setup : ∀ found, manifest.setup = some found →
    Native.setup manifest.compatibility (jsonObject (setupTable found)) = .ok found ∧ found.platforms ≠ []
  license : manifest.license ≠ some ""

variable {fields : Dict}

omit [StandardLibrary] in
theorem schema_of_read {found : Int}
    (h : requiredField fields "schema_version" (schemaVersion artifactInvalid) = .ok found) : found = 1 := by
  obtain ⟨number, _, hnumber⟩ := Result.of_bind_ok h
  obtain ⟨_, hone, hnumber⟩ := Result.of_bind_ok hnumber
  obtain rfl := Except.ok.inj hnumber
  simpa using refuse_eq_ok.mp hone

variable {value : Json}

theorem payload_of_read {kind : ArtifactKind} {found : Native.PayloadSpec}
    (h : Native.payload kind value = .ok found) : found = ⟨⟨[payloadRootName]⟩, payloadFormat kind⟩ := by
  obtain ⟨entries, _, h⟩ := Result.of_bind_ok h
  obtain ⟨fields, _, h⟩ := Result.of_bind_ok h
  obtain ⟨root, hroot, h⟩ := Result.of_bind_ok h
  obtain ⟨_, hnamed, h⟩ := Result.of_bind_ok h
  obtain ⟨format, _, h⟩ := Result.of_bind_ok h
  obtain ⟨_, hformat, h⟩ := Result.of_bind_ok h
  obtain rfl := Except.ok.inj h
  have htext : root.str = "payload" := by simpa using refuse_eq_ok.mp hnamed
  have hkind : format = payloadFormat kind := by simpa using refuse_eq_ok.mp hformat
  obtain ⟨raw, _, hraw⟩ := Result.of_bind_ok hroot
  have hsame : raw = "payload" := (textOf_relativePath _ _ hraw).symm.trans htext
  rw [parseRelativePath_parts hraw, hsame, hkind]
  rfl

omit [StandardLibrary] in
theorem license_of_read {found : Option String}
    (h : optionalField fields "license" (stringField artifactInvalid "license" true) = .ok found) : found ≠ some "" := by
  unfold optionalField at h
  split at h
  · obtain rfl := Except.ok.inj h
    simp
  · obtain ⟨text, htext, rfl⟩ := Result.of_map_ok h
    rintro hempty
    obtain rfl := Option.some.inj hempty
    obtain rfl := stringField_eq_ok htext
    exact absurd htext (by simp [stringField, error])

omit [StandardLibrary] in
theorem platforms_of_read {read : String → Result String}
    {found : List String} (h : namedValues code label false read value = .ok found) : found ≠ [] := by
  obtain ⟨names, hnames, h⟩ := Result.of_bind_ok h
  obtain ⟨items, _, hnames⟩ := Result.of_bind_ok hnames
  obtain ⟨_, hnonempty, hnames⟩ := Result.of_bind_ok hnames
  obtain ⟨texts, htexts, hnames⟩ := Result.of_bind_ok hnames
  obtain rfl := Except.ok.inj hnames
  rintro rfl
  have hlength := (Result.forall₂_of_mapM_ok h).length_eq
  have htextsLength := (Result.forall₂_of_mapM_ok htexts).length_eq
  have hnone : texts = [] := by
    have hsorted := (perm_sortedBy id texts.dedup).length_eq
    rw [List.length_nil] at hlength
    have hdedup : texts.dedup = [] := List.eq_nil_of_length_eq_zero (hsorted.symm.trans hlength)
    refine List.eq_nil_iff_forall_not_mem.mpr fun text hmem => ?_
    have hthere := List.mem_dedup.mpr hmem
    rw [hdedup] at hthere
    exact absurd hthere List.not_mem_nil
  rw [hnone, List.length_nil] at htextsLength
  have hempty := refuse_eq_ok.mp hnonempty
  rw [List.eq_nil_of_length_eq_zero htextsLength] at hempty
  exact absurd hempty (by simp)

variable {α : Type}

omit [StandardLibrary] in
/-- What an object is read as, its body makes of its fields. -/
theorem fields_of_objectOf {extensions : Bool}
    {required optional : List String} {body : Dict → Result α} {x : α} (hfits : Fits 0 value)
    (h : objectOf code label extensions required optional body value = .ok x) :
    ∃ fields, value = .obj fields ∧ (∀ name ∈ required, ∃ found, Dict.get? fields name = some found) ∧
      body fields = .ok x := by
  obtain ⟨entries, hentries, hvalidated⟩ := Result.of_bind_ok h
  obtain ⟨fields, hfields, hx⟩ := Result.of_bind_ok hvalidated
  obtain rfl := asObject_eq_ok hentries
  obtain ⟨rfl, hrequired, _⟩ := validateObjectFields_eq_ok.mp hfields
  obtain ⟨_, hsorted, _⟩ := fits_obj.mp hfits
  refine ⟨_, rfl, fun name hname => ?_, hx⟩
  obtain ⟨entry, hentry, rfl⟩ := List.mem_map.mp (hrequired name hname)
  exact ⟨entry.2, (Dict.get?_eq_some_iff (nodup_of_pairwise_lt hsorted)).mpr hentry⟩

theorem setup_of_read {spec : Registry.CompatibilitySpec} {found : Registry.SetupReference}
    (h : Native.setup spec value = .ok found) : found.platforms ≠ [] := by
  obtain ⟨entries, _, h1⟩ := Result.of_bind_ok h
  obtain ⟨fields, _, h2⟩ := Result.of_bind_ok h1
  obtain ⟨recipe, _, h3⟩ := Result.of_bind_ok h2
  obtain ⟨_, _, h4⟩ := Result.of_bind_ok h3
  obtain ⟨platforms, hplatforms, h5⟩ := Result.of_bind_ok h4
  obtain ⟨_, _, h6⟩ := Result.of_bind_ok h5
  obtain rfl := Except.ok.inj h6
  exact platforms_of_read hplatforms

theorem readManifest_of_parse [JsonRuntime] {data : Bytes} {manifest : ArtifactManifest}
    (h : parseArtifactManifest data = .ok manifest) : ReadManifest manifest := by
  obtain ⟨value, hvalue, h⟩ := Result.of_bind_ok h
  have hdocument := fits_of_parseJson hvalue
  obtain ⟨fields, rfl, hfound, hbody⟩ := fields_of_objectOf hdocument h
  obtain ⟨schemaVersion, hschema, h1⟩ := Result.of_bind_ok hbody
  obtain ⟨kind, hkind, h2⟩ := Result.of_bind_ok h1
  obtain ⟨name, hname, h3⟩ := Result.of_bind_ok h2
  obtain ⟨version, hversion, h4⟩ := Result.of_bind_ok h3
  obtain ⟨summary, hsummary, h5⟩ := Result.of_bind_ok h4
  obtain ⟨payload, hpayload, h6⟩ := Result.of_bind_ok h5
  obtain ⟨compatibility, hcompatibility, h7⟩ := Result.of_bind_ok h6
  obtain ⟨install, hinstall, h8⟩ := Result.of_bind_ok h7
  obtain ⟨compatible, hcompatible, h9⟩ := Result.of_bind_ok h8
  obtain ⟨bounds, hbounds, h10⟩ := Result.of_bind_ok h9
  obtain ⟨requires, hrequires, h11⟩ := Result.of_bind_ok h10
  obtain ⟨setup, hsetup, h12⟩ := Result.of_bind_ok h11
  obtain ⟨authors, hauthors, h13⟩ := Result.of_bind_ok h12
  obtain ⟨license, hlicense, h14⟩ := Result.of_bind_ok h13
  obtain ⟨homepage, hhomepage, h15⟩ := Result.of_bind_ok h14
  obtain rfl := Except.ok.inj h15
  refine ⟨?_, payload_of_read hpayload, ?_, ?_, fun found hsome => ?_, license_of_read hlicense⟩
  · exact schema_of_read hschema
  · exact (kept_required readsBack_compatibility hdocument (hfound _ (by decide)) hcompatibility).again
      [("compatibility", jsonObject (compatibilityTable compatibility))] (by simp [Dict.get?])
  · exact (kept_required readsBack_install hdocument (hfound _ (by decide)) hinstall).again
      [("install", jsonObject (installTable install))] (by simp [Dict.get?])
  · obtain rfl : setup = some found := hsome
    have hagain := (kept_optional (readsBack_setup compatibility) hdocument hsetup).again
      [("setup", jsonObject (setupTable found))] (by simp [Dict.get?])
    obtain ⟨again, hread, hsame⟩ := Result.of_map_ok
      (show (Native.setup compatibility (jsonObject (setupTable found))).map some = .ok (some found) from hagain)
    obtain rfl := Option.some.inj hsame
    exact ⟨hread, setup_of_read hread⟩

/-! ## The manifest of a projection -/

variable [LicenseText]

/-- What re-vendoring leaves out of a manifest or writes anew is as it was. -/
structure Regenerable (manifest : ArtifactManifest) (taken : TakenSubtree) : Prop where
  authors : manifest.authors = []
  homepage : manifest.homepage = none
  extensions : manifest.extensions = []
  bounds : manifest.requiresAart = {}
  requires : manifest.requires = []
  effects : manifest.install.effects = sortedBy InstallEffect.value (installEffectsOf manifest.identity.kind)
  license : manifest.license = none → (discoverLicense taken).identifier = none

variable {manifest : ArtifactManifest} {taken : TakenSubtree} {version : SemVer} {authored : List PackageFile}

omit [StandardLibrary] [LicenseText] in
theorem revendored_setup {setup : Option Registry.SetupReference} (platforms : List String)
    (h : ∀ found, setup = some found → found.platforms ≠ []) :
    ((setup.map (·.recipe)).map fun recipe =>
      (⟨recipe, if ((setup.map (·.platforms)).getD []).isEmpty then platforms else (setup.map (·.platforms)).getD []⟩ :
        Registry.SetupReference)) = setup := by
  cases setup with
  | none => rfl
  | some found =>
      have hplatforms : found.platforms.isEmpty = false := List.isEmpty_eq_false_iff.mpr (h found rfl)
      simp [hplatforms]

omit [StandardLibrary] [LicenseText] in
theorem license_kept {license : Option String} (discovered : Option String) (h : license ≠ some "") :
    (license.filter (· != "") <|> discovered) = license ↔ (license = none → discovered = none) := by
  cases license with
  | none => simp
  | some text =>
      have htext : text ≠ "" := fun hempty => h (congrArg some hempty)
      simp [htext]

/-- Under which manifests re-vendoring changes the version only. -/
theorem vendorManifest_eq_iff (hread : ReadManifest manifest) :
    vendorManifest taken (revendorOptions manifest version authored) = { manifest with version := version } ↔
      Regenerable manifest taken := by
  have hsetup := revendored_setup manifest.compatibility.platforms fun found hsome => (hread.setup found hsome).2
  have hlicense := license_kept (discoverLicense taken).identifier hread.license
  constructor
  · intro h
    exact ⟨(congrArg ArtifactManifest.authors h).symm, (congrArg ArtifactManifest.homepage h).symm,
      (congrArg ArtifactManifest.extensions h).symm, (congrArg ArtifactManifest.requiresAart h).symm,
      (congrArg ArtifactManifest.requires h).symm, (congrArg (fun found => found.install.effects) h).symm,
      hlicense.mp (congrArg ArtifactManifest.license h)⟩
  · intro h
    have hkept := hlicense.mpr h.license
    obtain ⟨schemaVersion, identity, _, summary, payload, compatibility, ⟨scopes, modes, effects⟩, setup, authors, license,
      homepage, extensions, bounds, requires⟩ := manifest
    have hpayload := hread.payload
    have hschema := hread.schema
    have heffects := h.effects
    have hauthors := h.authors
    have hhomepage := h.homepage
    have hextensions := h.extensions
    have hbounds := h.bounds
    have hrequires := h.requires
    dsimp only at *
    subst hpayload hschema heffects hauthors hhomepage hextensions hbounds hrequires
    unfold vendorManifest revendorOptions
    dsimp only
    rw [hkept, hsetup]

/-! ## Reading it -/

omit [StandardLibrary] [LicenseText] in
theorem read_of_field {name raw : String}
    {singleLine : Bool} {read : String → Result α} {found : α} (hfield : Dict.get? fields name = some (.str raw))
    (h : requiredField fields name (textOf code label singleLine read) = .ok found) : read raw = .ok found := by
  rw [requiredField, hfield] at h
  obtain ⟨text, htext, h⟩ := Result.of_bind_ok h
  rw [← Json.str.inj (stringField_eq_ok htext)] at h
  exact h

omit [StandardLibrary] [LicenseText] in
/-- The effects of a kind are read as they are written. -/
theorem effects_read (kind : ArtifactKind) :
    namedValues artifactInvalid "effect" false (Native.choiceName Native.installEffects InstallEffect.value artifactInvalid "effect")
      (stringArray ((sortedBy InstallEffect.value (installEffectsOf kind)).map InstallEffect.value)) =
        .ok (sortedBy InstallEffect.value (installEffectsOf kind)) := by
  cases kind <;> rfl

omit [StandardLibrary] [LicenseText] in
/-- The scopes and modes of a manifest that was read are read back beside any effects. -/
theorem install_written {kind : ArtifactKind} {spec found : Registry.InstallSpec}
    (hread : Native.install (jsonObject (installTable spec)) = .ok spec)
    (h : Native.install (jsonObject (installTable
      ⟨spec.scopes, spec.modes, sortedBy InstallEffect.value (installEffectsOf kind)⟩)) = .ok found) :
    found = ⟨spec.scopes, spec.modes, sortedBy InstallEffect.value (installEffectsOf kind)⟩ := by
  obtain ⟨known, hknown, hread⟩ := body_of_objectOf shape_install hread
  obtain ⟨fields, hfields, h⟩ := body_of_objectOf shape_install h
  simp only [installTable, List.forall_mem_cons] at hknown hfields
  obtain ⟨scopes, hscopes, h1⟩ := Result.of_bind_ok h
  obtain ⟨modes, hmodes, h2⟩ := Result.of_bind_ok h1
  obtain ⟨effects, heffects, h3⟩ := Result.of_bind_ok h2
  obtain rfl := Except.ok.inj h3
  obtain ⟨knownScopes, hknownScopes, h4⟩ := Result.of_bind_ok hread
  obtain ⟨knownModes, hknownModes, h5⟩ := Result.of_bind_ok h4
  obtain ⟨knownEffects, _, h6⟩ := Result.of_bind_ok h5
  have hspec : spec = ⟨knownScopes, knownModes, knownEffects⟩ := (Except.ok.inj h6).symm
  have hsameScopes : spec.scopes = scopes := by
    rw [requiredField, hfields.1] at hscopes
    rw [requiredField, hknown.1] at hknownScopes
    rw [Except.ok.inj (hscopes.symm.trans hknownScopes), hspec]
  have hsameModes : spec.modes = modes := by
    rw [requiredField, hfields.2.1] at hmodes
    rw [requiredField, hknown.2.1] at hknownModes
    rw [Except.ok.inj (hmodes.symm.trans hknownModes), hspec]
  have hsameEffects : effects = sortedBy InstallEffect.value (installEffectsOf kind) := by
    rw [requiredField, hfields.2.2.1] at heffects
    exact Except.ok.inj (heffects.symm.trans (effects_read kind))
  rw [hsameScopes, hsameModes, hsameEffects]

omit [StandardLibrary] [LicenseText] in
theorem frozen_stringArray (values : List String) : Frozen (stringArray values) := by
  refine frozen_array fun item hitem => ?_
  obtain ⟨text, _, rfl⟩ := List.mem_map.mp hitem
  exact frozen_str text

omit [StandardLibrary] [LicenseText] in
theorem frozen_artifactTable {found : ArtifactManifest} (hbounds : found.requiresAart = {}) (hrequires : found.requires = []) :
    Frozen (jsonObject (artifactTable found)) := by
  refine frozen_jsonObject (shape_artifact.nodup _) fun name value hmem => ?_
  simp only [artifactTable, hbounds, hrequires, List.mem_cons, Prod.mk.injEq, List.not_mem_nil, or_false] at hmem
  rcases hmem with ⟨_, hvalue⟩ | ⟨_, hvalue⟩ | ⟨_, hvalue⟩ | ⟨_, hvalue⟩ | ⟨_, hvalue⟩ | ⟨_, hvalue⟩ | ⟨_, hvalue⟩ |
    ⟨_, hvalue⟩ | ⟨_, hvalue⟩ | ⟨_, hvalue⟩ | ⟨_, hvalue⟩ | ⟨_, hvalue⟩ | ⟨_, hvalue⟩ | ⟨_, hvalue⟩
  · obtain rfl := Option.some.inj hvalue
    rw [Frozen]
    trivial
  · obtain rfl := Option.some.inj hvalue
    exact frozen_str _
  · obtain rfl := Option.some.inj hvalue
    exact frozen_str _
  · obtain rfl := Option.some.inj hvalue
    exact frozen_str _
  · obtain rfl := Option.some.inj hvalue
    exact frozen_str _
  · obtain rfl := Option.some.inj hvalue
    refine frozen_jsonObject (shape_payload.nodup _) fun name value hmem => ?_
    simp only [payloadTable, List.mem_cons, Prod.mk.injEq, Option.some.injEq, List.not_mem_nil, or_false] at hmem
    rcases hmem with ⟨_, rfl⟩ | ⟨_, rfl⟩
    · exact frozen_str _
    · exact frozen_str _
  · obtain rfl := Option.some.inj hvalue
    refine frozen_jsonObject (shape_compatibility.nodup _) fun name value hmem => ?_
    simp only [compatibilityTable, List.mem_cons, Prod.mk.injEq, Option.some.injEq, List.not_mem_nil, or_false] at hmem
    rcases hmem with ⟨_, rfl⟩ | ⟨_, rfl⟩
    · exact frozen_stringArray _
    · exact frozen_stringArray _
  · obtain rfl := Option.some.inj hvalue
    refine frozen_jsonObject (shape_install.nodup _) fun name value hmem => ?_
    simp only [installTable, List.mem_cons, Prod.mk.injEq, Option.some.injEq, List.not_mem_nil, or_false] at hmem
    rcases hmem with ⟨_, rfl⟩ | ⟨_, rfl⟩ | ⟨_, rfl⟩
    · exact frozen_stringArray _
    · exact frozen_stringArray _
    · exact frozen_stringArray _
  · obtain ⟨setup, _, rfl⟩ := Option.map_eq_some_iff.mp hvalue.symm
    refine frozen_jsonObject (shape_setup.nodup _) fun name value hmem => ?_
    simp only [setupTable, List.mem_cons, Prod.mk.injEq, Option.some.injEq, List.not_mem_nil, or_false] at hmem
    rcases hmem with ⟨_, rfl⟩ | ⟨_, rfl⟩
    · exact frozen_str _
    · exact frozen_stringArray _
  · unfold optionalArray at hvalue
    split at hvalue
    · exact absurd hvalue (by simp)
    · obtain rfl := Option.some.inj hvalue
      exact frozen_stringArray _
  · obtain ⟨text, _, rfl⟩ := Option.map_eq_some_iff.mp hvalue.symm
    exact frozen_str text
  · obtain ⟨text, _, rfl⟩ := Option.map_eq_some_iff.mp hvalue.symm
    exact frozen_str text
  · exact absurd hvalue (by simp [optionalBounds])
  · exact absurd hvalue (by simp [optionalArray])

omit [StandardLibrary] [LicenseText] in
theorem version_of_written {found : SemVer} (hversion : parseSemver version.str = .ok version)
    (hfield : Dict.get? fields "version" = some (.str version.str))
    (h : requiredField fields "version" (textOf artifactInvalid "version" false parseSemver) = .ok found) :
    found = version :=
  Except.ok.inj ((read_of_field hfield h).symm.trans hversion)

omit [StandardLibrary] [LicenseText] in
theorem optional_of_absent {name : String} {read : Json → Result α} {found : Option α}
    (hfield : Dict.get? fields name = none) (h : optionalField fields name read = .ok found) : found = none := by
  rw [optionalField, hfield] at h
  exact (Except.ok.inj h).symm

omit [StandardLibrary] [LicenseText] in
theorem default_of_absent {name : String} {default found : α} {read : Json → Result α}
    (hfield : Dict.get? fields name = none) (h : defaultedField fields name default read = .ok found) : found = default := by
  rw [defaultedField, hfield] at h
  exact (Except.ok.inj h).symm

omit [StandardLibrary] [LicenseText] in
theorem license_of_written {license found : Option String}
    (hfield : Dict.get? fields "license" = license.map .str)
    (h : optionalField fields "license" (stringField artifactInvalid "license" true) = .ok found) : found = license := by
  cases license with
  | none => exact optional_of_absent hfield h
  | some text =>
      rw [optionalField, hfield, Option.map_some] at h
      obtain ⟨read, hread, rfl⟩ := Result.of_map_ok h
      rw [Json.str.inj (stringField_eq_ok hread)]

omit [LicenseText] in
theorem setup_of_written {spec : Registry.CompatibilitySpec} {setup found : Option Registry.SetupReference}
    (hread : ∀ known, setup = some known → Native.setup spec (jsonObject (setupTable known)) = .ok known)
    (hfield : Dict.get? fields "setup" = setup.map fun known => jsonObject (setupTable known))
    (h : optionalField fields "setup" (Native.setup spec) = .ok found) : found = setup := by
  cases setup with
  | none => exact optional_of_absent hfield h
  | some known =>
      rw [optionalField, hfield, Option.map_some] at h
      dsimp only at h
      rw [hread known rfl] at h
      exact (Except.ok.inj h).symm

/-- The manifest of a projection is read as it was meant. -/
theorem vendorManifest_of_parse [JsonRuntime] {found : ArtifactManifest} (hread : ReadManifest manifest)
    (hversion : parseSemver version.str = .ok version)
    (h : parseArtifactManifest (canonicalJsonBytes
      (artifactManifestToJson (vendorManifest taken (revendorOptions manifest version authored)))) = .ok found) :
    found = vendorManifest taken (revendorOptions manifest version authored) := by
  have hdocument : artifactManifestToJson (vendorManifest taken (revendorOptions manifest version authored)) =
      jsonObject (artifactTable (vendorManifest taken (revendorOptions manifest version authored))) := by
    rw [artifactManifestToJson, documentJson, jsonObject]
    exact congrArg (fun fields => Json.obj (sortEntries fields)) (List.append_nil _)
  rw [hdocument] at h
  obtain ⟨value, hvalue, h⟩ := Result.of_bind_ok h
  obtain rfl := eq_of_parseJson_canonicalJsonBytes (frozen_artifactTable rfl rfl) hvalue
  obtain ⟨fields, hfields, hextensions, hbody⟩ := body_of_document shape_artifact h
  simp only [artifactTable, List.forall_mem_cons] at hfields
  obtain ⟨fschema, ftype, fname, fversion, fsummary, fpayload, fcompatibility, finstall, fsetup, fauthors, flicense,
    fhomepage, fbounds, frequires, _⟩ := hfields
  obtain ⟨schemaVersion, hschema, h1⟩ := Result.of_bind_ok hbody
  obtain ⟨kind, hkind, h2⟩ := Result.of_bind_ok h1
  obtain ⟨name, hname, h3⟩ := Result.of_bind_ok h2
  obtain ⟨readVersion, hreadVersion, h4⟩ := Result.of_bind_ok h3
  obtain ⟨summary, hsummary, h5⟩ := Result.of_bind_ok h4
  obtain ⟨payload, hpayload, h6⟩ := Result.of_bind_ok h5
  obtain ⟨compatibility, hcompatibility, h7⟩ := Result.of_bind_ok h6
  obtain ⟨install, hinstall, h8⟩ := Result.of_bind_ok h7
  obtain ⟨compatible, hcompatible, h9⟩ := Result.of_bind_ok h8
  obtain ⟨bounds, hbounds, h10⟩ := Result.of_bind_ok h9
  obtain ⟨requires, hrequires, h11⟩ := Result.of_bind_ok h10
  obtain ⟨setup, hsetup, h12⟩ := Result.of_bind_ok h11
  obtain ⟨authors, hauthors, h13⟩ := Result.of_bind_ok h12
  obtain ⟨license, hlicense, h14⟩ := Result.of_bind_ok h13
  obtain ⟨homepage, hhomepage, h15⟩ := Result.of_bind_ok h14
  obtain rfl := Except.ok.inj h15
  have hsetupKept := revendored_setup manifest.compatibility.platforms fun known hsome => (hread.setup known hsome).2
  obtain rfl := schema_of_read hschema
  obtain rfl : kind = manifest.identity.kind := ArtifactKind.value_injective (textOf_artifactKind _ _ (read_of_field ftype hkind))
  obtain rfl : name = manifest.identity.name := Manifest.slug_eq_of_value (textOf_slug _ _ _ _ (read_of_field fname hname))
  obtain rfl := version_of_written hversion fversion hreadVersion
  obtain rfl := payload_of_read hpayload
  rw [requiredField, fsummary] at hsummary
  rw [requiredField, fcompatibility] at hcompatibility
  rw [requiredField, finstall] at hinstall
  obtain rfl : compatibility = manifest.compatibility := Except.ok.inj (hcompatibility.symm.trans hread.compatibility)
  obtain rfl := install_written hread.install hinstall
  obtain rfl := default_of_absent fbounds hbounds
  obtain rfl := default_of_absent frequires hrequires
  obtain rfl := default_of_absent fauthors hauthors
  obtain rfl := optional_of_absent fhomepage hhomepage
  obtain rfl := license_of_written flicense hlicense
  obtain rfl := setup_of_written (fun known hsome => (hread.setup known (hsetupKept.symm.trans hsome)).1) fsetup hsetup
  rw [← Json.str.inj (stringField_eq_ok hsummary), hextensions]
  rfl

/-- The manifest that re-vendoring writes is read as the one before it in the new version, exactly
where nothing else of that one is left out or written anew. -/
theorem revendoredManifest_read_iff [JsonRuntime] {data : Bytes} {found : ArtifactManifest}
    (h : parseArtifactManifest data = .ok manifest) (hversion : parseSemver version.str = .ok version)
    (hfound : parseArtifactManifest (canonicalJsonBytes
      (artifactManifestToJson (vendorManifest taken (revendorOptions manifest version authored)))) = .ok found) :
    found = { manifest with version := version } ↔ Regenerable manifest taken := by
  have hread := readManifest_of_parse h
  rw [vendorManifest_of_parse hread hversion hfound]
  exact vendorManifest_eq_iff hread

end Reading

end AgentArtifacts.Vendoring
