import AgentArtifacts.Protocol.IndexParts
import AgentArtifacts.Registry.Packages
import AgentArtifacts.Store.ObjectEnvelope

/-!
# Artifacts of an index

An artifact of a compiled package satisfies the rules of the index, and what satisfies
them is read back from the index.
-/

namespace AgentArtifacts.RegistrySchema

open Manifest (Fields jsonObject requiredField optionalField choiceOf fits_jsonObject_iff validDigest
  installScopes installModes installScope_choice installMode_choice)
open Native (installEffects installEffectsOf installEffect_choice)
open Registry (Capability ReviewRecord sortedSet registryIndexInvalid compileNativePackage declared pinned
  indexArtifactFromPackage PackageEntries SetupInstaller NativeArtifactPackage plannedCapabilities)
open Schema

/-! ## What an index takes -/

section Library

variable [StandardLibrary]

/-- The rules of an index for one of its artifacts. -/
structure SoundArtifact (artifact : Registry.IndexArtifact) : Prop where
  source : artifact.sourceId.value.length ≤ maxStringLength
  name : artifact.identity.name.value.length ≤ maxStringLength
  version : parseSemver artifact.version.str = .ok artifact.version
  versionShort : artifact.version.str.length ≤ maxStringLength
  summary : oneLine artifact.summary = true
  summaryShort : artifact.summary.length ≤ maxStringLength
  manifestDigest : validDigest artifact.manifestDigest = true
  payloadDigest : validDigest artifact.payloadDigest = true
  objectDigest : validDigest artifact.objectDigest = true
  profiles : NameSet false artifact.compatibility.profiles
  platforms : NameSet false artifact.compatibility.platforms
  scopes : NameSet false (artifact.install.scopes.map InstallScope.value)
  modes : NameSet false (artifact.install.modes.map InstallMode.value)
  effects : NameSet false (artifact.install.effects.map Registry.InstallEffect.value)
  compatible : ∀ effect ∈ artifact.install.effects, effect ∈ installEffectsOf artifact.identity.kind
  setup : ∀ setup, artifact.setup = some setup → SoundSetup ⟨setup.recipe, setup.platforms⟩ ∧
    NameSet true (setup.capabilities.map Capability.value)
  review : ∀ review, artifact.review = some review → SoundReview review
  provenance : ∀ provenance, artifact.provenance = some provenance → SoundProvenance provenance
  collections : NameSet true artifact.collections
  bounds : SoundBounds artifact.requiresAart
  requires : SoundRequirements artifact.identity artifact.requires

omit [StandardLibrary] in
theorem shape_indexArtifact : Shape indexArtifactRequired indexArtifactOptional indexArtifactTable where
  names artifact := by simp [indexArtifactTable, indexArtifactRequired, indexArtifactOptional]
  nodup artifact := by simp [indexArtifactTable]
  found := by simp [indexArtifactTable, indexArtifactRequired]
  short := by decide

omit [StandardLibrary] in
theorem shape_indexCompatibility : Shape ["profiles", "platforms"] [] compatibilityTable where
  names compatibility := by simp [compatibilityTable]
  nodup compatibility := by simp [compatibilityTable]
  found := by simp [compatibilityTable]
  short := by decide

omit [StandardLibrary] in
theorem shape_indexInstall : Shape ["scopes", "modes", "effects"] [] installTable where
  names install := by simp [installTable]
  nodup install := by simp [installTable]
  found := by simp [installTable]
  short := by decide

omit [StandardLibrary] in
theorem requiredField_digest {code : DiagnosticCode} {label name : String} {digest : ObjectDigest} {written : Dict}
    (hget : Dict.get? written name = some (.str digest.str)) (h : validDigest digest = true) :
    requiredField written name (digestField code label true) = .ok digest := by
  rw [requiredField, hget]
  exact digestField_eq_ok_iff.mpr h

variable {α : Type}

omit [StandardLibrary] in
/-- What may be missing is null where it is. -/
theorem requiredField_nullable {parse : Json → Result (Option α)} {write : α → Json} {name : String}
    {found : Option α} {written : Dict} (hget : Dict.get? written name = some (orNull write found))
    (hnull : parse .null = .ok none) (h : ∀ x, found = some x → parse (write x) = .ok (some x)) :
    requiredField written name parse = .ok found := by
  rw [requiredField, hget]
  cases found with
  | none => exact hnull
  | some x => exact h x rfl

variable {value : Json}

omit [StandardLibrary] in
theorem nullable_of_ok {parse : Json → Result α} {x : α} (hnull : value ≠ .null)
    (h : parse value = .ok x) : nullable parse value = .ok (some x) := by
  unfold nullable
  split
  · exact absurd rfl hnull
  · rw [h]
    rfl

theorem SoundArtifact.indexArtifact {artifact : Registry.IndexArtifact} (h : SoundArtifact artifact) :
    indexArtifact (indexArtifactToJson artifact) = .ok artifact := by
  refine objectOf_written shape_indexArtifact fun written hwritten => ?_
  simp only [indexArtifactTable, List.forall_mem_cons] at hwritten
  obtain ⟨wsource, wkind, wname, wversion, wsummary, wmanifest, wpayload, wobject, wcompatibility, winstall, wsetup,
    wreview, wprovenance, wcollections, wbounds, wrequires, _⟩ := hwritten
  have hbounds : defaultedField written "requires_aart" {} (boundsField registryIndexInvalid true) =
      .ok artifact.requiresAart := by
    rcases content_optionalBounds artifact.requiresAart with ⟨hcontent, hdefault⟩ | ⟨hcontent, _⟩
    · rw [defaultedField, wbounds, hcontent, hdefault]
    · rw [defaultedField, wbounds, hcontent]
      exact h.bounds.boundsField _
  have hrequires : defaultedField written "requires" [] (indexRequirements artifact.identity) = .ok artifact.requires := by
    rcases content_optionalArray selectorToJson artifact.requires with ⟨hcontent, hdefault⟩ | ⟨hcontent, _⟩
    · rw [defaultedField, wrequires, hcontent, hdefault]
    · rw [defaultedField, wrequires, hcontent]
      exact h.requires.indexRequirements
  obtain ⟨compatibility, hcompatibility, vcompatibility, gcompatibility⟩ :=
    members_of_object shape_indexCompatibility registryIndexInvalid "compatibility" artifact.compatibility
  obtain ⟨install, hinstall, vinstall, ginstall⟩ :=
    members_of_object shape_indexInstall registryIndexInvalid "install" artifact.install
  simp only [compatibilityTable, List.forall_mem_cons] at gcompatibility
  obtain ⟨gprofiles, gplatforms, _⟩ := gcompatibility
  simp only [installTable, List.forall_mem_cons] at ginstall
  obtain ⟨gscopes, gmodes, geffects, _⟩ := ginstall
  have hcompatible : requiredField written "compatibility" (asObject registryIndexInvalid "compatibility") =
      .ok compatibility := by
    rw [requiredField, wcompatibility]
    exact hcompatibility
  have hinstalled : requiredField written "install" (asObject registryIndexInvalid "install") = .ok install := by
    rw [requiredField, winstall]
    exact hinstall
  have hprofiles : requiredField compatibility "profiles" (indexNames "profiles" none false) =
      .ok artifact.compatibility.profiles := by
    rw [requiredField, gprofiles]
    exact h.profiles.indexNames _ (by simp)
  have hplatforms : requiredField compatibility "platforms" (indexNames "platforms" none false) =
      .ok artifact.compatibility.platforms := by
    rw [requiredField, gplatforms]
    exact h.platforms.indexNames _ (by simp)
  have hscopes : requiredField install "scopes" (indexChoices "scopes" installScopes InstallScope.value) =
      .ok artifact.install.scopes := by
    rw [requiredField, gscopes]
    exact indexChoices_written _ h.scopes fun _ => installScope_choice.mpr rfl
  have hmodes : requiredField install "modes" (indexChoices "modes" installModes InstallMode.value) =
      .ok artifact.install.modes := by
    rw [requiredField, gmodes]
    exact indexChoices_written _ h.modes fun _ => installMode_choice.mpr rfl
  have heffects : requiredField install "effects" (indexChoices "effects" installEffects Registry.InstallEffect.value) =
      .ok artifact.install.effects := by
    rw [requiredField, geffects]
    exact indexChoices_written _ h.effects fun _ => installEffect_choice.mpr rfl
  have hallowed : (artifact.install.effects.any (· ∉ installEffectsOf artifact.identity.kind)) = false :=
    List.any_eq_false.mpr fun effect heffect => by simpa using h.compatible effect heffect
  have hsetup : requiredField written "setup" indexSetup = .ok artifact.setup :=
    requiredField_nullable wsetup rfl fun setup hsome => (h.setup setup hsome).1.indexSetup (h.setup setup hsome).2
  have hprovenance : requiredField written "provenance" indexProvenance = .ok artifact.provenance :=
    requiredField_nullable wprovenance rfl fun provenance hsome => (h.provenance provenance hsome).indexProvenance
  have hcollections : requiredField written "collections" (indexNames "collections" none true) =
      .ok artifact.collections := by
    rw [requiredField, wcollections]
    exact h.collections.indexNames _ (by simp)
  have hreview : requiredField written "review" (nullable (RegistrySchema.review registryIndexInvalid)) = .ok artifact.review :=
    requiredField_nullable wreview rfl fun review hsome => nullable_of_ok (by simp [reviewToJson, jsonObject])
      (review_written_iff.mpr ⟨rfl, (h.review review hsome).status, (h.review review hsome).policy⟩)
  have hslug : slug registryIndexInvalid "source_id must be a lowercase slug" artifact.sourceId.value =
      .ok artifact.sourceId := by
    rw [slug, Manifest.slugOf_eq_some.mpr rfl]
  simp only [indexArtifactBody, artifactIdentity, requiredField_line wsource (Manifest.Slug.oneLine _),
    requiredField_line wkind (oneLine_kind _), requiredField_line wname (Manifest.Slug.oneLine _),
    identityOf_eq_ok.mpr ⟨rfl, rfl⟩, requiredField_line wversion (Manifest.oneLine_version h.version),
    requiredField_line wsummary h.summary, requiredField_digest wmanifest h.manifestDigest,
    requiredField_digest wpayload h.payloadDigest, requiredField_digest wobject h.objectDigest, hslug, h.version,
    hbounds, hrequires, hcompatible, hinstalled, vcompatibility, vinstall, hprofiles, hplatforms, hscopes, hmodes,
    heffects, hallowed, refuse, hsetup, hprovenance, hcollections, hreview, bind, Except.bind]
  rfl

variable {depth : Nat}

omit [StandardLibrary] in
theorem fits_orNull {write : α → Json} {found : Option α} (hdepth : depth ≤ maxDepth)
    (h : ∀ x, found = some x → Fits depth (write x)) : Fits depth (orNull write found) := by
  cases found with
  | none =>
      rw [orNull, Fits]
      exact hdepth
  | some x => exact h x rfl

theorem SoundArtifact.fits {artifact : Registry.IndexArtifact} (h : SoundArtifact artifact)
    (hdepth : depth + 5 ≤ maxDepth) : Fits depth (indexArtifactToJson artifact) := by
  have hcompatibility : Fits (depth + 1) (jsonObject (compatibilityTable artifact.compatibility)) := by
    refine (fits_jsonObject_iff (shape_indexCompatibility.nodup _)).mpr ⟨by omega, fun name value hmem => ?_⟩
    simp only [compatibilityTable, List.mem_cons, Prod.mk.injEq, List.not_mem_nil, or_false] at hmem
    rcases hmem with ⟨rfl, hvalue⟩ | ⟨rfl, hvalue⟩
    · rw [Option.some.inj hvalue]
      exact ⟨by decide, h.profiles.fits (by omega)⟩
    · rw [Option.some.inj hvalue]
      exact ⟨by decide, h.platforms.fits (by omega)⟩
  have hinstall : Fits (depth + 1) (jsonObject (installTable artifact.install)) := by
    refine (fits_jsonObject_iff (shape_indexInstall.nodup _)).mpr ⟨by omega, fun name value hmem => ?_⟩
    simp only [installTable, List.mem_cons, Prod.mk.injEq, List.not_mem_nil, or_false] at hmem
    rcases hmem with ⟨rfl, hvalue⟩ | ⟨rfl, hvalue⟩ | ⟨rfl, hvalue⟩
    · rw [Option.some.inj hvalue]
      exact ⟨by decide, h.scopes.fits (by omega)⟩
    · rw [Option.some.inj hvalue]
      exact ⟨by decide, h.modes.fits (by omega)⟩
    · rw [Option.some.inj hvalue]
      exact ⟨by decide, h.effects.fits (by omega)⟩
  have hsetup : Fits (depth + 1) (orNull (fun setup => jsonObject (setupTable setup)) artifact.setup) :=
    fits_orNull (by omega) fun setup hsome => (h.setup setup hsome).1.fits (h.setup setup hsome).2 (by omega)
  have hreview : Fits (depth + 1) (orNull reviewToJson artifact.review) :=
    fits_orNull (by omega) fun review hsome => (h.review review hsome).fits (by omega)
  have hprovenance :
      Fits (depth + 1) (orNull (fun provenance => jsonObject (provenanceTable provenance)) artifact.provenance) :=
    fits_orNull (by omega) fun provenance hsome => (h.provenance provenance hsome).fits (by omega)
  have hbounds : ∀ value, optionalBounds artifact.requiresAart = some value → Fits (depth + 1) value := by
    intro value hvalue
    rcases content_optionalBounds artifact.requiresAart with ⟨hcontent, _⟩ | ⟨hcontent, _⟩
    · rw [hcontent] at hvalue
      cases hvalue
    · rw [hcontent] at hvalue
      rw [← Option.some.inj hvalue]
      exact h.bounds.fits (by omega)
  have hrequires : ∀ value, optionalArray selectorToJson artifact.requires = some value → Fits (depth + 1) value := by
    intro value hvalue
    rcases content_optionalArray selectorToJson artifact.requires with ⟨hcontent, _⟩ | ⟨hcontent, _⟩
    · rw [hcontent] at hvalue
      cases hvalue
    · rw [hcontent] at hvalue
      rw [← Option.some.inj hvalue]
      exact h.requires.fits (by omega)
  have htext {text : String} (hshort : text.length ≤ maxStringLength) : Fits (depth + 1) (.str text) :=
    fits_str.mpr ⟨by omega, hshort⟩
  have hall : ∀ field ∈ indexArtifactTable artifact, ∀ value, field.2 = some value → Fits (depth + 1) value := by
    simp only [indexArtifactTable, List.forall_mem_cons, Option.some.injEq, forall_eq', List.not_mem_nil, false_implies,
      implies_true, and_true]
    exact ⟨htext h.source, htext (by cases artifact.identity.kind <;> decide), htext h.name, htext h.versionShort,
      htext h.summaryShort, htext (length_digest h.manifestDigest), htext (length_digest h.payloadDigest),
      htext (length_digest h.objectDigest), hcompatibility, hinstall, hsetup, hreview, hprovenance,
      h.collections.fits (by omega), hbounds, hrequires⟩
  refine (fits_jsonObject_iff (shape_indexArtifact.nodup artifact)).mpr ⟨by omega, fun name value hmem => ?_⟩
  exact ⟨shape_indexArtifact.short name (shape_indexArtifact.names artifact (List.mem_map.mpr ⟨_, hmem, rfl⟩)),
    hall _ hmem value rfl⟩

/-! ## What a package has -/

omit [StandardLibrary] in
theorem nameSets_of_compatibility {compatibility : Registry.CompatibilitySpec}
    (hfits : Fits depth value) (h : Native.compatibility value = .ok compatibility) :
    NameSet false compatibility.profiles ∧ NameSet false compatibility.platforms := by
  obtain ⟨entries, hentries, h1⟩ := Result.of_bind_ok h
  obtain ⟨fields, hfields, h2⟩ := Result.of_bind_ok h1
  obtain rfl := asObject_eq_ok hentries
  obtain ⟨rfl, _⟩ := validateObjectFields_eq_ok.mp hfields
  obtain ⟨profiles, hprofiles, h3⟩ := Result.of_bind_ok h2
  obtain ⟨platforms, hplatforms, h4⟩ := Result.of_bind_ok h3
  obtain rfl := Except.ok.inj h4
  exact ⟨nameSet_of_anyNames (fits_required hfits "profiles" (fun x hx => by cases hx) hprofiles) hprofiles,
    nameSet_of_anyNames (fits_required hfits "platforms" (fun x hx => by cases hx) hplatforms) hplatforms⟩

omit [StandardLibrary] in
theorem slug_of_choiceName {all : List α} {text : α → String} {code : DiagnosticCode} {label raw : String}
    {found : α} (hslug : ∀ x ∈ all, isSlug (text x) = true) (h : Native.choiceName all text code label raw = .ok found) :
    isSlug raw = true := by
  unfold Native.choiceName at h
  split at h
  · rename_i choice hchoice
    have hmem := List.mem_of_find?_eq_some hchoice
    have htext : text choice = raw := by simpa using List.find?_some hchoice
    exact htext ▸ hslug choice hmem
  · cases h

omit [StandardLibrary] in
theorem nameSets_of_install {install : Registry.InstallSpec} (hfits : Fits depth value)
    (h : Native.install value = .ok install) : NameSet false (install.scopes.map InstallScope.value) ∧
      NameSet false (install.modes.map InstallMode.value) ∧
      NameSet false (install.effects.map Registry.InstallEffect.value) := by
  obtain ⟨entries, hentries, h1⟩ := Result.of_bind_ok h
  obtain ⟨fields, hfields, h2⟩ := Result.of_bind_ok h1
  obtain rfl := asObject_eq_ok hentries
  obtain ⟨rfl, _⟩ := validateObjectFields_eq_ok.mp hfields
  obtain ⟨scopes, hscopes, h3⟩ := Result.of_bind_ok h2
  obtain ⟨modes, hmodes, h4⟩ := Result.of_bind_ok h3
  obtain ⟨effects, heffects, h5⟩ := Result.of_bind_ok h4
  obtain rfl := Except.ok.inj h5
  refine ⟨?_, ?_, ?_⟩
  · exact nameSet_of_namedValues (Native.textOf_choiceName installScope_choice _ _)
      (fun _ _ => slug_of_choiceName (by decide)) (fits_required hfits "scopes" (fun x hx => by cases hx) hscopes) hscopes
  · exact nameSet_of_namedValues (Native.textOf_choiceName installMode_choice _ _)
      (fun _ _ => slug_of_choiceName (by decide)) (fits_required hfits "modes" (fun x hx => by cases hx) hmodes) hmodes
  · exact nameSet_of_namedValues (Native.textOf_choiceName installEffect_choice _ _)
      (fun _ _ => slug_of_choiceName (by decide)) (fits_required hfits "effects" (fun x hx => by cases hx) heffects)
      heffects

/-- The rules of the index that the reader of an artifact manifest has checked. -/
structure SoundManifest (manifest : Native.ArtifactManifest) : Prop where
  name : manifest.identity.name.value.length ≤ maxStringLength
  version : parseSemver manifest.version.str = .ok manifest.version
  versionShort : manifest.version.str.length ≤ maxStringLength
  summary : oneLine manifest.summary = true
  summaryShort : manifest.summary.length ≤ maxStringLength
  compatibility : NameSet false manifest.compatibility.profiles ∧ NameSet false manifest.compatibility.platforms
  install : NameSet false (manifest.install.scopes.map InstallScope.value) ∧
    NameSet false (manifest.install.modes.map InstallMode.value) ∧
    NameSet false (manifest.install.effects.map Registry.InstallEffect.value)
  compatible : ∀ effect ∈ manifest.install.effects, effect ∈ installEffectsOf manifest.identity.kind
  setup : ∀ setup, manifest.setup = some setup → SoundSetup setup
  bounds : SoundBounds manifest.requiresAart
  requires : SoundRequirements manifest.identity manifest.requires

omit [StandardLibrary] in
/-- A text that was read, with the text itself and its length. -/
theorem text_of_required {read : String → Result α} {text : α → String} (htext : TextOf read text)
    {code : DiagnosticCode} {label name : String} {singleLine : Bool} {fields : Dict} {x : α}
    (hfits : Fits depth (.obj fields))
    (h : requiredField fields name (textOf code label singleLine read) = .ok x) :
    read (text x) = .ok x ∧ (text x).length ≤ maxStringLength := by
  have hmember := fits_required hfits name (fun x hx => by cases hx) h
  obtain ⟨raw, hraw, hread⟩ := Result.of_bind_ok h
  rw [stringField_eq_ok hraw] at hmember
  rw [htext raw x hread]
  exact ⟨hread, (fits_str.mp hmember).2⟩

theorem soundManifest_of_artifactManifest {manifest : Native.ArtifactManifest}
    (hfits : Fits depth value) (h : Native.artifactManifestOf value = .ok manifest) : SoundManifest manifest := by
  obtain ⟨entries, hentries, hvalidated⟩ := Result.of_bind_ok h
  obtain ⟨fields, hfields, hbody⟩ := Result.of_bind_ok hvalidated
  obtain rfl := asObject_eq_ok hentries
  obtain ⟨rfl, _⟩ := validateObjectFields_eq_ok.mp hfields
  obtain ⟨schemaVersion, _, h1⟩ := Result.of_bind_ok hbody
  obtain ⟨kind, _, h2⟩ := Result.of_bind_ok h1
  obtain ⟨name, hname, h3⟩ := Result.of_bind_ok h2
  obtain ⟨version, hversion, h4⟩ := Result.of_bind_ok h3
  obtain ⟨summary, hsummary, h5⟩ := Result.of_bind_ok h4
  obtain ⟨payload, _, h6⟩ := Result.of_bind_ok h5
  obtain ⟨compatibility, hcompatibility, h7⟩ := Result.of_bind_ok h6
  obtain ⟨install, hinstall, h8⟩ := Result.of_bind_ok h7
  obtain ⟨compatible, hcompatible, h9⟩ := Result.of_bind_ok h8
  obtain ⟨bounds, hbounds, h10⟩ := Result.of_bind_ok h9
  obtain ⟨requires, hrequires, h11⟩ := Result.of_bind_ok h10
  obtain ⟨setup, hsetup, h12⟩ := Result.of_bind_ok h11
  obtain ⟨authors, _, h13⟩ := Result.of_bind_ok h12
  obtain ⟨license, _, h14⟩ := Result.of_bind_ok h13
  obtain ⟨homepage, _, h15⟩ := Result.of_bind_ok h14
  obtain rfl := Except.ok.inj h15
  have hsummaryText : (Dict.get? fields "summary").getD .null = .str summary := stringField_eq_ok hsummary
  have hsummaryFits := fits_required hfits "summary" (fun x hx => by cases hx) hsummary
  rw [hsummaryText] at hsummaryFits
  obtain ⟨hparsed, hshort⟩ := text_of_required textOf_semver hfits hversion
  refine ⟨(text_of_required (textOf_slug _ _) hfits hname).2, hparsed, hshort, (stringField_eq_ok_iff.mp hsummary).2,
    (fits_str.mp hsummaryFits).2, ?_, ?_, ?_, ?_, ?_, ?_⟩
  · exact nameSets_of_compatibility (fits_required hfits "compatibility" (fun x hx => by cases hx) hcompatibility)
      hcompatibility
  · exact nameSets_of_install (fits_required hfits "install" (fun x hx => by cases hx) hinstall) hinstall
  · simpa using List.any_eq_false.mp (refuse_eq_ok.mp hcompatible)
  · rintro found rfl
    unfold optionalField at hsetup
    split at hsetup
    · cases hsetup
    · rename_i member hmember
      obtain ⟨x, hx, hsame⟩ := Result.of_map_ok hsetup
      obtain rfl := Option.some.inj hsame
      exact soundSetup_of_setup (Manifest.fits_of_get? hfits hmember).2 hx
  · unfold defaultedField at hbounds
    split at hbounds
    · rw [← Except.ok.inj hbounds]
      exact soundBounds_default
    · rename_i member hmember
      exact soundBounds_of_boundsField (Manifest.fits_of_get? hfits hmember).2 hbounds
  · unfold defaultedField at hrequires
    split at hrequires
    · rw [← Except.ok.inj hrequires]
      exact soundRequirements_nil _
    · rename_i member hmember
      exact soundRequirements_of_requirements (Manifest.fits_of_get? hfits hmember).2 hrequires

omit [StandardLibrary] in
theorem nameSet_plannedCapabilities (installer : SetupInstaller) : NameSet true (plannedCapabilities installer) := by
  have hstep (step name : String) (hname : name ∈ Registry.plannedCapabilitiesOf step) :
      isSlug name = true ∧ name.length ≤ maxStringLength := by
    unfold Registry.plannedCapabilitiesOf at hname
    split at hname <;> simp only [List.mem_cons, List.not_mem_nil, or_false] at hname
    all_goals first
      | (subst hname; decide)
      | (rcases hname with rfl | rfl <;> decide)
      | (rcases hname with rfl | rfl | rfl <;> decide)
  have hname (name : String) (hmem : name ∈ plannedCapabilities installer) :
      isSlug name = true ∧ name.length ≤ maxStringLength := by
    rcases List.mem_append.mp (mem_sortedSet.mp hmem) with h | h
    · obtain ⟨step, _, hstep'⟩ := List.mem_flatMap.mp h
      exact hstep step name hstep'
    · split at h
      · obtain rfl := List.mem_singleton.mp h
        decide
      · cases h
  exact ⟨by simp, sortedSet_sortedSet _, fun name h => (hname name h).1, fun name h => (hname name h).2⟩

variable [JsonRuntime]

/-- The provenance that a package carries is pinned Git content. -/
theorem soundProvenance_of_parse {data : Bytes} {provenance : Native.Provenance}
    (h : Native.parseProvenance data = .ok provenance) : SoundProvenance (pinned provenance) := by
  obtain ⟨value, hvalue, hread⟩ := Result.of_bind_ok h
  obtain ⟨entries, hentries, h1⟩ := Result.of_bind_ok hread
  obtain ⟨fields, hfields, h2⟩ := Result.of_bind_ok h1
  obtain rfl := asObject_eq_ok hentries
  obtain ⟨rfl, _⟩ := validateObjectFields_eq_ok.mp hfields
  obtain ⟨schemaVersion, _, h3⟩ := Result.of_bind_ok h2
  obtain ⟨origin, horigin, h4⟩ := Result.of_bind_ok h3
  obtain ⟨importer, _, h5⟩ := Result.of_bind_ok h4
  obtain ⟨warnings, _, h6⟩ := Result.of_bind_ok h5
  obtain rfl := Except.ok.inj h6
  exact soundProvenance_of_origin (fits_required (fits_of_parseJson hvalue) "origin" (fun x hx => by cases hx) horigin)
    horigin

/-- What the compiler of packages leaves for the index. -/
structure SoundPackage (package : NativeArtifactPackage) : Prop where
  manifest : ∃ manifest, package.manifest = declared manifest ∧ SoundManifest manifest
  manifestDigest : validDigest package.manifestDigest = true
  payloadDigest : validDigest package.payloadDigest = true
  provenance : ∀ provenance, package.provenance = some provenance → SoundProvenance provenance

theorem soundPackage_of_compiled (hlength : Sha256Length)
    {readSetup : Native.ArtifactManifest → PackageEntries → Result SetupInstaller} {entries : List SnapshotEntry}
    {expected : Option ArtifactIdentity} {package : NativeArtifactPackage}
    (h : compileNativePackage readSetup entries expected = .ok package) : SoundPackage package := by
  obtain ⟨members, _, hcompiled⟩ := Result.of_bind_ok h
  obtain ⟨manifest, hmanifest, h1⟩ := Result.of_bind_ok hcompiled
  obtain ⟨named, _, h2⟩ := Result.of_bind_ok h1
  obtain ⟨roots, _, h3⟩ := Result.of_bind_ok h2
  obtain ⟨primary, _, h4⟩ := Result.of_bind_ok h3
  obtain ⟨installer, _, h5⟩ := Result.of_bind_ok h4
  obtain ⟨provenance, hprovenance, h6⟩ := Result.of_bind_ok h5
  obtain ⟨digest, hdigest, h7⟩ := Result.of_bind_ok h6
  obtain rfl := Except.ok.inj h7
  refine ⟨⟨manifest, rfl, ?_⟩, validDigest_sha256Bytes hlength _, ?_, ?_⟩
  · unfold Registry.packageManifest at hmanifest
    split at hmanifest
    · cases hmanifest
    · split at hmanifest
      · cases hmanifest
      · obtain ⟨value, hvalue, hread⟩ := Result.of_bind_ok hmanifest
        exact soundManifest_of_artifactManifest (fits_of_parseJson hvalue) hread
  · obtain ⟨files, _, h8⟩ := Result.of_bind_ok hdigest
    obtain ⟨above, _, h9⟩ := Result.of_bind_ok h8
    unfold insteadOf at h9
    split at h9
    · rename_i found hfound
      obtain rfl := Except.ok.inj h9
      unfold treeDigest at hfound
      dsimp only at hfound
      split at hfound
      · obtain ⟨records, _, h10⟩ := Result.of_bind_ok hfound
        rw [← Except.ok.inj h10]
        exact validDigest_sha256Bytes hlength _
      · cases hfound
    · cases h9
  · intro found hfound
    unfold Registry.packageProvenance at hprovenance
    split at hprovenance
    · obtain rfl := Except.ok.inj hprovenance
      cases hfound
    · split at hprovenance
      · cases hprovenance
      · obtain ⟨parsed, hparsed, hsame⟩ := Result.of_map_ok hprovenance
        subst hsame
        obtain rfl := Option.some.inj hfound
        exact soundProvenance_of_parse hparsed

omit [JsonRuntime] in
theorem SoundPackage.indexArtifact {package : NativeArtifactPackage} (h : SoundPackage package) {sourceId : SourceId}
    {objectDigest : ObjectDigest} {review : Option ReviewRecord} {names others : List String}
    (hsource : sourceId.value.length ≤ maxStringLength) (hobject : validDigest objectDigest = true)
    (hreview : ∀ found, review = some found → SoundReview found) (hnames : NameSet true names) :
    SoundArtifact { indexArtifactFromPackage package sourceId objectDigest review others with collections := names } := by
  obtain ⟨manifest, hsame, hmanifest⟩ := h.manifest
  refine ⟨hsource, ?_, ?_, ?_, ?_, ?_, h.manifestDigest, h.payloadDigest, hobject, ?_, ?_, ?_, ?_, ?_, ?_, ?_, hreview,
    h.provenance, hnames, ?_, ?_⟩ <;> simp only [indexArtifactFromPackage, hsame, declared]
  · exact hmanifest.name
  · exact hmanifest.version
  · exact hmanifest.versionShort
  · exact hmanifest.summary
  · exact hmanifest.summaryShort
  · exact hmanifest.compatibility.1
  · exact hmanifest.compatibility.2
  · exact hmanifest.install.1
  · exact hmanifest.install.2.1
  · exact hmanifest.install.2.2
  · exact hmanifest.compatible
  · intro setup hsetup
    obtain ⟨declaredSetup, hdeclared, rfl⟩ := Option.map_eq_some_iff.mp hsetup
    refine ⟨hmanifest.setup _ hdeclared, ?_⟩
    cases package.setupInstaller with
    | none => exact ⟨by simp, rfl, by simp, by simp⟩
    | some installer =>
        have hwritten : ((plannedCapabilities installer).map Capability.mk).map Capability.value =
            plannedCapabilities installer := by
          rw [List.map_map]
          exact List.map_id _
        simpa only [hwritten] using nameSet_plannedCapabilities installer
  · exact hmanifest.bounds
  · exact hmanifest.requires

end Library

end AgentArtifacts.RegistrySchema
