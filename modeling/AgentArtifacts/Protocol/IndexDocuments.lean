import AgentArtifacts.Protocol.IndexCollections
import AgentArtifacts.Registry.Loading
import AgentArtifacts.Registry.Rebuilding

/-!
# The index as bytes

What a maintainer builds is what a consumer reads, exactly where the parts that no
reader has checked before are well formed and the extensions of the collections leave
room for being embedded.
-/

namespace AgentArtifacts.RegistrySchema

open JsonText (InRange)
open Manifest (Fields jsonObject requiredField validDigest fits_jsonObject_iff identity_str_injective)
open Native (duplicates parseCollectionManifest)
open Registry (ReviewRecord registryIndexInvalid compileNativePackage indexArtifactFromPackage PackageEntries
  SetupInstaller validateRegistryGraph sortedBy sortedSet derived_of_valid mem_collections_of_valid
  validateRegistryGraph_rebuilt soundGraph_of_valid soundGraph_rebuilt perm_sortedBy mem_sortedBy perm_derived)
open Schema

/-! ## Printing an index -/

theorem printable_orNull {α : Type} {write : α → Json} (found : Option α) (h : ∀ x, Printable (write x)) :
    Printable (orNull write found) := by
  cases found with
  | none => exact printable_null
  | some x => exact h x

theorem printable_bounds (bounds : VersionBounds) : Printable (boundsToJson bounds) := by
  refine printable_optional (shape_bounds.nodup bounds) ?_
  simp only [boundsTable, List.forall_mem_cons, Option.map_eq_some_iff]
  refine ⟨?_, ?_, by simp⟩
  · rintro value ⟨version, _, rfl⟩
    exact printable_str _
  · rintro value ⟨version, _, rfl⟩
    exact printable_str _

theorem printable_selector (selector : Registry.ArtifactSelector) : Printable (selectorToJson selector) := by
  refine printable_optional (shape_selector.nodup selector) ?_
  simp only [selectorTable, List.forall_mem_cons, Option.some.injEq, forall_eq', Option.map_eq_some_iff]
  refine ⟨printable_str _, printable_str _, ?_, by simp⟩
  rintro value ⟨bounds, _, rfl⟩
  exact printable_bounds bounds

theorem printable_review (review : ReviewRecord) : Printable (reviewToJson review) := by
  refine printable_optional (shape_review.nodup review) ?_
  simp only [reviewTable, List.forall_mem_cons, Option.some.injEq, forall_eq']
  exact ⟨printable_str _, printable_str _, by simp⟩

theorem printable_indexArtifact [StandardLibrary] (artifact : Registry.IndexArtifact) :
    Printable (indexArtifactToJson artifact) := by
  have hcompatibility : Printable (jsonObject (compatibilityTable artifact.compatibility)) := by
    refine printable_optional (shape_indexCompatibility.nodup _) ?_
    simp only [compatibilityTable, List.forall_mem_cons, Option.some.injEq, forall_eq']
    exact ⟨printable_strings _, printable_strings _, by simp⟩
  have hinstall : Printable (jsonObject (installTable artifact.install)) := by
    refine printable_optional (shape_indexInstall.nodup _) ?_
    simp only [installTable, List.forall_mem_cons, Option.some.injEq, forall_eq']
    exact ⟨printable_strings _, printable_strings _, printable_strings _, by simp⟩
  have hsetup (setup : Registry.IndexSetup) : Printable (jsonObject (setupTable setup)) := by
    refine printable_optional (shape_indexSetup.nodup _) ?_
    simp only [setupTable, List.forall_mem_cons, Option.some.injEq, forall_eq']
    exact ⟨printable_str _, printable_strings _, printable_strings _, by simp⟩
  have hprovenance (provenance : IndexProvenance) : Printable (jsonObject (provenanceTable provenance)) := by
    refine printable_optional (shape_indexProvenance.nodup _) ?_
    simp only [provenanceTable, List.forall_mem_cons, Option.some.injEq, forall_eq']
    exact ⟨printable_str _, printable_str _, printable_str _, by simp⟩
  have hbounds : ∀ value, optionalBounds artifact.requiresAart = some value → Printable value := by
    intro value hvalue
    rcases content_optionalBounds artifact.requiresAart with ⟨hcontent, _⟩ | ⟨hcontent, _⟩
    · rw [hcontent] at hvalue
      cases hvalue
    · rw [hcontent] at hvalue
      rw [← Option.some.inj hvalue]
      exact printable_bounds _
  have hrequires : ∀ value, optionalArray selectorToJson artifact.requires = some value → Printable value := by
    intro value hvalue
    rcases content_optionalArray selectorToJson artifact.requires with ⟨hcontent, _⟩ | ⟨hcontent, _⟩
    · rw [hcontent] at hvalue
      cases hvalue
    · rw [hcontent] at hvalue
      rw [← Option.some.inj hvalue]
      exact printable_arr (by simpa using fun selector _ => printable_selector selector)
  refine printable_optional (shape_indexArtifact.nodup artifact) ?_
  simp only [indexArtifactTable, List.forall_mem_cons, Option.some.injEq, forall_eq', List.not_mem_nil, false_implies,
    implies_true, and_true]
  exact ⟨printable_str _, printable_str _, printable_str _, printable_str _, printable_str _, printable_str _,
    printable_str _, printable_str _, hcompatibility, hinstall, printable_orNull _ hsetup,
    printable_orNull _ printable_review, printable_orNull _ hprovenance, printable_strings _, hbounds, hrequires⟩

theorem shape_index : Shape indexRequired [] indexTable where
  names index := by simp [indexTable, indexRequired]
  nodup index := by simp [indexTable]
  found := by simp [indexTable, indexRequired]
  short := by decide

/-! ## Building and reading -/

section Built

variable [StandardLibrary]

/-- An artifact as the index has it of a package that was compiled. -/
def CompiledArtifact (readSetup : Native.ArtifactManifest → PackageEntries → Result SetupInstaller)
    (artifact : Registry.IndexArtifact) : Prop :=
  ∃ entries expected package sourceId objectDigest review names,
    compileNativePackage readSetup entries expected = .ok package ∧
      artifact = indexArtifactFromPackage package sourceId objectDigest review names

/-- What is given along with a package is well formed. -/
structure Indexable (artifact : Registry.IndexArtifact) : Prop where
  source : artifact.sourceId.value.length ≤ maxStringLength
  objectDigest : validDigest artifact.objectDigest = true
  review : ∀ review, artifact.review = some review → SoundReview review

variable {manifest : RegistryManifest} {inputsDigest : ObjectDigest} {artifacts : List Registry.IndexArtifact}
  {collections : List Native.CollectionManifest} {index : RegistryIndex}

omit [StandardLibrary] in
theorem graph_of_build (h : buildRegistryIndex manifest inputsDigest artifacts collections = .ok index) :
    validateRegistryGraph artifacts (collections.map graphCollection) = .ok index.artifacts ∧
      index = ⟨1, manifest.protocolVersion, manifest.registryId, inputsDigest, index.artifacts,
        sortedBy (fun collection => collection.name.value) collections, manifest.services⟩ := by
  obtain ⟨derived, hderived, h1⟩ := Result.of_bind_ok h
  obtain rfl := Except.ok.inj h1
  exact ⟨hderived, rfl⟩

omit [StandardLibrary] in
/-- An artifact of the index is one that was given, under the collections that contain it. -/
theorem original_of_build (h : buildRegistryIndex manifest inputsDigest artifacts collections = .ok index)
    {artifact : Registry.IndexArtifact} (hartifact : artifact ∈ index.artifacts) :
    ∃ original ∈ artifacts, artifact = { original with collections := artifact.collections } := by
  obtain ⟨names, _, hderived⟩ := derived_of_valid (graph_of_build h).1
  rw [hderived] at hartifact
  obtain ⟨original, horiginal, rfl⟩ := List.mem_map.mp (mem_sortedBy.mp hartifact)
  exact ⟨original, horiginal, rfl⟩

omit [StandardLibrary] in
theorem memberships_of_build (h : buildRegistryIndex manifest inputsDigest artifacts collections = .ok index)
    (hcollections : ∀ collection ∈ collections, SoundCollection collection) {artifact : Registry.IndexArtifact}
    (hartifact : artifact ∈ index.artifacts) : NameSet true artifact.collections := by
  have hgraph := (graph_of_build h).1
  have hname (name : String) (hname : name ∈ artifact.collections) :
      isSlug name = true ∧ name.length ≤ maxStringLength := by
    obtain ⟨member, hmember, _, rfl⟩ := (mem_collections_of_valid hgraph hartifact).mp hname
    obtain ⟨collection, hcollection, rfl⟩ := List.mem_map.mp hmember
    have hwritten := (hcollections collection hcollection).members.1 "name" (.str collection.name.value)
      (by simp [collectionDocument, indexCollectionTable])
    exact ⟨collection.name.valid, (fits_str.mp hwritten.2).2⟩
  obtain ⟨names, hsorted, hderived⟩ := derived_of_valid hgraph
  rw [hderived] at hartifact
  obtain ⟨original, _, rfl⟩ := List.mem_map.mp (mem_sortedBy.mp hartifact)
  exact ⟨by simp, hsorted _, fun name hmem => (hname name hmem).1, fun name hmem => (hname name hmem).2⟩

variable [JsonRuntime]

/-- The manifest of a registry holds what the head of its index takes. -/
theorem head_of_manifest {data : Bytes} (h : RegistrySchema.parseRegistryManifest data = .ok manifest) :
    manifest.protocolVersion = 1 ∧ manifest.registryId.value.length ≤ maxStringLength ∧
      Fits 1 (servicesToJson manifest.services) ∧
        services registryIndexInvalid (servicesToJson manifest.services) = .ok manifest.services := by
  obtain ⟨value, hvalue, hread⟩ := Result.of_bind_ok h
  have hfits := fits_of_parseJson hvalue
  obtain ⟨entries, hentries, h1⟩ := Result.of_bind_ok hread
  obtain ⟨fields, hfields, h2⟩ := Result.of_bind_ok h1
  obtain rfl := asObject_eq_ok hentries
  obtain ⟨rfl, _⟩ := validateObjectFields_eq_ok.mp hfields
  obtain ⟨schemaVersion, hschema, h3⟩ := Result.of_bind_ok h2
  obtain ⟨protocolVersion, hprotocol, h4⟩ := Result.of_bind_ok h3
  obtain ⟨rawId, hrawId, h5⟩ := Result.of_bind_ok h4
  obtain ⟨displayName, hname, h6⟩ := Result.of_bind_ok h5
  obtain ⟨bounds, hbounds, h7⟩ := Result.of_bind_ok h6
  obtain ⟨names, hnames, h8⟩ := Result.of_bind_ok h7
  obtain ⟨channel, hchannel, h9⟩ := Result.of_bind_ok h8
  obtain ⟨found, hservices, h10⟩ := Result.of_bind_ok h9
  obtain ⟨supported, hsupported, h11⟩ := Result.of_bind_ok h10
  obtain ⟨registryId, hid, h12⟩ := Result.of_bind_ok h11
  obtain ⟨safe, _, h13⟩ := Result.of_bind_ok h12
  obtain ⟨capabilities, _, h14⟩ := Result.of_bind_ok h13
  obtain rfl := Except.ok.inj h14
  have hid' := fits_required hfits "registry_id" (fun x hx => by cases hx) hrawId
  rw [show (Dict.get? fields "registry_id").getD .null = .str rawId from stringField_eq_ok hrawId] at hid'
  have hwritten := readsBack_services _ (fits_required hfits "services" (fun x hx => by cases hx) hservices) hservices
  refine ⟨by simpa using refuse_eq_ok.mp hsupported, ?_, hwritten.2, services_recoded hwritten.1⟩
  rw [textOf_slug _ _ _ _ hid]
  exact (fits_str.mp hid').2

/-- What the build of an index has to work with. -/
structure IndexInputs (manifest : RegistryManifest) (artifacts : List Registry.IndexArtifact)
    (collections : List Native.CollectionManifest) : Prop where
  manifest : manifest.protocolVersion = 1 ∧ manifest.registryId.value.length ≤ maxStringLength ∧
    Fits 1 (servicesToJson manifest.services) ∧
      services registryIndexInvalid (servicesToJson manifest.services) = .ok manifest.services
  artifacts : ∀ artifact ∈ artifacts, ∀ names, NameSet true names → Indexable artifact →
    SoundArtifact { artifact with collections := names }
  collections : ∀ collection ∈ collections, SoundCollection collection

theorem IndexInputs.read (h : IndexInputs manifest artifacts collections)
    (hbuild : buildRegistryIndex manifest inputsDigest artifacts collections = .ok index)
    (hdigest : validDigest inputsDigest = true) (hindexable : ∀ artifact ∈ artifacts, Indexable artifact) :
    registryIndexOf (registryIndexToJson index) = .ok index := by
  obtain ⟨hgraph, hindex⟩ := graph_of_build hbuild
  obtain ⟨hprotocol, hid, _, hservices⟩ := h.manifest
  have hartifact (artifact : Registry.IndexArtifact) (hmem : artifact ∈ index.artifacts) :
      RegistrySchema.indexArtifact (indexArtifactToJson artifact) = .ok artifact := by
    obtain ⟨original, horiginal, hsame⟩ := original_of_build hbuild hmem
    rw [hsame]
    exact (h.artifacts original horiginal _ (memberships_of_build hbuild h.collections hmem)
      (hindexable original horiginal)).indexArtifact
  have hcollection (collection : Native.CollectionManifest) (hmem : collection ∈ index.collections) :
      RegistrySchema.indexCollection (indexCollectionToJson collection) = .ok collection := by
    rw [hindex] at hmem
    exact (h.collections collection (mem_sortedBy.mp hmem)).indexCollection
  have hperm : (index.collections.map graphCollection).Perm (collections.map graphCollection) := by
    rw [hindex]
    exact (perm_sortedBy _ _).map _
  have hagain : validateRegistryGraph index.artifacts (index.collections.map graphCollection) = .ok index.artifacts :=
    validateRegistryGraph_rebuilt hgraph hperm
  have hsound := soundGraph_of_valid hagain
  have hdistinct : duplicates (index.artifacts.map indexKey) = false := by
    refine decide_eq_false (not_not.mpr ?_)
    refine (hsound.distinctArtifacts.of_map _).map_on ?_
    intro artifact hartifact other hother hkey
    refine List.inj_on_of_nodup_map hsound.distinctArtifacts hartifact hother (identity_str_injective ?_)
    exact (List.cons.inj (List.cons.inj hkey).2).1
  have hnames : duplicates (index.collections.map (·.name)) = false := by
    refine decide_eq_false (not_not.mpr ?_)
    have hgraphNames := hsound.distinctCollections
    rwa [List.map_map] at hgraphNames
  have hsorted : sortedBy indexKey index.artifacts = index.artifacts := by
    obtain ⟨names, _, hderived⟩ := derived_of_valid hgraph
    rw [hderived]
    exact sortedBy_sortedBy _ _
  have hsortedCollections : sortedBy (fun collection => collection.name.value) index.collections = index.collections := by
    rw [hindex]
    exact sortedBy_sortedBy _ _
  refine objectOf_written shape_index fun written hwritten => ?_
  simp only [indexTable, List.forall_mem_cons] at hwritten
  obtain ⟨wschema, wprotocol, wid, wdigest, wartifacts, wcollections, wservices, _⟩ := hwritten
  have hdigestField : requiredField written "registry_inputs_digest"
      (digestField registryIndexInvalid "registry_inputs_digest" true) = .ok index.registryInputsDigest :=
    requiredField_digest wdigest (by rw [hindex]; exact hdigest)
  have hschemaField : requiredField written "schema_version" (schemaVersion registryIndexInvalid) =
      .ok index.schemaVersion := by
    rw [requiredField, wschema, hindex]
    rfl
  have hprotocolField : requiredField written "protocol_version" (integerField registryIndexInvalid "protocol_version") =
      .ok index.protocolVersion := by
    rw [requiredField, wprotocol]
    rfl
  have hservicesField : requiredField written "services" (services registryIndexInvalid) = .ok index.services := by
    rw [requiredField, wservices, hindex]
    exact hservices
  have hslug : slug registryIndexInvalid "compiled index header is invalid" index.registryId.value =
      .ok index.registryId := by
    rw [slug, Manifest.slugOf_eq_some.mpr rfl]
  have hsupported : (index.protocolVersion != 1) = false := by
    rw [hindex]
    simpa using hprotocol
  have hartifactsField : requiredField written "artifacts"
      (asArray registryIndexInvalid "index artifacts/collections must be arrays") =
        .ok (index.artifacts.map indexArtifactToJson) := by
    rw [requiredField, wartifacts]
    rfl
  have hcollectionsField : requiredField written "collections"
      (asArray registryIndexInvalid "index artifacts/collections must be arrays") =
        .ok (index.collections.map indexCollectionToJson) := by
    rw [requiredField, wcollections]
    rfl
  simp only [indexBody, hschemaField, hprotocolField, requiredField_line wid (Manifest.Slug.oneLine _), hdigestField,
    hservicesField, hsupported, hslug, hartifactsField, hcollectionsField, Manifest.mapM_written hartifact,
    Manifest.mapM_written hcollection, hdistinct, hnames, hagain, hsorted, hsortedCollections, bne_self_eq_false, refuse, bind,
    Except.bind]
  rfl

omit [JsonRuntime] in
theorem IndexInputs.printable (h : IndexInputs manifest artifacts collections)
    (hbuild : buildRegistryIndex manifest inputsDigest artifacts collections = .ok index) :
    Printable (registryIndexToJson index) := by
  obtain ⟨_, hindex⟩ := graph_of_build hbuild
  have hone : InRange 1 := by
    unfold InRange
    decide
  refine printable_optional (shape_index.nodup index) ?_
  simp only [indexTable, List.forall_mem_cons, Option.some.injEq, forall_eq', List.not_mem_nil, false_implies,
    implies_true, and_true]
  refine ⟨?_, ?_, printable_str _, printable_str _, ?_, ?_, ?_⟩
  · rw [hindex]
    exact printable_int hone
  · rw [hindex]
    refine printable_int ?_
    rw [h.manifest.1]
    exact hone
  · exact printable_arr (by simpa using fun artifact _ => printable_indexArtifact artifact)
  · refine printable_arr fun item hitem => ?_
    obtain ⟨collection, hmem, rfl⟩ := List.mem_map.mp hitem
    rw [hindex] at hmem
    exact (h.collections collection (mem_sortedBy.mp hmem)).printable
  · rw [hindex]
    exact Printable.of_fits h.manifest.2.2.1

omit [JsonRuntime] in
theorem IndexInputs.fits (h : IndexInputs manifest artifacts collections)
    (hbuild : buildRegistryIndex manifest inputsDigest artifacts collections = .ok index)
    (hdigest : validDigest inputsDigest = true) (hindexable : ∀ artifact ∈ artifacts, Indexable artifact)
    (hroom : ∀ collection ∈ collections, ∀ entry ∈ collection.extensions, 3 + height entry.2 ≤ maxDepth) :
    Fits 0 (registryIndexToJson index) := by
  obtain ⟨_, hindex⟩ := graph_of_build hbuild
  obtain ⟨hprotocol, hid, hservices, _⟩ := h.manifest
  have hone : Fits 1 (.int 1) := by
    rw [Fits, InRange]
    decide
  have hall : ∀ field ∈ indexTable index, ∀ value, field.2 = some value → Fits 1 value := by
    simp only [indexTable, List.forall_mem_cons, Option.some.injEq, forall_eq', List.not_mem_nil, false_implies,
      implies_true, and_true]
    refine ⟨?_, ?_, ?_, ?_, ?_, ?_, ?_⟩
    · rw [hindex]
      exact hone
    · rw [hindex]
      exact hprotocol ▸ hone
    · rw [hindex]
      exact fits_str.mpr ⟨by decide, hid⟩
    · rw [hindex]
      exact fits_str.mpr ⟨by decide, length_digest hdigest⟩
    · refine fits_arr.mpr ⟨by decide, fun item hitem => ?_⟩
      obtain ⟨artifact, hmem, rfl⟩ := List.mem_map.mp hitem
      obtain ⟨original, horiginal, hsame⟩ := original_of_build hbuild hmem
      rw [hsame]
      exact (h.artifacts original horiginal _ (memberships_of_build hbuild h.collections hmem)
        (hindexable original horiginal)).fits (by decide)
    · refine fits_arr.mpr ⟨by decide, fun item hitem => ?_⟩
      obtain ⟨collection, hmem, rfl⟩ := List.mem_map.mp hitem
      rw [hindex] at hmem
      have hcollection := mem_sortedBy.mp hmem
      exact (h.collections collection hcollection).fits_iff.mpr (hroom collection hcollection)
    · rw [hindex]
      exact hservices
  refine (fits_jsonObject_iff (shape_index.nodup index)).mpr ⟨by decide, fun name value hmem => ?_⟩
  exact ⟨shape_index.short name (shape_index.names index (List.mem_map.mpr ⟨_, hmem, rfl⟩)), hall _ hmem value rfl⟩

omit [StandardLibrary] [JsonRuntime] in
theorem valid_of_digestField {code : DiagnosticCode} {label : String} {digest found : ObjectDigest}
    (h : digestField code label true (.str digest.str) = .ok found) : validDigest digest = true := by
  obtain ⟨raw, hraw, hparsed⟩ := Result.of_bind_ok h
  obtain rfl := Json.str.inj (stringField_eq_ok hraw)
  unfold insteadOf at hparsed
  split at hparsed
  · rename_i other hother
    have hsame := Manifest.parseSha256_eq_ok.mp hother
    rw [Manifest.digest_eq_of_str hsame.1]
    exact hsame.2
  · cases hparsed

omit [JsonRuntime] in
/-- An artifact that is read from an index at all was given with a valid digest and a valid review. -/
theorem indexable_of_read {artifact found : Registry.IndexArtifact}
    (h : RegistrySchema.indexArtifact (indexArtifactToJson artifact) = .ok found)
    (hfits : Fits 2 (indexArtifactToJson artifact)) : Indexable artifact := by
  have hmember (name : String) (value : Json) (hmem : (name, some value) ∈ indexArtifactTable artifact) :
      Fits 3 value := (((fits_jsonObject_iff (shape_indexArtifact.nodup artifact)).mp hfits).2 name value hmem).2
  obtain ⟨written, hwritten, hbody⟩ := body_of_objectOf shape_indexArtifact h
  obtain ⟨rawId, _, h1⟩ := Result.of_bind_ok hbody
  obtain ⟨identity, _, h2⟩ := Result.of_bind_ok h1
  obtain ⟨rawVersion, _, h3⟩ := Result.of_bind_ok h2
  obtain ⟨summary, _, h4⟩ := Result.of_bind_ok h3
  obtain ⟨manifestDigest, _, h5⟩ := Result.of_bind_ok h4
  obtain ⟨payloadDigest, _, h6⟩ := Result.of_bind_ok h5
  obtain ⟨objectDigest, hobject, h7⟩ := Result.of_bind_ok h6
  obtain ⟨sourceId, _, h8⟩ := Result.of_bind_ok h7
  obtain ⟨version, _, h9⟩ := Result.of_bind_ok h8
  obtain ⟨bounds, _, h10⟩ := Result.of_bind_ok h9
  obtain ⟨requires, _, h11⟩ := Result.of_bind_ok h10
  obtain ⟨compatibilityObject, _, h12⟩ := Result.of_bind_ok h11
  obtain ⟨installObject, _, h13⟩ := Result.of_bind_ok h12
  obtain ⟨compatibilityFields, _, h14⟩ := Result.of_bind_ok h13
  obtain ⟨installFields, _, h15⟩ := Result.of_bind_ok h14
  obtain ⟨profiles, _, h16⟩ := Result.of_bind_ok h15
  obtain ⟨platforms, _, h17⟩ := Result.of_bind_ok h16
  obtain ⟨scopes, _, h18⟩ := Result.of_bind_ok h17
  obtain ⟨modes, _, h19⟩ := Result.of_bind_ok h18
  obtain ⟨effects, _, h20⟩ := Result.of_bind_ok h19
  obtain ⟨compatible, _, h21⟩ := Result.of_bind_ok h20
  obtain ⟨setup, _, h22⟩ := Result.of_bind_ok h21
  obtain ⟨provenance, _, h23⟩ := Result.of_bind_ok h22
  obtain ⟨memberships, _, h24⟩ := Result.of_bind_ok h23
  obtain ⟨review, hreview, _⟩ := Result.of_bind_ok h24
  refine ⟨(fits_str.mp (hmember "source_id" _ (by simp [indexArtifactTable]))).2, ?_, ?_⟩
  · have hget : Dict.get? written "object_digest" = some (.str artifact.objectDigest.str) :=
      hwritten ("object_digest", some (.str artifact.objectDigest.str)) (by simp [indexArtifactTable])
    rw [requiredField, hget] at hobject
    exact valid_of_digestField hobject
  · intro record hrecord
    have hget : Dict.get? written "review" = some (reviewToJson record) := by
      have hfield := hwritten ("review", some (orNull reviewToJson artifact.review)) (by simp [indexArtifactTable])
      rw [hrecord] at hfield
      exact hfield
    have hfitsReview : Fits 3 (reviewToJson record) := by
      have hfield := hmember "review" (orNull reviewToJson artifact.review) (by simp [indexArtifactTable])
      rw [hrecord] at hfield
      exact hfield
    rw [requiredField, hget] at hreview
    obtain ⟨same, hsame, _⟩ := Result.of_map_ok (show (RegistrySchema.review registryIndexInvalid
      (reviewToJson record)).map some = .ok review from hreview)
    obtain ⟨_, hstatus, hpolicy⟩ := review_written_iff.mp hsame
    refine ⟨hstatus, hpolicy, ?_⟩
    have hfield := ((fits_jsonObject_iff (shape_review.nodup record)).mp hfitsReview).2 "policy" (.str record.policy)
      (by simp [reviewTable])
    exact (fits_str.mp hfield.2).2

omit [JsonRuntime] in
theorem compiled_of_parts {readSetup : Native.ArtifactManifest → PackageEntries → Result SetupInstaller}
    {entries : List SnapshotEntry} {expected : Option ArtifactIdentity} {members : PackageEntries}
    {manifest : Native.ArtifactManifest} {installer : Option SetupInstaller} {provenance : Option Native.Provenance}
    {digest : ObjectDigest} (hmembers : entries.foldlM Registry.packageEntry [] = .ok members)
    (hmanifest : Registry.packageManifest members = .ok manifest)
    (hexpected : ∀ identity, expected = some identity → manifest.identity = identity)
    (hroots : Registry.packageRoots members = .ok ())
    (hprimary : Registry.validatePrimaryPayload manifest.identity.kind members = .ok ())
    (hsetup : Registry.packageSetup readSetup manifest members = .ok installer)
    (hprovenance : Registry.packageProvenance members = .ok provenance)
    (hpayload : Registry.payloadDigest members = .ok digest) :
    compileNativePackage readSetup entries expected =
      .ok { manifest := Registry.declared manifest, provenance := provenance.map Registry.pinned,
            manifestDigest := jsonDigest (Native.artifactManifestToJson manifest), payloadDigest := digest,
            setupInstaller := installer } := by
  rw [compileNativePackage, hmembers]
  exact Registry.compilePackageEntries_of_parts hmanifest hexpected hroots hprimary hsetup hprovenance hpayload

theorem indexInputs_of_parsed (hlength : Sha256Length)
    {readSetup : Native.ArtifactManifest → PackageEntries → Result SetupInstaller} {data : Bytes}
    (hmanifest : parseRegistryManifest data = .ok manifest)
    (hartifacts : ∀ artifact ∈ artifacts, CompiledArtifact readSetup artifact)
    (hcollections : ∀ collection ∈ collections, ∃ bytes, parseCollectionManifest bytes = .ok collection) :
    IndexInputs manifest artifacts collections := by
  refine ⟨head_of_manifest hmanifest, ?_, ?_⟩
  · intro artifact hmem names hnames hindexable
    obtain ⟨entries, expected, package, sourceId, objectDigest, review, others, hpackage, rfl⟩ := hartifacts artifact hmem
    exact (soundPackage_of_compiled hlength hpackage).indexArtifact hindexable.source hindexable.objectDigest
      hindexable.review hnames
  · intro collection hmem
    obtain ⟨bytes, hbytes⟩ := hcollections collection hmem
    exact soundCollection_of_parse hbytes

/-- A built index is read back exactly where the digests and the reviews it was given are
well formed and no extension of a collection nests too deep to be embedded. -/
theorem parseRegistryIndex_built_iff (hlength : Sha256Length)
    (readSetup : Native.ArtifactManifest → PackageEntries → Result SetupInstaller) {data : Bytes}
    (hmanifest : parseRegistryManifest data = .ok manifest)
    (hartifacts : ∀ artifact ∈ artifacts, CompiledArtifact readSetup artifact)
    (hcollections : ∀ collection ∈ collections, ∃ bytes, parseCollectionManifest bytes = .ok collection)
    (hbuild : buildRegistryIndex manifest inputsDigest artifacts collections = .ok index) :
    parseRegistryIndex (canonicalJsonBytes (registryIndexToJson index)) = .ok index ↔
      validDigest inputsDigest = true ∧ (∀ artifact ∈ artifacts, Indexable artifact) ∧
        ∀ collection ∈ collections, ∀ entry ∈ collection.extensions, 3 + height entry.2 ≤ maxDepth := by
  have hinputs := indexInputs_of_parsed hlength hmanifest hartifacts hcollections
  constructor
  · intro h
    obtain ⟨value, hvalue, hread⟩ := Result.of_bind_ok h
    obtain ⟨rfl, hfits⟩ := fits_of_printed (hinputs.printable hbuild) hvalue
    obtain ⟨hgraph, hindex⟩ := graph_of_build hbuild
    have hmember (name : String) (value : Json) (hmem : (name, some value) ∈ indexTable index) : Fits 1 value :=
      (((fits_jsonObject_iff (shape_index.nodup index)).mp hfits).2 name value hmem).2
    obtain ⟨written, hwritten, hbody⟩ := body_of_objectOf shape_index hread
    obtain ⟨schemaVersion, _, h1⟩ := Result.of_bind_ok hbody
    obtain ⟨protocolVersion, _, h2⟩ := Result.of_bind_ok h1
    obtain ⟨rawId, _, h3⟩ := Result.of_bind_ok h2
    obtain ⟨digest, hdigest, h4⟩ := Result.of_bind_ok h3
    obtain ⟨services, _, h5⟩ := Result.of_bind_ok h4
    obtain ⟨supported, _, h6⟩ := Result.of_bind_ok h5
    obtain ⟨registryId, _, h7⟩ := Result.of_bind_ok h6
    obtain ⟨rawArtifacts, hrawArtifacts, h8⟩ := Result.of_bind_ok h7
    obtain ⟨rawCollections, _, h9⟩ := Result.of_bind_ok h8
    obtain ⟨found, hfound, _⟩ := Result.of_bind_ok h9
    simp only [indexTable, List.forall_mem_cons] at hwritten
    obtain ⟨_, _, _, wdigest, wartifacts, _⟩ := hwritten
    refine ⟨?_, ?_, ?_⟩
    · rw [requiredField, wdigest] at hdigest
      rw [hindex] at hdigest
      exact valid_of_digestField hdigest
    · intro artifact hartifact
      obtain ⟨names, _, hderived⟩ := derived_of_valid hgraph
      have hlisted : { artifact with collections := names artifact.identity } ∈ index.artifacts := by
        rw [hderived]
        exact mem_sortedBy.mpr (List.mem_map.mpr ⟨artifact, hartifact, rfl⟩)
      rw [requiredField, wartifacts] at hrawArtifacts
      obtain rfl := Except.ok.inj hrawArtifacts
      obtain ⟨same, _, hsame⟩ := Result.ok_of_mapM_ok hfound (List.mem_map.mpr ⟨_, hlisted, rfl⟩)
      have hplace := (fits_arr.mp (hmember "artifacts" (.arr (index.artifacts.map indexArtifactToJson))
        (by simp [indexTable]))).2 _
        (List.mem_map.mpr ⟨_, hlisted, rfl⟩)
      have hindexable := indexable_of_read hsame hplace
      exact ⟨hindexable.source, hindexable.objectDigest, hindexable.review⟩
    · intro collection hcollection
      have hlisted : collection ∈ index.collections := by
        rw [hindex]
        exact mem_sortedBy.mpr hcollection
      have hplace := (fits_arr.mp (hmember "collections" (.arr (index.collections.map indexCollectionToJson))
        (by simp [indexTable]))).2 _
        (List.mem_map.mpr ⟨_, hlisted, rfl⟩)
      exact (hinputs.collections collection hcollection).fits_iff.mp hplace
  · rintro ⟨hdigest, hindexable, hroom⟩
    have hfits := hinputs.fits hbuild hdigest hindexable hroom
    simp only [parseRegistryIndex, parseJson_canonicalJsonBytes hfits, hinputs.read hbuild hdigest hindexable, bind,
      Except.bind]

end Built

/-! ## A registry with one artifact -/

section Sample

local instance : StandardLibrary := pythonLibrary (fun _ => List.replicate 32 0) fun _ => true

local instance : JsonRuntime := pythonLibrary_jsonRuntime (fun _ => List.replicate 32 0) fun _ => true

def mainRegistryJson : Json :=
  .obj [("default_channel", .str "main"), ("display_name", .str "R"), ("protocol_version", .int 1),
    ("registry_id", .str "r"), ("required_capabilities", .arr []), ("requires_aart", .obj []),
    ("schema_version", .int 1), ("services", .obj [])]

def mainRegistry : RegistryManifest where
  schemaVersion := 1
  protocolVersion := 1
  registryId := ⟨"r", by decide⟩
  displayName := "R"
  requiresAart := {}
  requiredCapabilities := []
  defaultChannel := "main"

def toolJson : Json :=
  .obj [("compatibility", .obj [("platforms", .arr [.str "linux"]), ("profiles", .arr [.str "claude"])]),
    ("install", .obj [("effects", .arr [.str "copy-tree"]), ("modes", .arr [.str "copy"]),
      ("scopes", .arr [.str "project"])]),
    ("name", .str "t"), ("payload", .obj [("format", .str "aart-skill-v1"), ("root", .str "payload")]),
    ("schema_version", .int 1), ("summary", .str "T"), ("type", .str "skill"), ("version", .str "1.0.0")]

def toolEntries : List SnapshotEntry :=
  [⟨⟨["artifact.json"]⟩, .file, canonicalJsonBytes toolJson, false⟩, ⟨⟨["payload", "SKILL.md"]⟩, .file, [84], false⟩]

def toolManifest : Native.ArtifactManifest where
  schemaVersion := 1
  identity := ⟨.skill, ⟨"t", Eq.refl true⟩⟩
  version := ⟨1, 0, 0, [], []⟩
  summary := "T"
  payload := ⟨⟨["payload"]⟩, "aart-skill-v1"⟩
  compatibility := ⟨["claude"], ["linux"]⟩
  install := ⟨[.project], [.copy], [.copyTree]⟩

theorem mainRegistry_read : parseRegistryManifest (canonicalJsonBytes mainRegistryJson) = .ok mainRegistry := by
  have hdocumentable : Documentable 0 mainRegistryJson := by
    refine ⟨?_, ?_, ?_, ?_⟩
    · simp only [mainRegistryJson, Frozen, FrozenEntries, FrozenItems]
      decide
    · simp only [mainRegistryJson, JsonText.Legible, JsonText.LegibleEntries, JsonText.LegibleItems, InRange]
      decide
    · simp only [mainRegistryJson, TextsWithin, TextsWithinEntries, TextsWithinItems]
      decide
    · simp only [mainRegistryJson, height, heightEntries, heightItems]
      decide
  rw [parseRegistryManifest, parseJson_canonicalJsonBytes_iff.mpr hdocumentable]
  rfl

theorem toolManifest_read : Native.parseArtifactManifest (canonicalJsonBytes toolJson) = .ok toolManifest := by
  have hdocumentable : Documentable 0 toolJson := by
    refine ⟨?_, ?_, ?_, ?_⟩
    · simp only [toolJson, Frozen, FrozenEntries, FrozenItems]
      decide
    · simp only [toolJson, JsonText.Legible, JsonText.LegibleEntries, JsonText.LegibleItems, InRange]
      decide
    · simp only [toolJson, TextsWithin, TextsWithinEntries, TextsWithinItems]
      decide
    · simp only [toolJson, height, heightEntries, heightItems]
      decide
  rw [Native.parseArtifactManifest, parseJson_canonicalJsonBytes_iff.mpr hdocumentable]
  rfl

def zeroDigest : ObjectDigest := ⟨String.ofList (List.replicate 64 '0')⟩

def toolPackage : Registry.NativeArtifactPackage where
  manifest := Registry.declared toolManifest
  provenance := none
  manifestDigest := zeroDigest
  payloadDigest := zeroDigest

def toolMembers : PackageEntries := toolEntries.map fun entry => (entry.path.str, entry)

theorem toolPackage_compiled :
    compileNativePackage (fun _ _ => .ok ⟨[], none⟩) toolEntries (some toolManifest.identity) = .ok toolPackage := by
  have hmembers : toolEntries.foldlM Registry.packageEntry [] = .ok toolMembers := by rfl
  have hmanifest : Registry.packageManifest toolMembers = .ok toolManifest := toolManifest_read
  have hroots : Registry.packageRoots toolMembers = .ok () := by rfl
  have hprimary : Registry.validatePrimaryPayload toolManifest.identity.kind toolMembers = .ok () := by rfl
  have hsetup : Registry.packageSetup (fun _ _ => .ok ⟨[], none⟩) toolManifest toolMembers = .ok none := by rfl
  have hprovenance : Registry.packageProvenance toolMembers = .ok none := by rfl
  have hpayload : Registry.payloadDigest toolMembers = .ok zeroDigest := by rfl
  have hdigest : jsonDigest (Native.artifactManifestToJson toolManifest) = zeroDigest := by rfl
  have hcompiled := compiled_of_parts hmembers hmanifest (fun _ h => Option.some.inj h) hroots hprimary hsetup
    hprovenance hpayload
  rw [hdigest] at hcompiled
  exact hcompiled

def toolArtifact : Registry.IndexArtifact := indexArtifactFromPackage toolPackage ⟨"r", by decide⟩ zeroDigest none []

/-- A collection of the one artifact, with one extension. -/
def toolFields (extension : Json) : Dict :=
  [("artifacts", .arr [.obj [("name", .str "t"), ("type", .str "skill")]]), ("name", .str "c"),
    ("schema_version", .int 1), ("summary", .str "C"), ("x.y", extension)]

def toolCollection (extension : Json) : Native.CollectionManifest where
  schemaVersion := 1
  name := ⟨"c", Eq.refl true⟩
  summary := "C"
  artifacts := [⟨⟨.skill, ⟨"t", Eq.refl true⟩⟩, none⟩]
  extensions := [("x.y", extension)]

theorem toolCollection_read {extension : Json} (h : Fits 1 extension) :
    parseCollectionManifest (canonicalJsonBytes (.obj (toolFields extension))) = .ok (toolCollection extension) := by
  have hkeys : (toolFields extension).map Prod.fst = ["artifacts", "name", "schema_version", "summary", "x.y"] := rfl
  have hselector : Fits 1 (.arr [.obj [("name", .str "t"), ("type", .str "skill")]]) := by
    simp only [Fits, FitsItems, FitsEntries]
    decide
  have hone : Fits 1 (.int 1) := by
    rw [Fits, InRange]
    decide
  have hfits : Fits 0 (.obj (toolFields extension)) := by
    refine fits_obj.mpr ⟨by decide, by rw [hkeys]; decide, ?_⟩
    simp only [toolFields, List.forall_mem_cons]
    exact ⟨⟨by decide, hselector⟩, ⟨by decide, fits_str.mpr (by decide)⟩, ⟨by decide, hone⟩,
      ⟨by decide, fits_str.mpr (by decide)⟩, ⟨by decide, h⟩, by simp⟩
  have hfields : validateObjectFields true Native.collectionRequired Native.collectionOptional (toolFields extension) =
      .ok (toolFields extension) := by
    refine validateObjectFields_eq_ok.mpr ⟨rfl, ?_, ?_⟩ <;> rw [hkeys] <;> decide
  simp only [parseCollectionManifest, parseJson_canonicalJsonBytes hfits, Native.collectionManifestOf, objectOf, asObject,
    hfields, bind, Except.bind]
  rfl

theorem toolIndex_built (extension : Json) :
    ∃ index, buildRegistryIndex mainRegistry zeroDigest [toolArtifact] [toolCollection extension] = .ok index := by
  have hclosed : (Registry.registryCollections [toolArtifact] [graphCollection (toolCollection extension)]).Closed := by
    have hone (key : Slug) (manifest : Registry.CollectionManifest)
        (h : (key, manifest) ∈ (Registry.registryCollections [toolArtifact]
          [graphCollection (toolCollection extension)]).manifests) : manifest = graphCollection (toolCollection .null) := by
      obtain ⟨_, hmem, hsame⟩ := List.mem_map.mp h
      rw [List.mem_singleton.mp hmem] at hsame
      exact (Prod.mk.inj hsame).2.symm
    refine ⟨?_, ?_, ?_⟩
    · intro key manifest hmem selector hselector
      rw [hone key manifest hmem] at hselector
      obtain rfl := List.mem_singleton.mp hselector
      exact ⟨toolArtifact, rfl, rfl⟩
    · intro key manifest hmem name hname
      rw [hone key manifest hmem] at hname
      cases hname
    · intro key hcycle
      obtain ⟨_, ⟨manifest, hmem, name, hname, _⟩, _⟩ := Relation.TransGen.head'_iff.mp hcycle
      rw [hone _ manifest hmem] at hname
      cases hname
  have hsingle : ([toolArtifact].map (·.identity)).Nodup := List.nodup_singleton _
  have hrequirers : (([toolArtifact].map (·.requirer)).map (·.identity)).Nodup := List.nodup_singleton _
  have hnames : ([graphCollection (toolCollection extension)].map (·.name)).Nodup := List.nodup_singleton _
  have hdependencies : Registry.validateArtifactDependencies [toolArtifact] = .ok () :=
    (Registry.validateDependencies_ok_iff _ hrequirers).mpr (Registry.resolvable_of_requires_nothing (by decide))
  obtain ⟨derived, hderived⟩ := (Registry.validateRegistryGraph_ok_iff hsingle hnames hdependencies).mpr hclosed
  simp only [buildRegistryIndex, List.map_cons, List.map_nil, hderived, bind, Except.bind]
  exact ⟨_, rfl⟩

theorem toolArtifact_compiled : ∀ artifact ∈ [toolArtifact], CompiledArtifact (fun _ _ => .ok ⟨[], none⟩) artifact := by
  intro artifact hmem
  obtain rfl := List.mem_singleton.mp hmem
  exact ⟨_, _, _, _, _, _, _, toolPackage_compiled, rfl⟩

theorem zeroDigest_length : Sha256Length := fun _ => rfl

/-- A shallow extension is read back from the index. -/
theorem shallowIndex_read :
    ∃ index, buildRegistryIndex mainRegistry zeroDigest [toolArtifact] [toolCollection .null] = .ok index ∧
      parseRegistryIndex (canonicalJsonBytes (registryIndexToJson index)) = .ok index := by
  obtain ⟨index, hindex⟩ := toolIndex_built .null
  have hnull : Fits 1 .null := by
    rw [Fits]
    decide
  refine ⟨index, hindex, (parseRegistryIndex_built_iff zeroDigest_length _ mainRegistry_read toolArtifact_compiled ?_
    hindex).mpr ⟨by decide, ?_, ?_⟩⟩
  · intro collection hmem
    obtain rfl := List.mem_singleton.mp hmem
    exact ⟨_, toolCollection_read hnull⟩
  · intro artifact hmem
    obtain rfl := List.mem_singleton.mp hmem
    exact ⟨by decide, by decide, fun review h => by cases h⟩
  · intro collection hmem entry hentry
    obtain rfl := List.mem_singleton.mp hmem
    obtain rfl := List.mem_singleton.mp hentry
    simp only [height]
    decide

/-- Arrays within arrays. -/
def nested : Nat → Json
  | 0 => .null
  | n + 1 => .arr [nested n]

theorem height_nested (n : Nat) : height (nested n) = n := by
  induction n with
  | zero => rw [nested, height]
  | succ n ih => simp only [nested, height, heightItems, ih, Nat.max_zero]

theorem fits_nested {depth n : Nat} (h : depth + n ≤ maxDepth) : Fits depth (nested n) := by
  induction n generalizing depth with
  | zero =>
      rw [nested, Fits]
      omega
  | succ n ih =>
      refine fits_arr.mpr ⟨by omega, fun item hitem => ?_⟩
      obtain rfl := List.mem_singleton.mp hitem
      exact ih (by omega)

theorem index_unreadable {extension : Json} (hextension : Fits 1 extension) (hdeep : maxDepth < 3 + height extension) :
    ∃ index, buildRegistryIndex mainRegistry zeroDigest [toolArtifact] [toolCollection extension] = .ok index ∧
      parseRegistryIndex (canonicalJsonBytes (registryIndexToJson index)) ≠ .ok index := by
  obtain ⟨index, hindex⟩ := toolIndex_built extension
  refine ⟨index, hindex, fun h => ?_⟩
  have hinputs := indexInputs_of_parsed zeroDigest_length mainRegistry_read
    toolArtifact_compiled fun collection hmem => by
      obtain rfl := List.mem_singleton.mp hmem
      exact ⟨_, toolCollection_read hextension⟩
  obtain ⟨value, hvalue, _⟩ := Result.of_bind_ok h
  have hfits := (fits_of_printed (hinputs.printable hindex) hvalue).2
  have hlisted : toolCollection extension ∈ index.collections := by
    rw [(graph_of_build hindex).2]
    exact mem_sortedBy.mpr (List.mem_singleton_self _)
  have harray := (((fits_jsonObject_iff (shape_index.nodup index)).mp hfits).2 "collections"
    (.arr (index.collections.map indexCollectionToJson)) (by simp [indexTable])).2
  have hplace := (fits_arr.mp harray).2 _ (List.mem_map.mpr ⟨_, hlisted, rfl⟩)
  have hroom := (hinputs.collections _ (List.mem_singleton_self _)).fits_iff.mp hplace ("x.y", extension)
    (List.mem_singleton_self _)
  dsimp only at hroom
  omega

/-- An extension that its own document holds is too deep for the index it is built into. -/
theorem deepIndex_unreadable :
    Sha256Length ∧ parseRegistryManifest (canonicalJsonBytes mainRegistryJson) = .ok mainRegistry ∧
      compileNativePackage (fun _ _ => .ok ⟨[], none⟩) toolEntries (some toolManifest.identity) = .ok toolPackage ∧
      parseCollectionManifest (canonicalJsonBytes (.obj (toolFields (nested 62)))) = .ok (toolCollection (nested 62)) ∧
      ∃ index, buildRegistryIndex mainRegistry zeroDigest [toolArtifact] [toolCollection (nested 62)] = .ok index ∧
        parseRegistryIndex (canonicalJsonBytes (registryIndexToJson index)) ≠ .ok index := by
  have hnested : Fits 1 (nested 62) := fits_nested (by decide)
  have hdeep : maxDepth < 3 + height (nested 62) := by
    rw [height_nested]
    decide
  exact ⟨zeroDigest_length, mainRegistry_read, toolPackage_compiled, toolCollection_read hnested,
    index_unreadable hnested hdeep⟩

end Sample

end AgentArtifacts.RegistrySchema
