import AgentArtifacts.Protocol.IndexSchema
import AgentArtifacts.Protocol.JsonCanonical
import AgentArtifacts.Protocol.RegistryDocuments

/-!
# What the readers of an index take

The parts of an artifact as the readers of the manifests leave them, and that the
readers of the index take them as they are written.
-/

namespace AgentArtifacts.RegistrySchema

open Manifest (Fields present jsonObject requiredField optionalField choiceOf parseSha256_eq_ok oneLine_digest
  fits_jsonObject_iff get?_field mapM_written pyIn_eq_false validDigest)
open Native (textOf_relativePath)
open Registry (Capability ReviewRecord ArtifactSelector sortedBy sortedSet registryIndexInvalid)
open Schema

/-! ## Texts -/

variable {code : DiagnosticCode} {value : Json}

theorem stringField_eq_ok_iff {label text : String} :
    stringField code label true value = .ok text ↔ value = .str text ∧ oneLine text = true := by
  constructor
  · intro h
    obtain rfl := stringField_eq_ok h
    unfold stringField at h
    obtain ⟨hplain, h⟩ := Result.of_check_ok h
    obtain ⟨hline, h⟩ := Result.of_check_ok h
    rw [not_or, not_not] at hplain
    rw [Bool.true_and, Bool.or_eq_true, not_or, Bool.not_eq_true, Bool.not_eq_true] at hline
    refine ⟨rfl, ?_⟩
    unfold oneLine
    simp [hplain.1, ← hplain.2, hline.1, hline.2]
  · rintro ⟨rfl, h⟩
    unfold oneLine at h
    simp only [Bool.and_eq_true, bne_iff_ne, beq_iff_eq, Bool.not_eq_true'] at h
    obtain ⟨⟨⟨hne, hplain⟩, hreturn⟩, hnewline⟩ := h
    unfold stringField
    simp [hne, ← hplain, hreturn, hnewline]

variable {singleLine : Bool}

/-- A text of several lines is one without surrounding space all the same. -/
theorem plain_of_stringField {label text : String}
    (h : stringField code label singleLine value = .ok text) : text ≠ "" ∧ pyStrip text = text := by
  obtain rfl := stringField_eq_ok h
  unfold stringField at h
  obtain ⟨hplain, _⟩ := Result.of_check_ok h
  rw [not_or, not_not] at hplain
  exact ⟨hplain.1, hplain.2.symm⟩

variable {label : String}

theorem digestField_eq_ok_iff {digest : ObjectDigest} :
    digestField code label true (.str digest.str) = .ok digest ↔ validDigest digest = true := by
  constructor
  · intro h
    obtain ⟨raw, _, h⟩ := Result.of_bind_ok h
    unfold insteadOf at h
    split at h
    · rename_i found hfound
      obtain rfl := Except.ok.inj h
      exact (parseSha256_eq_ok.mp hfound).2
    · cases h
  · intro hvalid
    have hread : stringField code label true (.str digest.str) = .ok digest.str :=
      stringField_eq_ok_iff.mpr ⟨rfl, oneLine_digest hvalid⟩
    simp only [digestField, hread, parseSha256_eq_ok.mpr ⟨rfl, hvalid⟩, insteadOf, bind, Except.bind]

theorem length_digest {digest : ObjectDigest} (h : validDigest digest = true) :
    digest.str.length ≤ maxStringLength := by
  simp only [validDigest, Bool.and_eq_true, beq_iff_eq] at h
  have hlength : digest.value.length = 64 := by
    rw [← String.length_toList]
    exact h.1
  rw [ObjectDigest.str, String.length_append, hlength]
  decide

/-- A part that is written the same is read the same further down, as far as the nesting allows. -/
theorem Fits.moved {depth other : Nat} (h : Fits depth value) (hdepth : other + height value ≤ maxDepth) :
    Fits other value := by
  have hdocument := fits_iff_documentable.mp h
  exact fits_iff_documentable.mpr ⟨hdocument.frozen, hdocument.integers, hdocument.texts, hdepth⟩

variable {depth : Nat}

theorem fits_str {text : String} : Fits depth (.str text) ↔
    depth ≤ maxDepth ∧ text.length ≤ maxStringLength := by
  rw [Fits]

/-! ## Sets of names -/

/-- A set of slugs as it stands in a document. -/
structure NameSet (allowEmpty : Bool) (names : List String) : Prop where
  some : allowEmpty = false → names ≠ []
  sorted : sortedSet names = names
  slugs : ∀ name ∈ names, isSlug name = true
  short : ∀ name ∈ names, name.length ≤ maxStringLength

variable {name : String}

theorem oneLine_slug (h : isSlug name = true) : oneLine name = true := Manifest.Slug.oneLine ⟨name, h⟩

theorem oneLine_kind (kind : ArtifactKind) : oneLine kind.value = true := by
  cases kind <;> decide

variable {allowEmpty : Bool} {names : List String}

theorem stringsField_stringArray (hsome : allowEmpty = false → names ≠ []) (hsorted : sortedSet names = names)
    (hlines : ∀ name ∈ names, oneLine name = true) :
    stringsField code label allowEmpty (stringArray names) = .ok names := by
  have hempty : (!allowEmpty && (names.map Json.str).isEmpty) = false := by
    cases allowEmpty with
    | true => rfl
    | false => simpa using hsome rfl
  have hread : (names.map Json.str).mapM (stringField code (label ++ " item") true) = .ok names :=
    mapM_written fun name hname => stringField_eq_ok_iff.mpr ⟨rfl, hlines name hname⟩
  simp only [stringsField, stringArray, asArray, refuse, hempty, hread, hsorted, bind, Except.bind]
  rfl

theorem NameSet.indexNames (h : NameSet allowEmpty names) (label : String)
    {allowed : Option (List String)} (hallowed : ∀ known, allowed = Option.some known → ∀ name ∈ names, name ∈ known) :
    indexNames label allowed allowEmpty (stringArray names) = .ok names := by
  have hread : stringsField registryIndexInvalid label allowEmpty (stringArray names) = .ok names :=
    stringsField_stringArray h.some h.sorted fun name hname => oneLine_slug (h.slugs name hname)
  have hall : (names.any fun name => !isSlug name || allowed.any fun known => decide (name ∉ known)) = false := by
    refine List.any_eq_false.mpr fun name hname => ?_
    rw [h.slugs name hname]
    cases allowed with
    | none => simp
    | some known => simpa using hallowed known rfl name hname
  simp only [RegistrySchema.indexNames, hread, hall, refuse, bind, Except.bind]
  rfl

theorem NameSet.fits (h : NameSet allowEmpty names)
    (hdepth : depth + 1 ≤ maxDepth) : Fits depth (stringArray names) := by
  refine fits_arr.mpr ⟨by omega, fun item hitem => ?_⟩
  obtain ⟨name, hname, rfl⟩ := List.mem_map.mp hitem
  exact fits_str.mpr ⟨hdepth, h.short name hname⟩

theorem short_of_fits (h : Fits depth (stringArray names)) :
    ∀ name ∈ names, name.length ≤ maxStringLength := by
  intro name hname
  exact (fits_str.mp ((fits_arr.mp h).2 _ (List.mem_map.mpr ⟨name, hname, rfl⟩))).2

/-- What a set of names is read as has a set of names. -/
theorem nameSet_of_namedValues {α : Type} {read : String → Result α} {text : α → String} (htext : TextOf read text)
    (hslug : ∀ raw x, read raw = .ok x → isSlug raw = true) {values : List α} (hfits : Fits depth value)
    (h : namedValues code label allowEmpty read value = .ok values) : NameSet allowEmpty (values.map text) := by
  have hwritten := (readsBack_namedValues htext code label allowEmpty hfits h).2
  obtain ⟨names, hnames, hvalues⟩ := Result.of_bind_ok h
  have htexts := map_text_of_mapM htext hvalues
  refine ⟨?_, ?_, ?_, short_of_fits hwritten⟩
  · rintro rfl hnone
    rw [htexts] at hnone
    obtain ⟨items, hitems, hrest⟩ := Result.of_bind_ok hnames
    obtain ⟨done, hdone, hrest⟩ := Result.of_bind_ok hrest
    obtain ⟨texts, hread, hrest⟩ := Result.of_bind_ok hrest
    have hlength := (Result.forall₂_of_mapM_ok hread).length_eq
    have hsome := refuse_eq_ok.mp hdone
    have hempty : texts = [] := List.eq_nil_iff_forall_not_mem.mpr fun other hother => by
      have hmem := mem_sortedSet.mpr hother
      rw [Except.ok.inj hrest, hnone] at hmem
      cases hmem
    rw [hempty, List.length_nil] at hlength
    rw [List.length_eq_zero_iff.mp hlength] at hsome
    simp at hsome
  · rw [htexts, sortedSet, (nodup_of_stringsField hnames).dedup]
    exact sortedBy_eq_self (pairwise_of_stringsField hnames)
  · rw [htexts]
    intro name hname
    obtain ⟨x, _, hread⟩ := Result.ok_of_mapM_ok hvalues hname
    exact hslug name x hread

theorem indexChoices_written {α : Type} {all : List α} {text : α → String} {values : List α} (label : String)
    (h : NameSet false (values.map text)) (hchoice : ∀ x, choiceOf all text (text x) = some x) :
    indexChoices label all text (stringArray (values.map text)) = .ok values := by
  have hknown : ∀ known, some (all.map text) = some known → ∀ name ∈ values.map text, name ∈ known := by
    intro known hsame name hname
    obtain ⟨x, _, rfl⟩ := List.mem_map.mp hname
    obtain rfl := Option.some.inj hsame
    exact List.mem_map.mpr ⟨x, List.mem_of_find?_eq_some (hchoice x), rfl⟩
  have hchosen : (values.map text).filterMap (choiceOf all text) = values := by
    rw [List.filterMap_map]
    exact (List.filterMap_congr fun x _ => hchoice x).trans List.filterMap_some
  simp only [indexChoices, h.indexNames label hknown, hchosen, bind, Except.bind]
  rfl

/-! ## Bounds and selectors -/

/-- Bounds whose versions are read back, and that admit some version. -/
structure SoundBounds (bounds : VersionBounds) : Prop where
  least : ∀ version, bounds.minInclusive = some version →
    parseSemver version.str = .ok version ∧ version.str.length ≤ maxStringLength
  bound : ∀ version, bounds.maxExclusive = some version →
    parseSemver version.str = .ok version ∧ version.str.length ≤ maxStringLength
  ordered : versionBounds bounds.minInclusive bounds.maxExclusive = .ok bounds

theorem soundBounds_default : SoundBounds {} where
  least := by simp
  bound := by simp
  ordered := rfl

/-- What an optional version is read as. -/
theorem version_of_optionalField {fields : Dict} {found : Option SemVer} (hfits : Fits depth (.obj fields))
    (h : optionalField fields name (textOf code label singleLine parseSemver) = .ok found) (version : SemVer)
    (hversion : found = some version) :
    parseSemver version.str = .ok version ∧ version.str.length ≤ maxStringLength := by
  subst hversion
  have hkept := kept_optional (readsBack_text textOf_semver code label singleLine) hfits h
  refine ⟨?_, (fits_str.mp (hkept.fits _ rfl)).2⟩
  unfold optionalField at h
  split at h
  · cases h
  · obtain ⟨x, hx, hsame⟩ := Result.of_map_ok h
    obtain rfl := Option.some.inj hsame
    obtain ⟨raw, _, hread⟩ := Result.of_bind_ok hx
    rw [textOf_semver raw version hread]
    exact hread

theorem soundBounds_of_boundsField
    {bounds : VersionBounds} (hfits : Fits depth value) (h : boundsField code singleLine value = .ok bounds) :
    SoundBounds bounds := by
  obtain ⟨entries, hentries, h1⟩ := Result.of_bind_ok h
  obtain ⟨fields, hfields, h2⟩ := Result.of_bind_ok h1
  obtain rfl := asObject_eq_ok hentries
  obtain ⟨rfl, _⟩ := validateObjectFields_eq_ok.mp hfields
  obtain ⟨least, hleast, h3⟩ := Result.of_bind_ok h2
  obtain ⟨bound, hbound, h4⟩ := Result.of_bind_ok h3
  have hparts : bounds = ⟨least, bound⟩ := by
    unfold versionBounds at h4
    split at h4
    · split at h4
      · exact (Except.ok.inj h4).symm
      · cases h4
    · exact (Except.ok.inj h4).symm
  subst hparts
  exact ⟨version_of_optionalField hfits hleast, version_of_optionalField hfits hbound, h4⟩

theorem textOf_version {version : SemVer} (h : parseSemver version.str = .ok version) (code : DiagnosticCode)
    (label : String) : textOf code label true parseSemver (.str version.str) = .ok version := by
  have hread : stringField code label true (.str version.str) = .ok version.str :=
    stringField_eq_ok_iff.mpr ⟨rfl, Manifest.oneLine_version h⟩
  simp only [textOf, hread, h, bind, Except.bind]

theorem optionalField_version {written : Dict} {found : Option SemVer}
    (hget : Dict.get? written name = found.map fun version => .str version.str)
    (h : ∀ version, found = some version → parseSemver version.str = .ok version) (code : DiagnosticCode)
    (label : String) : optionalField written name (textOf code label true parseSemver) = .ok found := by
  cases found with
  | none => rw [optionalField, hget, Option.map_none]
  | some version =>
      rw [optionalField, hget]
      simp only [Option.map_some, textOf_version (h version rfl) code label]
      rfl

theorem SoundBounds.boundsField {bounds : VersionBounds} (h : SoundBounds bounds) (code : DiagnosticCode) :
    boundsField code true (boundsToJson bounds) = .ok bounds := by
  refine objectOf_written shape_bounds fun written hwritten => ?_
  simp only [boundsTable, List.forall_mem_cons] at hwritten
  obtain ⟨wleast, wbound, _⟩ := hwritten
  have hleast := optionalField_version wleast (fun version hversion => (h.least version hversion).1) code "min_inclusive"
  have hbound := optionalField_version wbound (fun version hversion => (h.bound version hversion).1) code "max_exclusive"
  simp only [boundsBody, hleast, hbound, h.ordered, bind, Except.bind]

theorem SoundBounds.fits {bounds : VersionBounds} (h : SoundBounds bounds)
    (hdepth : depth + 1 ≤ maxDepth) : Fits depth (boundsToJson bounds) := by
  refine (fits_jsonObject_iff (shape_bounds.nodup bounds)).mpr ⟨by omega, fun name value hmem => ?_⟩
  simp only [boundsTable, List.mem_cons, Prod.mk.injEq, List.not_mem_nil, or_false] at hmem
  rcases hmem with ⟨rfl, hvalue⟩ | ⟨rfl, hvalue⟩
  · obtain ⟨version, hversion, rfl⟩ := Option.map_eq_some_iff.mp hvalue.symm
    exact ⟨by decide, fits_str.mpr ⟨hdepth, (h.least version hversion).2⟩⟩
  · obtain ⟨version, hversion, rfl⟩ := Option.map_eq_some_iff.mp hvalue.symm
    exact ⟨by decide, fits_str.mpr ⟨hdepth, (h.bound version hversion).2⟩⟩

/-- A selector with a name and bounds that are read back. -/
structure SoundSelector (selector : ArtifactSelector) : Prop where
  name : selector.identity.name.value.length ≤ maxStringLength
  bounds : ∀ bounds, selector.version = some bounds → SoundBounds bounds

theorem soundSelector_of_selectorBody {identityCode : DiagnosticCode}
    {message : String} {boundsCode : DiagnosticCode}
    {selector : ArtifactSelector} (hfits : Fits depth value)
    (h : objectOf code label false ["type", "name"] ["version"]
      (selectorBody identityCode message boundsCode singleLine) value = .ok selector) : SoundSelector selector := by
  have hwritten := (readsBack_selector code label identityCode message boundsCode singleLine hfits h).2
  obtain ⟨entries, hentries, h1⟩ := Result.of_bind_ok h
  obtain ⟨fields, hfields, h2⟩ := Result.of_bind_ok h1
  obtain rfl := asObject_eq_ok hentries
  obtain ⟨rfl, _⟩ := validateObjectFields_eq_ok.mp hfields
  obtain ⟨kind, _, h3⟩ := Result.of_bind_ok h2
  obtain ⟨name, _, h4⟩ := Result.of_bind_ok h3
  obtain ⟨identity, _, h5⟩ := Result.of_bind_ok h4
  obtain ⟨version, hversion, h6⟩ := Result.of_bind_ok h5
  obtain rfl := Except.ok.inj h6
  refine ⟨?_, ?_⟩
  · have hname := ((fits_jsonObject_iff (shape_selector.nodup _)).mp hwritten).2 "name" (.str identity.name.value)
      (by simp [selectorTable])
    exact (fits_str.mp hname.2).2
  · intro bounds hbounds
    dsimp only at hbounds
    subst hbounds
    unfold optionalField at hversion
    split at hversion
    · cases hversion
    · rename_i found hfound
      obtain ⟨x, hx, hsame⟩ := Result.of_map_ok hversion
      obtain rfl := Option.some.inj hsame
      exact soundBounds_of_boundsField (Manifest.fits_of_get? hfits hfound).2 hx

theorem SoundSelector.indexSelector {selector : ArtifactSelector} (h : SoundSelector selector) :
    indexSelector (selectorToJson selector) = .ok selector := by
  refine objectOf_written shape_selector fun written hwritten => ?_
  simp only [selectorTable, List.forall_mem_cons] at hwritten
  obtain ⟨wkind, wname, wversion, _⟩ := hwritten
  have hkind : requiredField written "type" (stringField registryEntryInvalid "type" true) =
      .ok selector.identity.kind.value := by
    rw [requiredField, wkind]
    exact stringField_eq_ok_iff.mpr ⟨rfl, oneLine_kind _⟩
  have hname : requiredField written "name" (stringField registryEntryInvalid "name" true) =
      .ok selector.identity.name.value := by
    rw [requiredField, wname]
    exact stringField_eq_ok_iff.mpr ⟨rfl, Manifest.Slug.oneLine _⟩
  have hversion : optionalField written "version" (boundsField registryIndexInvalid true) = .ok selector.version := by
    cases hbounds : selector.version with
    | none =>
        rw [hbounds, Option.map_none] at wversion
        rw [optionalField, wversion]
    | some bounds =>
        rw [hbounds, Option.map_some] at wversion
        rw [optionalField, wversion]
        simp only [(h.bounds bounds hbounds).boundsField registryIndexInvalid]
        rfl
  simp only [selectorBody, hkind, hname, identityOf_eq_ok.mpr ⟨rfl, rfl⟩, hversion, bind, Except.bind]
  rfl

theorem SoundSelector.fits {selector : ArtifactSelector} (h : SoundSelector selector)
    (hdepth : depth + 2 ≤ maxDepth) : Fits depth (selectorToJson selector) := by
  refine (fits_jsonObject_iff (shape_selector.nodup selector)).mpr ⟨by omega, fun name value hmem => ?_⟩
  simp only [selectorTable, List.mem_cons, Prod.mk.injEq, List.not_mem_nil, or_false] at hmem
  rcases hmem with ⟨rfl, hvalue⟩ | ⟨rfl, hvalue⟩ | ⟨rfl, hvalue⟩
  · rw [Option.some.inj hvalue]
    exact ⟨by decide, fits_str.mpr ⟨by omega, by cases selector.identity.kind <;> decide⟩⟩
  · rw [Option.some.inj hvalue]
    exact ⟨by decide, fits_str.mpr ⟨by omega, h.name⟩⟩
  · obtain ⟨bounds, hbounds, rfl⟩ := Option.map_eq_some_iff.mp hvalue.symm
    exact ⟨by decide, (h.bounds bounds hbounds).fits (by omega)⟩

/-- Requirements of an artifact: of other artifacts, each once, in order. -/
structure SoundRequirements (identity : ArtifactIdentity) (selectors : List ArtifactSelector) : Prop where
  sound : ∀ selector ∈ selectors, SoundSelector selector
  others : ∀ selector ∈ selectors, selector.identity ≠ identity
  distinct : (selectors.map (·.identity)).Nodup
  sorted : sortedBy (fun selector => selector.identity.str) selectors = selectors

theorem soundRequirements_nil (identity : ArtifactIdentity) : SoundRequirements identity [] where
  sound := by simp
  others := by simp
  distinct := List.nodup_nil
  sorted := rfl

theorem soundRequirements_of_requirements {identity : ArtifactIdentity}
    {selectors : List ArtifactSelector} (hfits : Fits depth value)
    (h : Native.requirements identity value = .ok selectors) : SoundRequirements identity selectors := by
  obtain ⟨items, hitems, h1⟩ := Result.of_bind_ok h
  obtain ⟨found, hfound, h2⟩ := Result.of_bind_ok h1
  obtain ⟨done, hdone, h3⟩ := Result.of_bind_ok h2
  obtain rfl := Except.ok.inj h3
  obtain rfl := asArray_eq_ok hitems
  have hitem (selector : ArtifactSelector)
      (hselector : selector ∈ sortedBy (fun selector => selector.identity.str) found) :
      SoundSelector selector ∧ selector.identity ≠ identity := by
    obtain ⟨item, hitem, hread⟩ := exists_of_forall₂_mem (Result.forall₂_of_mapM_ok hfound)
      (Registry.mem_sortedBy.mp hselector)
    obtain ⟨other, hother, hrest⟩ := Result.of_bind_ok hread
    obtain ⟨checked, hchecked, hlast⟩ := Result.of_bind_ok hrest
    obtain rfl := Except.ok.inj hlast
    exact ⟨soundSelector_of_selectorBody ((fits_arr.mp hfits).2 item hitem) hother,
      by simpa using refuse_eq_ok.mp hchecked⟩
  refine ⟨fun selector hselector => (hitem selector hselector).1, fun selector hselector => (hitem selector hselector).2,
    ?_, sortedBy_sortedBy _ _⟩
  have hnodup : (found.map (·.identity)).Nodup := by
    simpa [Native.duplicates] using refuse_eq_ok.mp hdone
  exact ((Registry.perm_sortedBy _ _).map _).nodup_iff.mpr hnodup

theorem SoundRequirements.indexRequirements {identity : ArtifactIdentity} {selectors : List ArtifactSelector}
    (h : SoundRequirements identity selectors) :
    indexRequirements identity (.arr (selectors.map selectorToJson)) = .ok selectors := by
  have hread : (selectors.map selectorToJson).mapM (indexRequirement identity) = .ok selectors := by
    refine mapM_written fun selector hselector => ?_
    have hother : (selector.identity == identity) = false := beq_eq_false_iff_ne.mpr (h.others selector hselector)
    simp only [indexRequirement, (h.sound selector hselector).indexSelector, hother, refuse, bind, Except.bind]
    rfl
  have hdistinct : Native.duplicates (selectors.map (·.identity)) = false := by
    simpa [Native.duplicates] using h.distinct
  simp only [RegistrySchema.indexRequirements, asArray, hread, hdistinct, refuse, h.sorted, bind, Except.bind]
  rfl

theorem SoundRequirements.fits {identity : ArtifactIdentity} {selectors : List ArtifactSelector}
    (h : SoundRequirements identity selectors) (hdepth : depth + 3 ≤ maxDepth) :
    Fits depth (.arr (selectors.map selectorToJson)) := by
  refine fits_arr.mpr ⟨by omega, fun item hitem => ?_⟩
  obtain ⟨selector, hselector, rfl⟩ := List.mem_map.mp hitem
  exact (h.sound selector hselector).fits (by omega)

/-! ## Reviews -/

/-- A review that a document can hold. -/
structure SoundReview (review : ReviewRecord) : Prop where
  status : review.status ∈ reviewStatuses
  policy : isSlug review.policy = true
  short : review.policy.length ≤ maxStringLength

theorem review_written_iff {record found : ReviewRecord} :
    review code (reviewToJson record) = .ok found ↔
      found = record ∧ record.status ∈ reviewStatuses ∧ isSlug record.policy = true := by
  have hstatus : ∀ status ∈ reviewStatuses, oneLine status = true := by decide
  unfold review reviewToJson
  constructor
  · intro h
    have hbody : review code (reviewToJson record) = .ok found := h
    obtain ⟨entries, hentries, h1⟩ := Result.of_bind_ok h
    obtain ⟨fields, hfields, h2⟩ := Result.of_bind_ok h1
    have hsame := Json.obj.inj (asObject_eq_ok hentries)
    obtain ⟨rfl, _⟩ := validateObjectFields_eq_ok.mp hfields
    obtain ⟨status, hread, h3⟩ := Result.of_bind_ok h2
    obtain ⟨policy, hpolicy, h4⟩ := Result.of_bind_ok h3
    obtain ⟨done, hdone, h5⟩ := Result.of_bind_ok h4
    obtain rfl := Except.ok.inj h5
    have hwritten : ∀ field ∈ reviewTable record, Dict.get? fields field.1 = field.2 := fun field hfield => by
      rw [← hsame]
      exact get?_field (shape_review.nodup record) hfield
    simp only [reviewTable, List.forall_mem_cons] at hwritten
    obtain ⟨wstatus, wpolicy, _⟩ := hwritten
    rw [requiredField, wstatus] at hread
    rw [requiredField, wpolicy] at hpolicy
    obtain rfl := Json.str.inj (stringField_eq_ok hread)
    obtain rfl := Json.str.inj (stringField_eq_ok hpolicy)
    have hvalid := refuse_eq_ok.mp hdone
    simp only [Bool.or_eq_false_iff, decide_eq_false_iff_not, not_not, Bool.not_eq_false'] at hvalid
    exact ⟨rfl, hvalid⟩
  · rintro ⟨rfl, hknown, hslug⟩
    refine objectOf_written shape_review fun written hwritten => ?_
    simp only [reviewTable, List.forall_mem_cons] at hwritten
    obtain ⟨wstatus, wpolicy, _⟩ := hwritten
    have hread : requiredField written "status" (stringField code "review.status" true) = .ok found.status := by
      rw [requiredField, wstatus]
      exact stringField_eq_ok_iff.mpr ⟨rfl, hstatus _ hknown⟩
    have hpolicy : requiredField written "policy" (stringField code "review.policy" true) = .ok found.policy := by
      rw [requiredField, wpolicy]
      exact stringField_eq_ok_iff.mpr ⟨rfl, oneLine_slug hslug⟩
    have hvalid : (decide (found.status ∉ reviewStatuses) || !isSlug found.policy) = false := by
      simp [hknown, hslug]
    simp only [reviewBody, hread, hpolicy, hvalid, refuse, bind, Except.bind]
    rfl

theorem SoundReview.fits {record : ReviewRecord} (h : SoundReview record)
    (hdepth : depth + 1 ≤ maxDepth) : Fits depth (reviewToJson record) := by
  have hstatus : ∀ status ∈ reviewStatuses, status.length ≤ maxStringLength := by decide
  refine (fits_jsonObject_iff (shape_review.nodup record)).mpr ⟨by omega, fun name value hmem => ?_⟩
  simp only [reviewTable, List.mem_cons, Prod.mk.injEq, List.not_mem_nil, or_false] at hmem
  rcases hmem with ⟨rfl, hvalue⟩ | ⟨rfl, hvalue⟩
  · rw [Option.some.inj hvalue]
    exact ⟨by decide, fits_str.mpr ⟨hdepth, hstatus _ h.status⟩⟩
  · rw [Option.some.inj hvalue]
    exact ⟨by decide, fits_str.mpr ⟨hdepth, h.short⟩⟩

/-! ## Services -/

/-- A service that one registry document holds is read from another one. -/
theorem service_recoded {code other : DiagnosticCode} {found : ServiceAdvertisement}
    (h : service code name value = .ok found) : service other name value = .ok found := by
  obtain ⟨named, hnamed, h1⟩ := Result.of_bind_ok h
  obtain ⟨entries, hentries, h2⟩ := Result.of_bind_ok h1
  obtain ⟨fields, hfields, h3⟩ := Result.of_bind_ok h2
  obtain ⟨kind, hkind, h4⟩ := Result.of_bind_ok h3
  obtain ⟨slugged, hslugged, h5⟩ := Result.of_bind_ok h4
  obtain ⟨repository, hrepository, h6⟩ := Result.of_bind_ok h5
  obtain ⟨located, hlocated, h7⟩ := Result.of_bind_ok h6
  obtain rfl := asObject_eq_ok hentries
  have hkind' : requiredField fields "kind" (stringField other "service kind" true) = .ok kind :=
    stringField_eq_ok_iff.mpr (stringField_eq_ok_iff.mp hkind)
  have hrepository' : optionalField fields "repository" (serviceRepository other) = .ok repository := by
    unfold optionalField at hrepository ⊢
    split at hrepository
    · exact hrepository
    · obtain ⟨text, htext, hsame⟩ := Result.of_map_ok hrepository
      obtain ⟨raw, hraw, hrest⟩ := Result.of_bind_ok htext
      obtain ⟨checked, hchecked, hlast⟩ := Result.of_bind_ok hrest
      have hraw' : stringField other "service repository" true _ = .ok raw :=
        stringField_eq_ok_iff.mpr (stringField_eq_ok_iff.mp hraw)
      simp only [serviceRepository, hraw', refuse, refuse_eq_ok.mp hchecked, bind, Except.bind]
      exact congrArg Except.ok (by rw [hsame, Except.ok.inj hlast])
  have hnamed' : refuse (!isServiceName name) other ("invalid service name: " ++ pyRepr name) = .ok named :=
    refuse_eq_ok.mpr (refuse_eq_ok.mp hnamed)
  have hslugged' : refuse (!isSlug kind) other "service kind must be a lowercase slug" = .ok slugged :=
    refuse_eq_ok.mpr (refuse_eq_ok.mp hslugged)
  have hlocated' : refuse (kind == "github-issues" && repository.isNone) other
      "github-issues service requires repository" = .ok located := refuse_eq_ok.mpr (refuse_eq_ok.mp hlocated)
  simp only [service, hnamed', objectOf, asObject, hfields, serviceBody, hkind', hslugged', hrepository', hlocated', bind,
    Except.bind]
  exact h7

theorem services_recoded {code other : DiagnosticCode} {found : List ServiceAdvertisement}
    (h : services code value = .ok found) : services other value = .ok found := by
  obtain ⟨entries, hentries, h1⟩ := Result.of_bind_ok h
  obtain ⟨values, hvalues, h2⟩ := Result.of_bind_ok h1
  obtain rfl := asObject_eq_ok hentries
  have hvalues' : entries.mapM (fun entry => service other entry.1 entry.2) = .ok values :=
    mapM_of_forall₂_ok ((Result.forall₂_of_mapM_ok hvalues).imp fun _ _ => service_recoded)
  simp only [services, asObject, hvalues', bind, Except.bind]
  exact h2

/-! ## Fields -/

theorem shape_indexSetup : Shape indexSetupFields [] setupTable where
  names setup := by simp [setupTable, indexSetupFields]
  nodup setup := by simp [setupTable]
  found := by simp [setupTable, indexSetupFields]
  short := by decide

theorem shape_indexProvenance : Shape indexProvenanceFields [] provenanceTable where
  names provenance := by simp [provenanceTable, indexProvenanceFields]
  nodup provenance := by simp [provenanceTable]
  found := by simp [provenanceTable, indexProvenanceFields]
  short := by decide

/-! ## Names of any kind -/

theorem slug_of_anyName {label raw found : String}
    (h : Native.anyName code label raw = .ok found) : isSlug raw = true := by
  unfold Native.anyName at h
  split at h
  · assumption
  · cases h

theorem nameSet_of_anyNames {label name : String} (hfits : Fits depth value)
    (h : namedValues code label allowEmpty (Native.anyName code name) value = .ok names) : NameSet allowEmpty names := by
  simpa only [List.map_id] using
    nameSet_of_namedValues (Native.textOf_anyName code name) (fun _ _ => slug_of_anyName) hfits h

theorem fits_required {fields : Dict} (h : Fits depth (.obj fields)) (name : String) {α : Type}
    {parse : Json → Result α} (hnull : ∀ x, parse .null ≠ .ok x) {x : α}
    (hread : requiredField fields name parse = .ok x) :
    Fits (depth + 1) ((Dict.get? fields name).getD .null) := by
  unfold requiredField at hread
  cases hget : Dict.get? fields name with
  | none =>
      rw [hget] at hread
      exact absurd hread (hnull x)
  | some value => exact (Manifest.fits_of_get? h hget).2

section Library

variable [StandardLibrary]

/-! ## Setups -/

/-- A path below a directory of a package, as a document holds it. -/
structure SoundPath (path : SafeRelativePath) : Prop where
  parsed : parseRelativePath path.str = .ok path
  line : oneLine path.str = true
  short : path.str.length ≤ maxStringLength

variable {depth : Nat}

theorem soundPath_of_text {code : DiagnosticCode} {label raw : String} {singleLine : Bool} {value : Json}
    {path : SafeRelativePath} (hfits : Fits depth value) (h : stringField code label singleLine value = .ok raw)
    (hpath : parseRelativePath raw = .ok path) : SoundPath path := by
  have htext := textOf_relativePath raw path hpath
  subst htext
  obtain rfl := stringField_eq_ok h
  have hsafe : isSafeRelative path.str = true := by
    unfold isSafeRelative
    rw [hpath]
    rfl
  exact ⟨hpath, Manifest.oneLine_sourcePath hsafe (plain_of_stringField h).2, (fits_str.mp hfits).2⟩

structure SoundSetup (setup : Registry.SetupReference) : Prop where
  recipe : SoundPath setup.recipe
  below : setup.recipe.parts.head? = some "setup"
  platforms : NameSet false setup.platforms

theorem soundSetup_of_setup {compatibility : Registry.CompatibilitySpec} {value : Json}
    {setup : Registry.SetupReference} (hfits : Fits depth value) (h : Native.setup compatibility value = .ok setup) :
    SoundSetup setup := by
  obtain ⟨entries, hentries, h1⟩ := Result.of_bind_ok h
  obtain ⟨fields, hfields, h2⟩ := Result.of_bind_ok h1
  obtain rfl := asObject_eq_ok hentries
  obtain ⟨rfl, hrequired, _⟩ := validateObjectFields_eq_ok.mp hfields
  obtain ⟨recipe, hrecipe, h3⟩ := Result.of_bind_ok h2
  obtain ⟨below, hbelow, h4⟩ := Result.of_bind_ok h3
  obtain ⟨platforms, hplatforms, h5⟩ := Result.of_bind_ok h4
  obtain ⟨subset, _, h6⟩ := Result.of_bind_ok h5
  obtain rfl := Except.ok.inj h6
  refine ⟨?_, by simpa using refuse_eq_ok.mp hbelow, ?_⟩
  · have hmember := fits_required hfits "recipe" (fun x hx => by cases hx) hrecipe
    obtain ⟨raw, hraw, hpath⟩ := Result.of_bind_ok hrecipe
    exact soundPath_of_text hmember hraw hpath
  · exact nameSet_of_anyNames (fits_required hfits "platforms" (fun x hx => by cases hx) hplatforms) hplatforms

omit [StandardLibrary] in
theorem requiredField_line {code : DiagnosticCode} {label name text : String} {written : Dict}
    (hget : Dict.get? written name = some (.str text)) (h : oneLine text = true) :
    requiredField written name (stringField code label true) = .ok text := by
  rw [requiredField, hget]
  exact stringField_eq_ok_iff.mpr ⟨rfl, h⟩

omit [StandardLibrary] in
theorem mapM_parseCapability (capabilities : List Capability)
    (h : ∀ capability ∈ capabilities, isSlug capability.value = true) :
    (capabilities.map Capability.value).mapM parseCapability = .ok capabilities := by
  refine mapM_written fun capability hmem => ?_
  rw [parseCapability, if_pos (h capability hmem)]

theorem SoundSetup.indexSetup {recipe : SafeRelativePath} {platforms : List String} {capabilities : List Capability}
    (h : SoundSetup ⟨recipe, platforms⟩) (hcapabilities : NameSet true (capabilities.map Capability.value)) :
    indexSetup (jsonObject (setupTable ⟨recipe, platforms, capabilities⟩)) =
      .ok (some ⟨recipe, platforms, capabilities⟩) := by
  have hnames : (capabilities.map Capability.value).mapM parseCapability = .ok capabilities :=
    mapM_parseCapability capabilities fun capability hmem =>
      hcapabilities.slugs _ (List.mem_map.mpr ⟨capability, hmem, rfl⟩)
  have hself : sortedBy Capability.value capabilities.dedup = capabilities := by
    have hnodup : (capabilities.map Capability.value).Nodup := hcapabilities.sorted ▸ nodup_sortedSet _
    have hsorted := hcapabilities.sorted
    rw [sortedSet, hnodup.dedup] at hsorted
    rw [(List.Nodup.of_map _ hnodup).dedup]
    refine sortedBy_eq_self (List.pairwise_map.mp ?_)
    rw [← hsorted]
    exact pairwise_sortedBy id _
  have hread : objectOf registryIndexInvalid "setup" false indexSetupFields [] indexSetupBody
      (jsonObject (setupTable ⟨recipe, platforms, capabilities⟩)) = .ok ⟨recipe, platforms, capabilities⟩ := by
    refine objectOf_written shape_indexSetup fun written hwritten => ?_
    simp only [setupTable, List.forall_mem_cons] at hwritten
    obtain ⟨wrecipe, wplatforms, wcapabilities, _⟩ := hwritten
    have hplatforms : requiredField written "platforms" (indexNames "setup platforms" none false) = .ok platforms := by
      rw [requiredField, wplatforms]
      exact h.platforms.indexNames _ (by simp)
    have hstrings : requiredField written "capabilities" (stringsField registryIndexInvalid "setup capabilities" true) =
        .ok (capabilities.map Capability.value) := by
      rw [requiredField, wcapabilities]
      exact stringsField_stringArray (by simp) hcapabilities.sorted fun name hname =>
        oneLine_slug (hcapabilities.slugs name hname)
    simp only [indexSetupBody, requiredField_line wrecipe h.recipe.line, hplatforms, hstrings, h.recipe.parsed,
      insteadOf, h.below, bne_self_eq_false, refuse, hnames, hself, bind, Except.bind]
    rfl
  exact congrArg (Except.map some) hread

theorem SoundSetup.fits {recipe : SafeRelativePath} {platforms : List String} {capabilities : List Capability}
    (h : SoundSetup ⟨recipe, platforms⟩) (hcapabilities : NameSet true (capabilities.map Capability.value))
    (hdepth : depth + 2 ≤ maxDepth) :
    Fits depth (jsonObject (setupTable ⟨recipe, platforms, capabilities⟩)) := by
  refine (fits_jsonObject_iff (shape_indexSetup.nodup _)).mpr ⟨by omega, fun name value hmem => ?_⟩
  simp only [setupTable, List.mem_cons, Prod.mk.injEq, List.not_mem_nil, or_false] at hmem
  rcases hmem with ⟨rfl, hvalue⟩ | ⟨rfl, hvalue⟩ | ⟨rfl, hvalue⟩
  · rw [Option.some.inj hvalue]
    exact ⟨by decide, fits_str.mpr ⟨by omega, h.recipe.short⟩⟩
  · rw [Option.some.inj hvalue]
    exact ⟨by decide, h.platforms.fits (by omega)⟩
  · rw [Option.some.inj hvalue]
    exact ⟨by decide, hcapabilities.fits (by omega)⟩

/-! ## Provenance -/

structure SoundProvenance (provenance : IndexProvenance) : Prop where
  url : safeGitUrl provenance.originUrl = true
  urlLine : oneLine provenance.originUrl = true
  urlShort : provenance.originUrl.length ≤ maxStringLength
  commit : isCommit provenance.resolvedCommit = true
  path : SoundPath provenance.path

omit [StandardLibrary] in
/-- No character of a Git URL is a space. -/
theorem not_space_of_safeGitUrl {url : String} (h : safeGitUrl url = true) : ∀ c ∈ url.toList, isSpace c = false := by
  intro c hc
  rw [safeGitUrl, Bool.or_eq_true] at h
  rcases h with hscp | hhttps
  · unfold isScpGit at hscp
    simp only [Bool.and_eq_true] at hscp
    obtain ⟨hstart, hscp⟩ := hscp
    rw [← Manifest.append_removePrefix hstart, String.toList_append, List.mem_append] at hc
    have hhead : ∀ d ∈ "git@".toList, isSpace d = false := by decide
    rcases hc with hc | hc
    · exact hhead c hc
    · rw [← List.takeWhile_append_dropWhile (p := isHostChar) (l := (removePrefix "git@" url).toList),
        List.mem_append] at hc
      split at hscp
      · rename_i path hpath
        simp only [Bool.and_eq_true, Bool.not_eq_true', List.any_eq_false, Bool.or_eq_true, not_or,
          Bool.not_eq_true] at hscp
        rw [hpath, List.mem_cons] at hc
        rcases hc with hhost | rfl | hrest
        · have hchar := List.mem_takeWhile_imp hhost
          simp only [isHostChar, Bool.or_eq_true, beq_iff_eq] at hchar
          rcases hchar with (hletter | rfl) | rfl
          · exact not_space_of_alphanum hletter
          · decide
          · decide
        · decide
        · exact (hscp.2 c hrest).1.1
      · cases hscp
  · unfold safeHttpsUrl at hhttps
    simp only [Bool.and_eq_true, Bool.not_eq_true', List.any_eq_false, Bool.or_eq_true, not_or,
      Bool.not_eq_true] at hhttps
    exact (hhttps.2 c hc).2

theorem soundProvenance_of_origin {value : Json} {origin : Native.OriginProvenance}
    (hfits : Fits depth value) (h : Native.origin value = .ok origin) :
    SoundProvenance ⟨origin.url, origin.resolvedCommit, origin.path⟩ := by
  obtain ⟨entries, hentries, h1⟩ := Result.of_bind_ok h
  obtain ⟨fields, hfields, h2⟩ := Result.of_bind_ok h1
  obtain rfl := asObject_eq_ok hentries
  obtain ⟨rfl, _⟩ := validateObjectFields_eq_ok.mp hfields
  obtain ⟨kind, _, h3⟩ := Result.of_bind_ok h2
  obtain ⟨url, hurl, h4⟩ := Result.of_bind_ok h3
  obtain ⟨commit, _, h5⟩ := Result.of_bind_ok h4
  obtain ⟨rawPath, hraw, h6⟩ := Result.of_bind_ok h5
  obtain ⟨pinned, hpinned, h7⟩ := Result.of_bind_ok h6
  obtain ⟨path, hpath, h8⟩ := Result.of_bind_ok h7
  obtain ⟨digest, _, h9⟩ := Result.of_bind_ok h8
  obtain rfl := Except.ok.inj h9
  have hpassed := refuse_eq_ok.mp hpinned
  simp only [Bool.or_eq_false_iff, bne_eq_false_iff_eq, Bool.not_eq_false'] at hpassed
  have hparsed : parseRelativePath rawPath = .ok path := by
    unfold insteadOf at hpath
    split at hpath
    · rename_i found hfound
      rw [hfound, Except.ok.inj hpath]
    · cases hpath
  have hurlFits := fits_required hfits "url" (fun x hx => by cases hx) hurl
  have hpathFits := fits_required hfits "path" (fun x hx => by cases hx) hraw
  have hurlText : (Dict.get? fields "url").getD .null = .str url := stringField_eq_ok hurl
  rw [hurlText] at hurlFits
  refine ⟨hpassed.1.2, ?_, (fits_str.mp hurlFits).2, hpassed.2, soundPath_of_text hpathFits hraw hparsed⟩
  exact Manifest.oneLine_of_not_space (plain_of_stringField hurl).1 (not_space_of_safeGitUrl hpassed.1.2)

theorem SoundProvenance.indexProvenance {provenance : IndexProvenance} (h : SoundProvenance provenance) :
    indexProvenance (jsonObject (provenanceTable provenance)) = .ok (some provenance) := by
  have hread : objectOf registryIndexInvalid "provenance" false indexProvenanceFields [] indexProvenanceBody
      (jsonObject (provenanceTable provenance)) = .ok provenance := by
    refine objectOf_written shape_indexProvenance fun written hwritten => ?_
    simp only [provenanceTable, List.forall_mem_cons] at hwritten
    obtain ⟨wurl, wcommit, wpath, _⟩ := hwritten
    have hpinned : (!safeGitUrl provenance.originUrl || !isCommit provenance.resolvedCommit) = false := by
      rw [h.url, h.commit]
      rfl
    simp only [indexProvenanceBody, requiredField_line wurl h.urlLine,
      requiredField_line wcommit (Manifest.oneLine_commit h.commit), requiredField_line wpath h.path.line, hpinned, refuse,
      h.path.parsed, bind, Except.bind]
    rfl
  exact congrArg (Except.map some) hread

theorem SoundProvenance.fits {provenance : IndexProvenance} (h : SoundProvenance provenance)
    (hdepth : depth + 1 ≤ maxDepth) : Fits depth (jsonObject (provenanceTable provenance)) := by
  refine (fits_jsonObject_iff (shape_indexProvenance.nodup provenance)).mpr ⟨by omega, fun name value hmem => ?_⟩
  simp only [provenanceTable, List.mem_cons, Prod.mk.injEq, List.not_mem_nil, or_false] at hmem
  rcases hmem with ⟨rfl, hvalue⟩ | ⟨rfl, hvalue⟩ | ⟨rfl, hvalue⟩
  · rw [Option.some.inj hvalue]
    exact ⟨by decide, fits_str.mpr ⟨hdepth, h.urlShort⟩⟩
  · rw [Option.some.inj hvalue]
    refine ⟨by decide, fits_str.mpr ⟨hdepth, ?_⟩⟩
    have hcommit := h.commit
    simp only [isCommit, Bool.and_eq_true, beq_iff_eq] at hcommit
    rw [← String.length_toList, hcommit.1]
    decide
  · rw [Option.some.inj hvalue]
    exact ⟨by decide, fits_str.mpr ⟨hdepth, h.path.short⟩⟩

end Library

end AgentArtifacts.RegistrySchema
