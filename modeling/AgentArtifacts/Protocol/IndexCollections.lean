import AgentArtifacts.Protocol.IndexArtifacts
import AgentArtifacts.Protocol.Printing

/-!
# Collections of an index

A collection is embedded in the index without its schema version and two levels further
down than in its own document, which is what it is read as again.
-/

namespace AgentArtifacts.RegistrySchema

open JsonText (Legible InRange)open Manifest (Fields present jsonObject requiredField)
open Native (parseCollectionManifest collectionManifestOf collectionRequired collectionOptional collectionName
  collectionSelectors readsBack_collectionSelectors textOf_collectionName)
open Registry (registryIndexInvalid)
open Schema

/-! ## The document of a collection -/

/-- The fields a compiled collection is read from, with the schema version it left out. -/
def collectionDocument (collection : Native.CollectionManifest) : Fields :=
  ("schema_version", some (.int 1)) :: indexCollectionTable collection

theorem shape_collectionDocument : Shape collectionRequired collectionOptional collectionDocument where
  names collection := by
    simp [collectionDocument, indexCollectionTable, collectionRequired, collectionOptional]
  nodup collection := by simp [collectionDocument, indexCollectionTable]
  found := by simp [collectionDocument, indexCollectionTable, collectionRequired]
  short := by decide

theorem one_of_schemaVersion {code : DiagnosticCode} {fields : Dict} {version : Int}
    (h : requiredField fields "schema_version" (schemaVersion code) = .ok version) : version = 1 := by
  obtain ⟨found, _, h1⟩ := Result.of_bind_ok h
  obtain ⟨checked, hchecked, h2⟩ := Result.of_bind_ok h1
  obtain rfl := Except.ok.inj h2
  simpa using refuse_eq_ok.mp hchecked

theorem readsBack_collectionDocument : ReadsBack collectionManifestOf fun collection =>
    documentJson (collectionDocument collection) collection.extensions := by
  refine readsBack_document shape_collectionDocument ?_
  intro depth fields manifest hfits hfound _ h
  obtain ⟨schemaVersion, hschema, h1⟩ := Result.of_bind_ok h
  obtain ⟨rawName, hrawName, h2⟩ := Result.of_bind_ok h1
  obtain ⟨summary, hsummary, h3⟩ := Result.of_bind_ok h2
  obtain ⟨name, hname, h4⟩ := Result.of_bind_ok h3
  obtain ⟨artifacts, hartifacts, h5⟩ := Result.of_bind_ok h4
  obtain ⟨collections, hcollections, h6⟩ := Result.of_bind_ok h5
  obtain ⟨itself, hitself, h7⟩ := Result.of_bind_ok h6
  obtain ⟨some, hsome, h8⟩ := Result.of_bind_ok h7
  obtain rfl := Except.ok.inj h8
  have htext : name.value = rawName := textOf_slug _ _ _ _ hname
  have kschema := kept_required (readsBack_schemaVersion _) hfits (hfound _ (by decide)) hschema
  have kname := kept_required (readsBack_string _ _ _) hfits (hfound _ (by decide)) hrawName
  have ksummary := kept_required (readsBack_string _ _ _) hfits (hfound _ (by decide)) hsummary
  have kartifacts := kept_required readsBack_collectionSelectors hfits (hfound _ (by decide)) hartifacts
  have hdepth : depth + 1 ≤ maxDepth := by
    have hwritten := kschema.fits _ rfl
    rw [Fits] at hwritten
    exact hwritten.1
  have kcollections := kept_written (readsBack_namedValues textOf_collectionName _ _ _) hfits hcollections
    (fits_arr.mpr ⟨hdepth, by simp⟩) rfl
  have hone : schemaVersion = 1 := one_of_schemaVersion hschema
  subst hone
  refine ⟨rfl, ?_, ?_⟩
  · simp only [collectionDocument, indexCollectionTable, htext, List.forall_mem_cons]
    exact ⟨kschema.fits, kname.fits, ksummary.fits, kartifacts.fits, kcollections.fits, by simp⟩
  · intro written hwritten hextensions
    simp only [collectionDocument, indexCollectionTable, htext, List.forall_mem_cons] at hwritten
    obtain ⟨wschema, wname, wsummary, wartifacts, wcollections, _⟩ := hwritten
    simp only [Native.collectionBody, kschema.again _ wschema, kname.again _ wname, ksummary.again _ wsummary, hname,
      kartifacts.again _ wartifacts, kcollections.again _ wcollections, hitself, hsome, hextensions, bind, Except.bind]
    rfl

/-! ## Collections in the index -/

/-- The rules of an index for one of its collections, but for how deep its extensions go. -/
structure SoundCollection (collection : Native.CollectionManifest) : Prop where
  read : collectionManifestOf (documentJson (collectionDocument collection) collection.extensions) = .ok collection
  fits : Fits 0 (documentJson (collectionDocument collection) collection.extensions)
  keys : (collection.extensions.map Prod.fst).Pairwise (· < ·)
  fresh : ∀ entry ∈ collection.extensions, entry.1 ∉ collectionRequired ++ collectionOptional
  selectors : ∀ selector ∈ collection.artifacts, SoundSelector selector
  names : NameSet true (collection.collections.map Slug.value)

theorem soundSelectors_of_collectionSelectors {depth : Nat} {value : Json} {selectors : List Registry.ArtifactSelector}
    (hfits : Fits depth value) (h : collectionSelectors value = .ok selectors) :
    ∀ selector ∈ selectors, SoundSelector selector := by
  obtain ⟨items, hitems, h1⟩ := Result.of_bind_ok h
  obtain ⟨found, hfound, h2⟩ := Result.of_bind_ok h1
  obtain ⟨done, _, h3⟩ := Result.of_bind_ok h2
  obtain rfl := Except.ok.inj h3
  obtain rfl := asArray_eq_ok hitems
  intro selector hselector
  obtain ⟨item, hitem, hread⟩ := exists_of_forall₂_mem (Result.forall₂_of_mapM_ok hfound)
    (Registry.mem_sortedBy.mp hselector)
  exact soundSelector_of_selectorBody ((fits_arr.mp hfits).2 item hitem) hread

theorem slug_of_collectionName {raw : String} {name : Slug} (h : collectionName raw = .ok name) : isSlug raw = true := by
  rw [← textOf_collectionName raw name h]
  exact name.valid

variable {collection : Native.CollectionManifest}

theorem soundCollection_of_parse [StandardLibrary] [JsonRuntime] {data : Bytes}
    (h : parseCollectionManifest data = .ok collection) : SoundCollection collection := by
  obtain ⟨value, hvalue, hread⟩ := Result.of_bind_ok h
  have hfits := fits_of_parseJson hvalue
  obtain ⟨hagain, hwritten⟩ := readsBack_collectionDocument hfits hread
  obtain ⟨entries, hentries, h1⟩ := Result.of_bind_ok hread
  obtain ⟨fields, hfields, h2⟩ := Result.of_bind_ok h1
  obtain rfl := asObject_eq_ok hentries
  obtain ⟨rfl, _⟩ := validateObjectFields_eq_ok.mp hfields
  obtain ⟨schemaVersion, _, h3⟩ := Result.of_bind_ok h2
  obtain ⟨rawName, _, h4⟩ := Result.of_bind_ok h3
  obtain ⟨summary, _, h5⟩ := Result.of_bind_ok h4
  obtain ⟨name, _, h6⟩ := Result.of_bind_ok h5
  obtain ⟨artifacts, hartifacts, h7⟩ := Result.of_bind_ok h6
  obtain ⟨collections, hcollections, h8⟩ := Result.of_bind_ok h7
  obtain ⟨itself, _, h9⟩ := Result.of_bind_ok h8
  obtain ⟨some, _, h10⟩ := Result.of_bind_ok h9
  obtain rfl := Except.ok.inj h10
  refine ⟨hagain, hwritten, ?_, ?_, ?_, ?_⟩
  · exact (fits_obj.mp hfits).2.1.sublist (List.Sublist.map _ List.filter_sublist)
  · intro entry hentry
    simpa using (List.mem_filter.mp hentry).2
  · exact soundSelectors_of_collectionSelectors (fits_required hfits "artifacts" (fun x hx => by cases hx) hartifacts)
      hartifacts
  · unfold defaultedField at hcollections
    split at hcollections
    · obtain rfl := Except.ok.inj hcollections
      exact ⟨by simp, rfl, by simp, by simp⟩
    · rename_i found hfound
      exact nameSet_of_namedValues textOf_collectionName (fun _ _ => slug_of_collectionName)
        (Manifest.fits_of_get? hfits hfound).2 hcollections

theorem SoundCollection.nodup (h : SoundCollection collection) :
    ((present (collectionDocument collection) ++ collection.extensions).map Prod.fst).Nodup :=
  nodup_document (shape_collectionDocument.nodup collection) (shape_collectionDocument.names collection)
    (nodup_of_pairwise_lt h.keys) h.fresh

theorem SoundCollection.withSchema (h : SoundCollection collection) :
    withSchema (sortEntries (present (indexCollectionTable collection) ++ collection.extensions)) =
      documentJson (collectionDocument collection) collection.extensions := by
  have hnodup := h.nodup
  have hperm : (("schema_version", Json.int 1) ::
      sortEntries (present (indexCollectionTable collection) ++ collection.extensions)).Perm
        (present (collectionDocument collection) ++ collection.extensions) :=
    (List.perm_insertionSort _ _).cons _
  have hleft := sortEntries_pairwise ((hperm.map Prod.fst).nodup_iff.mpr hnodup)
  have hright := sortEntries_pairwise hnodup
  refine congrArg Json.obj (List.Perm.eq_of_pairwise ?_ (List.pairwise_map.mp hleft) (List.pairwise_map.mp hright) ?_)
  · intro a b _ _ hab hba
    exact absurd hba (lt_asymm hab)
  · exact ((List.perm_insertionSort _ _).trans hperm).trans (List.perm_insertionSort _ _).symm

theorem SoundCollection.indexCollection [StandardLibrary] [JsonRuntime]
    (h : SoundCollection collection) : indexCollection (indexCollectionToJson collection) = .ok collection := by
  have hrepeat : decide ("schema_version" ∈
      (sortEntries (present (indexCollectionTable collection) ++ collection.extensions)).map Prod.fst) = false := by
    refine decide_eq_false fun hmem => ?_
    have hnodup : ((("schema_version", Json.int 1) ::
        (present (indexCollectionTable collection) ++ collection.extensions)).map Prod.fst).Nodup := h.nodup
    rw [List.map_cons, List.nodup_cons] at hnodup
    exact hnodup.1 (((List.perm_insertionSort _ _).map Prod.fst).mem_iff.mp hmem)
  have hparsed : parseCollectionManifest (canonicalJsonBytes
      (documentJson (collectionDocument collection) collection.extensions)) = .ok collection := by
    simp only [parseCollectionManifest, parseJson_canonicalJsonBytes h.fits, h.read, bind, Except.bind]
  simp only [RegistrySchema.indexCollection, indexCollectionToJson, documentJson, asObject, hrepeat, refuse,
    bind, Except.bind]
  rw [h.withSchema]
  simp only [documentJson] at hparsed ⊢
  rw [hparsed]
  rfl

theorem SoundCollection.members (h : SoundCollection collection) :
    (∀ name value, (name, some value) ∈ collectionDocument collection → name.length ≤ maxStringLength ∧ Fits 1 value) ∧
      ∀ entry ∈ collection.extensions, entry.1.length ≤ maxStringLength ∧ Fits 1 entry.2 := by
  have hall := (fits_obj.mp h.fits).2.2
  refine ⟨fun name value hmem => ?_, fun entry hentry => ?_⟩
  · exact hall (name, value) (mem_documentJson.mpr (Or.inl hmem))
  · exact hall entry (mem_documentJson.mpr (Or.inr hentry))

theorem SoundCollection.embedded_nodup (h : SoundCollection collection) :
    ((present (indexCollectionTable collection) ++ collection.extensions).map Prod.fst).Nodup :=
  (List.nodup_cons.mp (show ((("schema_version", Json.int 1) ::
    (present (indexCollectionTable collection) ++ collection.extensions)).map Prod.fst).Nodup from h.nodup)).2

theorem SoundCollection.printable (h : SoundCollection collection) :
    Printable (indexCollectionToJson collection) := by
  refine printable_document h.embedded_nodup ?_ fun entry hentry => Printable.of_fits (h.members.2 entry hentry).2
  intro name value hmem
  exact Printable.of_fits (h.members.1 name value (List.mem_cons_of_mem _ hmem)).2

/-- An embedded collection fits exactly where its extensions leave room for two levels more. -/
theorem SoundCollection.fits_iff (h : SoundCollection collection) :
    Fits 2 (indexCollectionToJson collection) ↔ ∀ entry ∈ collection.extensions, 3 + height entry.2 ≤ maxDepth := by
  constructor
  · intro hfits entry hentry
    have hmember := ((fits_obj.mp hfits).2.2 entry (mem_documentJson.mpr (Or.inr hentry))).2
    exact (fits_iff_documentable.mp hmember).depth
  · intro hroom
    have htext (name text : String) (hmem : (name, some (Json.str text)) ∈ collectionDocument collection) :
        Fits 3 (.str text) :=
      fits_str.mpr ⟨by decide, (fits_str.mp (h.members.1 name _ hmem).2).2⟩
    have hfields : ∀ field ∈ indexCollectionTable collection, ∀ value, field.2 = some value → Fits 3 value := by
      simp only [indexCollectionTable, List.forall_mem_cons, Option.some.injEq, forall_eq', List.not_mem_nil,
        false_implies, implies_true, and_true]
      refine ⟨htext "name" _ (by simp [collectionDocument, indexCollectionTable]),
        htext "summary" _ (by simp [collectionDocument, indexCollectionTable]), ?_, h.names.fits (by decide)⟩
      refine fits_arr.mpr ⟨by decide, fun item hitem => ?_⟩
      obtain ⟨selector, hselector, rfl⟩ := List.mem_map.mp hitem
      exact (h.selectors selector hselector).fits (by decide)
    refine fits_obj.mpr ⟨by decide, sortEntries_pairwise h.embedded_nodup, fun entry hentry => ?_⟩
    rcases mem_documentJson.mp hentry with hfield | hextra
    · exact ⟨(h.members.1 _ _ (List.mem_cons_of_mem _ hfield)).1, hfields _ hfield _ rfl⟩
    · have hmember := h.members.2 entry hextra
      exact ⟨hmember.1, Fits.moved hmember.2 (hroom entry hextra)⟩

end AgentArtifacts.RegistrySchema
