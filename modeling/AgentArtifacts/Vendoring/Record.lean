import AgentArtifacts.InstallState.ManifestBytes
import AgentArtifacts.Protocol.JsonAscii
import AgentArtifacts.Protocol.NativeDocuments
import AgentArtifacts.Vendoring.Model

/-!
# Reading a vendoring record back

The record of a copy is read from the provenance, and the provenance from its bytes.
-/

namespace AgentArtifacts.Vendoring

open JsonText (eq_of_parseJson_canonicalJsonBytes)
open Manifest (present frozenEntries_iff frozen_array frozen_str frozen_jsonObject slug_eq_of_value digest_eq_of_str)
open Native (Provenance OriginProvenance ImporterProvenance provenanceToJson originTable importerTable
  parseProvenance provenanceOf provenanceBody originBody importerBody provenanceRequired shape_provenance shape_origin
  shape_importer textOf_relativePath)
open Schema (documentJson extensionsOf stringField_eq_ok nodup_document mem_documentJson body_of_objectOf textOf_slug
  textOf_digest validateObjectFields_eq_ok get?_documentJson extensionsOf_documentJson)

section Record

variable [StandardLibrary]

omit [StandardLibrary] in
theorem recordedPaths_str {paths : List String} (h : ∀ path ∈ paths, path ≠ "") :
    recordedPaths (paths.map .str) = some paths := by
  induction paths with
  | nil => rfl
  | cons path rest ih =>
      obtain ⟨hpath, hrest⟩ := List.forall_mem_cons.mp h
      rw [List.map_cons, recordedPaths, if_neg hpath, ih hrest]
      rfl

/-- A provenance that carries a record, and the digest of its instruction. -/
structure Carries (provenance : Provenance) (record : VendorRecord) : Prop where
  importer : provenance.importer.id = vendorImporterId
  extensions : provenance.extensions = [(vendorRecordKey, recordJson record)]
  digest : provenance.importer.optionsDigest =
    vendorOptionsDigest provenance.origin.url record.ref provenance.origin.path

variable {record : VendorRecord}

/-- The record that a provenance carries is read back from it. -/
theorem readVendorRecord_of_carries {provenance : Provenance} (h : Carries provenance record)
    (href : record.ref ≠ "") (hpaths : ∀ path ∈ record.authored, path ≠ "") :
    readVendorRecord provenance = .ok record := by
  unfold readVendorRecord
  rw [if_neg (not_not.mpr h.importer), h.extensions]
  have hfound (value : Json) : Dict.get? [(vendorRecordKey, value)] vendorRecordKey = some value := by
    simp [Dict.get?]
  have hauthored : Dict.get? [("authored", Json.arr (record.authored.map .str)), ("ref", .str record.ref)] "authored" =
      some (.arr (record.authored.map .str)) := by simp [Dict.get?]
  have hrecorded : Dict.get? [("authored", Json.arr (record.authored.map .str)), ("ref", .str record.ref)] "ref" =
      some (.str record.ref) := by simp [Dict.get?]
  simp only [hfound, recordJson, hauthored, hrecorded, if_neg href, recordedPaths_str hpaths, h.digest, ne_eq,
    not_true_eq_false, if_false]

/-! ## From the bytes -/

omit [StandardLibrary] in
theorem frozen_recordJson (record : VendorRecord) : Frozen (recordJson record) := by
  rw [recordJson, Frozen, frozenEntries_iff]
  have hkeys : (["authored", "ref"] : List String).Pairwise (· < ·) := by decide
  refine ⟨hkeys, ?_⟩
  simp only [List.forall_mem_cons]
  refine ⟨frozen_array fun item hitem => ?_, frozen_str _, by simp⟩
  obtain ⟨path, _, rfl⟩ := List.mem_map.mp hitem
  exact frozen_str path

omit [StandardLibrary] in
theorem extension_fresh : ∀ entry ∈ [(vendorRecordKey, recordJson record)],
    entry.1 ∉ provenanceRequired ++ [] := by
  simp [vendorRecordKey, provenanceRequired]

omit [StandardLibrary] in
theorem nodup_provenance (provenance : Provenance) (record : VendorRecord) :
    ((present (Native.provenanceTable provenance) ++ [(vendorRecordKey, recordJson record)]).map Prod.fst).Nodup :=
  nodup_document (shape_provenance.nodup provenance) (shape_provenance.names provenance) (by simp) extension_fresh

omit [StandardLibrary] in
theorem frozen_provenance {provenance : Provenance}
    (h : provenance.extensions = [(vendorRecordKey, recordJson record)]) : Frozen (provenanceToJson provenance) := by
  rw [provenanceToJson, documentJson, h, Frozen, frozenEntries_iff]
  refine ⟨sortEntries_pairwise (nodup_provenance provenance record), fun entry hentry => ?_⟩
  rcases mem_documentJson.mp hentry with hfield | hmore
  · simp only [Native.provenanceTable, List.mem_cons, Prod.mk.injEq, Option.some.injEq, List.not_mem_nil, or_false] at hfield
    rcases hfield with ⟨_, hvalue⟩ | ⟨_, hvalue⟩ | ⟨_, hvalue⟩ | ⟨_, hvalue⟩
    · rw [hvalue]
      refine frozen_jsonObject (shape_importer.nodup _) fun name value hmem => ?_
      simp only [importerTable, List.mem_cons, Prod.mk.injEq, Option.some.injEq, List.not_mem_nil, or_false] at hmem
      rcases hmem with ⟨_, rfl⟩ | ⟨_, rfl⟩ | ⟨_, rfl⟩
      all_goals exact frozen_str _
    · rw [hvalue]
      refine frozen_jsonObject (shape_origin.nodup _) fun name value hmem => ?_
      simp only [originTable, List.mem_cons, Prod.mk.injEq, Option.some.injEq, List.not_mem_nil, or_false] at hmem
      rcases hmem with ⟨_, rfl⟩ | ⟨_, rfl⟩ | ⟨_, rfl⟩ | ⟨_, rfl⟩ | ⟨_, rfl⟩
      all_goals exact frozen_str _
    · rw [hvalue, Frozen]
      trivial
    · rw [hvalue]
      refine frozen_array fun item hitem => ?_
      obtain ⟨text, _, rfl⟩ := List.mem_map.mp hitem
      exact frozen_str text
  · obtain rfl := List.mem_singleton.mp hmore
    exact frozen_recordJson record

/-- The origin that is read has the URL, the path and the digest that were written. -/
theorem origin_written {written found : OriginProvenance}
    (h : Native.origin (Manifest.jsonObject (originTable written)) = .ok found) :
    found.url = written.url ∧ found.path.str = written.path.str ∧ found.inputDigest = written.inputDigest := by
  obtain ⟨fields, hfields, hbody⟩ := body_of_objectOf shape_origin h
  simp only [originTable, List.forall_mem_cons] at hfields
  obtain ⟨hdigestField, _, hpathField, _, hurlField, _⟩ := hfields
  obtain ⟨kind, _, h1⟩ := Result.of_bind_ok hbody
  obtain ⟨url, hurl, h2⟩ := Result.of_bind_ok h1
  obtain ⟨commit, _, h3⟩ := Result.of_bind_ok h2
  obtain ⟨rawPath, hraw, h4⟩ := Result.of_bind_ok h3
  obtain ⟨pinned, _, h5⟩ := Result.of_bind_ok h4
  obtain ⟨path, hpath, h6⟩ := Result.of_bind_ok h5
  obtain ⟨digest, hdigest, h7⟩ := Result.of_bind_ok h6
  obtain rfl := Except.ok.inj h7
  have htext : path.str = rawPath := textOf_relativePath.insteadOf _ _ _ _ hpath
  rw [Manifest.requiredField, hurlField] at hurl
  rw [Manifest.requiredField, hpathField] at hraw
  rw [Manifest.requiredField, hdigestField] at hdigest
  obtain ⟨rawDigest, hrawDigest, hdigest⟩ := Result.of_bind_ok hdigest
  have tdigest : digest.str = rawDigest := textOf_digest.insteadOf _ _ _ _ hdigest
  exact ⟨(Json.str.inj (stringField_eq_ok hurl)).symm, htext.trans (Json.str.inj (stringField_eq_ok hraw)).symm,
    digest_eq_of_str (tdigest.trans (Json.str.inj (stringField_eq_ok hrawDigest)).symm)⟩

omit [StandardLibrary] in
/-- The importer that is read has the name and the digest that were written. -/
theorem importer_written {written found : ImporterProvenance}
    (h : Native.importer (Manifest.jsonObject (importerTable written)) = .ok found) :
    found.id = written.id ∧ found.optionsDigest = written.optionsDigest := by
  obtain ⟨fields, hfields, hbody⟩ := body_of_objectOf shape_importer h
  simp only [importerTable, List.forall_mem_cons] at hfields
  obtain ⟨hidField, hdigestField, _, _⟩ := hfields
  obtain ⟨rawId, hrawId, h1⟩ := Result.of_bind_ok hbody
  obtain ⟨rawVersion, _, h2⟩ := Result.of_bind_ok h1
  obtain ⟨rawDigest, hrawDigest, h3⟩ := Result.of_bind_ok h2
  obtain ⟨id, hid, h4⟩ := Result.of_bind_ok h3
  obtain ⟨version, _, h5⟩ := Result.of_bind_ok h4
  obtain ⟨digest, hdigest, h6⟩ := Result.of_bind_ok h5
  obtain rfl := Except.ok.inj h6
  have tid : id.value = rawId := textOf_slug _ _ _ _ hid
  have tdigest : digest.str = rawDigest := textOf_digest.insteadOf _ _ _ _ hdigest
  rw [Manifest.requiredField, hidField] at hrawId
  rw [Manifest.requiredField, hdigestField] at hrawDigest
  exact ⟨slug_eq_of_value (tid.trans (Json.str.inj (stringField_eq_ok hrawId)).symm),
    digest_eq_of_str (tdigest.trans (Json.str.inj (stringField_eq_ok hrawDigest)).symm)⟩

/-- The parts of a provenance that is read are read from what was written of them. -/
theorem parts_of_parse [JsonRuntime] {provenance found : Provenance}
    (hextensions : provenance.extensions = [(vendorRecordKey, recordJson record)])
    (h : parseProvenance (canonicalJsonBytes (provenanceToJson provenance)) = .ok found) :
    Native.origin (Manifest.jsonObject (originTable provenance.origin)) = .ok found.origin ∧
      Native.importer (Manifest.jsonObject (importerTable provenance.importer)) = .ok found.importer ∧
        found.extensions = [(vendorRecordKey, recordJson record)] := by
  obtain ⟨value, hvalue, h⟩ := Result.of_bind_ok h
  obtain rfl := eq_of_parseJson_canonicalJsonBytes (frozen_provenance hextensions) hvalue
  rw [provenanceToJson, documentJson, hextensions] at h
  obtain ⟨entries, hentries, h⟩ := Result.of_bind_ok h
  obtain ⟨fields, hfields, h⟩ := Result.of_bind_ok h
  obtain rfl := Except.ok.inj hentries
  obtain ⟨rfl, _, _⟩ := validateObjectFields_eq_ok.mp hfields
  have hkeys := nodup_provenance provenance record
  have hget {name : String} {value : Json} (hfield : (name, some value) ∈ Native.provenanceTable provenance) :
      Dict.get? (sortEntries (present (Native.provenanceTable provenance) ++ [(vendorRecordKey, recordJson record)])) name =
        some value :=
    get?_documentJson hkeys (shape_provenance.nodup provenance) hfield fun entry hentry heq =>
      extension_fresh entry hentry (heq ▸ shape_provenance.names provenance (List.mem_map.mpr ⟨_, hfield, rfl⟩))
  obtain ⟨schemaVersion, _, h1⟩ := Result.of_bind_ok h
  obtain ⟨origin, horigin, h2⟩ := Result.of_bind_ok h1
  obtain ⟨importer, himporter, h3⟩ := Result.of_bind_ok h2
  obtain ⟨warnings, _, h4⟩ := Result.of_bind_ok h3
  obtain rfl := Except.ok.inj h4
  have himporterField : ("importer", some (Manifest.jsonObject (importerTable provenance.importer))) ∈
      Native.provenanceTable provenance := by simp [Native.provenanceTable]
  have horiginField : ("origin", some (Manifest.jsonObject (originTable provenance.origin))) ∈
      Native.provenanceTable provenance := by simp [Native.provenanceTable]
  rw [Manifest.requiredField, hget horiginField] at horigin
  rw [Manifest.requiredField, hget himporterField] at himporter
  refine ⟨horigin, himporter, ?_⟩
  rw [← List.append_nil provenanceRequired]
  exact extensionsOf_documentJson (shape_provenance.names provenance) (sortEntries_pairwise hkeys) (by simp) extension_fresh

/-- What is read from the bytes of a provenance carries the record that it was written with. -/
theorem carries_of_parse [JsonRuntime] {provenance found : Provenance}
    (hcarries : Carries provenance record)
    (h : parseProvenance (canonicalJsonBytes (provenanceToJson provenance)) = .ok found) : Carries found record := by
  obtain ⟨horigin, himporter, hextensions⟩ := parts_of_parse hcarries.extensions h
  obtain ⟨hurl, hpath, _⟩ := origin_written horigin
  obtain ⟨hid, hdigest⟩ := importer_written himporter
  refine ⟨hid.trans hcarries.importer, hextensions, ?_⟩
  rw [hdigest, hcarries.digest, vendorOptionsDigest, vendorOptionsDigest, hurl, hpath]

end Record

end AgentArtifacts.Vendoring
