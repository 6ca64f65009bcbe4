import AgentArtifacts.InstallState.ManifestParts
import AgentArtifacts.Protocol.NativeSchema
import AgentArtifacts.Protocol.Rereading

/-!
# Native documents are read back

Every value that a parser of a native document finds is written to a document that
the parser reads as the same value.
-/

namespace AgentArtifacts.Native

open Manifest (jsonObject requiredField optionalField choiceOf choiceOf_eq_some installScope_choice installMode_choice
  artifactKind_choice slugOf_eq_some slashJoin_splitChar)
open Registry (Capability CompatibilitySpec InstallSpec InstallEffect SetupReference ArtifactSelector sortedBy)
open Schema

/-! ## Names -/

theorem textOf_anyName (code : DiagnosticCode) (label : String) : TextOf (anyName code label) id := by
  intro raw x h
  unfold anyName at h
  split at h
  · exact (Except.ok.inj h).symm
  · cases h

theorem textOf_collectionName : TextOf collectionName Slug.value := by
  intro raw x h
  unfold collectionName at h
  split at h
  · rename_i name hname
    rw [← Except.ok.inj h]
    exact (slugOf_eq_some.mp hname).symm
  · cases h

theorem textOf_choiceName {α : Type} {all : List α} {value : α → String}
    (hchoice : ∀ {text : String} {choice : α}, choiceOf all value text = some choice ↔ text = value choice)
    (code : DiagnosticCode) (label : String) : TextOf (choiceName all value code label) value := by
  intro raw x h
  unfold choiceName at h
  split at h
  · rename_i choice hfound
    rw [← Except.ok.inj h]
    exact (hchoice.mp hfound).symm
  · cases h

theorem installEffect_choice {text : String} {effect : InstallEffect} :
    choiceOf installEffects InstallEffect.value text = some effect ↔ text = effect.value :=
  choiceOf_eq_some (fun effect => by cases effect <;> decide)
    fun a b h => by cases a <;> cases b <;> simp_all [InstallEffect.value]

theorem textOf_artifactKind : TextOf artifactKind ArtifactKind.value := by
  intro raw x h
  unfold artifactKind at h
  split at h
  · rename_i kind hkind
    rw [← Except.ok.inj h]
    exact (artifactKind_choice.mp hkind).symm
  · cases h

theorem textOf_homepage : TextOf homepage id := by
  intro raw x h
  unfold homepage at h
  split at h
  · exact (Except.ok.inj h).symm
  · cases h

theorem readsBack_anyNames (code : DiagnosticCode) (label : String) (allowEmpty : Bool) (name : String) :
    ReadsBack (namedValues code label allowEmpty (anyName code name)) stringArray := by
  simpa only [List.map_id] using readsBack_namedValues (textOf_anyName code name) code label allowEmpty

theorem readsBack_digest (code : DiagnosticCode) (label : String) (singleLine : Bool) :
    ReadsBack (digestField code label singleLine) fun digest => .str digest.str :=
  readsBack_text (textOf_digest.insteadOf code _) code label singleLine

/-! ## Fields -/

theorem shape_source : Shape sourceRequired sourceOptional sourceTable where
  names manifest := by simp [sourceTable, sourceRequired, sourceOptional]
  nodup manifest := by simp [sourceTable]
  found := by simp [sourceTable, sourceRequired]
  short := by decide

theorem shape_payload : Shape ["root", "format"] [] payloadTable where
  names payload := by simp [payloadTable]
  nodup payload := by simp [payloadTable]
  found := by simp [payloadTable]
  short := by decide

theorem shape_compatibility : Shape ["profiles", "platforms"] [] compatibilityTable where
  names compatibility := by simp [compatibilityTable]
  nodup compatibility := by simp [compatibilityTable]
  found := by simp [compatibilityTable]
  short := by decide

theorem shape_install : Shape ["scopes", "modes", "effects"] [] installTable where
  names install := by simp [installTable]
  nodup install := by simp [installTable]
  found := by simp [installTable]
  short := by decide

theorem shape_setup : Shape ["recipe", "platforms"] [] setupTable where
  names setup := by simp [setupTable]
  nodup setup := by simp [setupTable]
  found := by simp [setupTable]
  short := by decide

theorem shape_artifact : Shape artifactRequired artifactOptional artifactTable where
  names manifest := by simp [artifactTable, artifactRequired, artifactOptional]
  nodup manifest := by simp [artifactTable]
  found := by simp [artifactTable, artifactRequired]
  short := by decide

theorem shape_origin : Shape originFields [] originTable where
  names origin := by simp [originTable, originFields]
  nodup origin := by simp [originTable]
  found := by simp [originTable, originFields]
  short := by decide

theorem shape_importer : Shape importerFields [] importerTable where
  names importer := by simp [importerTable, importerFields]
  nodup importer := by simp [importerTable]
  found := by simp [importerTable, importerFields]
  short := by decide

theorem shape_provenance : Shape provenanceRequired [] provenanceTable where
  names provenance := by simp [provenanceTable, provenanceRequired]
  nodup provenance := by simp [provenanceTable]
  found := by simp [provenanceTable, provenanceRequired]
  short := by decide

theorem shape_collection : Shape collectionRequired collectionOptional collectionTable where
  names manifest := by simp [collectionTable, collectionRequired, collectionOptional]
  nodup manifest := by simp [collectionTable]
  found := by simp [collectionTable, collectionRequired]
  short := by decide

/-! ## Parts of the documents -/

theorem readsBack_compatibility : ReadsBack compatibility fun x => jsonObject (compatibilityTable x) := by
  refine readsBack_object shape_compatibility ?_
  intro depth fields compatibility hfits hfound h
  obtain ⟨profiles, hprofiles, h1⟩ := Result.of_bind_ok h
  obtain ⟨platforms, hplatforms, h2⟩ := Result.of_bind_ok h1
  obtain rfl := Except.ok.inj h2
  have kprofiles := kept_required (readsBack_anyNames _ _ _ _) hfits (hfound _ (by decide)) hprofiles
  have kplatforms := kept_required (readsBack_anyNames _ _ _ _) hfits (hfound _ (by decide)) hplatforms
  refine ⟨?_, ?_⟩
  · simp only [compatibilityTable, List.forall_mem_cons]
    exact ⟨kprofiles.fits, kplatforms.fits, by simp⟩
  · intro written hwritten _
    simp only [compatibilityTable, List.forall_mem_cons] at hwritten
    obtain ⟨wprofiles, wplatforms, _⟩ := hwritten
    simp only [compatibilityBody, kprofiles.again _ wprofiles, kplatforms.again _ wplatforms, bind, Except.bind]
    rfl

theorem readsBack_install : ReadsBack install fun x => jsonObject (installTable x) := by
  refine readsBack_object shape_install ?_
  intro depth fields install hfits hfound h
  obtain ⟨scopes, hscopes, h1⟩ := Result.of_bind_ok h
  obtain ⟨modes, hmodes, h2⟩ := Result.of_bind_ok h1
  obtain ⟨effects, heffects, h3⟩ := Result.of_bind_ok h2
  obtain rfl := Except.ok.inj h3
  have kscopes := kept_required (readsBack_namedValues (textOf_choiceName installScope_choice _ _) _ _ _) hfits
    (hfound _ (by decide)) hscopes
  have kmodes := kept_required (readsBack_namedValues (textOf_choiceName installMode_choice _ _) _ _ _) hfits
    (hfound _ (by decide)) hmodes
  have keffects := kept_required (readsBack_namedValues (textOf_choiceName installEffect_choice _ _) _ _ _) hfits
    (hfound _ (by decide)) heffects
  refine ⟨?_, ?_⟩
  · simp only [installTable, List.forall_mem_cons]
    exact ⟨kscopes.fits, kmodes.fits, keffects.fits, by simp⟩
  · intro written hwritten _
    simp only [installTable, List.forall_mem_cons] at hwritten
    obtain ⟨wscopes, wmodes, weffects, _⟩ := hwritten
    simp only [installBody, kscopes.again _ wscopes, kmodes.again _ wmodes, keffects.again _ weffects, bind, Except.bind]
    rfl

theorem readsBack_artifactSelector : ReadsBack artifactSelector selectorToJson := readsBack_selector _ _ _ _ _ _

/-- Selectors are told apart by the artifact they name in whatever order they come. -/
theorem duplicates_of_perm {α : Type} [DecidableEq α] {left right : List α} (h : left.Perm right) :
    duplicates left = duplicates right := by
  unfold duplicates
  simp only [h.nodup_iff]

theorem readsBack_requirements (identity : ArtifactIdentity) :
    ReadsBack (requirements identity) fun selectors => .arr (selectors.map selectorToJson) := by
  refine readsBack_sortedItems (readsBack_artifactSelector.checked _) _ _ ?_
  intro left right hperm
  rw [duplicates_of_perm (hperm.map _)]

theorem readsBack_collectionSelectors :
    ReadsBack collectionSelectors fun selectors => .arr (selectors.map selectorToJson) := by
  refine readsBack_sortedItems readsBack_artifactSelector _ _ ?_
  intro left right hperm
  rw [duplicates_of_perm (hperm.map _)]

theorem readsBack_importer : ReadsBack importer fun x => jsonObject (importerTable x) := by
  refine readsBack_object shape_importer ?_
  intro depth fields importer hfits hfound h
  obtain ⟨rawId, hrawId, h1⟩ := Result.of_bind_ok h
  obtain ⟨rawVersion, hrawVersion, h2⟩ := Result.of_bind_ok h1
  obtain ⟨rawDigest, hrawDigest, h3⟩ := Result.of_bind_ok h2
  obtain ⟨id, hid, h4⟩ := Result.of_bind_ok h3
  obtain ⟨version, hversion, h5⟩ := Result.of_bind_ok h4
  obtain ⟨digest, hdigest, h6⟩ := Result.of_bind_ok h5
  obtain rfl := Except.ok.inj h6
  have tid : id.value = rawId := textOf_slug _ _ _ _ hid
  have tversion : version.str = rawVersion := textOf_semver.insteadOf _ _ _ _ hversion
  have tdigest : digest.str = rawDigest := textOf_digest.insteadOf _ _ _ _ hdigest
  have kid := kept_required (readsBack_string _ _ _) hfits (hfound _ (by decide)) hrawId
  have kversion := kept_required (readsBack_string _ _ _) hfits (hfound _ (by decide)) hrawVersion
  have kdigest := kept_required (readsBack_string _ _ _) hfits (hfound _ (by decide)) hrawDigest
  refine ⟨?_, ?_⟩
  · simp only [importerTable, tid, tversion, tdigest, List.forall_mem_cons]
    exact ⟨kid.fits, kdigest.fits, kversion.fits, by simp⟩
  · intro written hwritten _
    simp only [importerTable, tid, tversion, tdigest, List.forall_mem_cons] at hwritten
    obtain ⟨wid, wdigest, wversion, _⟩ := hwritten
    simp only [importerBody, kid.again _ wid, kversion.again _ wversion, kdigest.again _ wdigest, hid, hversion,
      hdigest, bind, Except.bind]
    rfl

/-! ## The collection manifest -/

theorem readsBack_collection : ReadsBack collectionManifestOf collectionManifestToJson := by
  refine readsBack_document shape_collection ?_
  intro depth fields manifest hfits hfound _ h
  obtain ⟨schemaVersion, hschema, h1⟩ := Result.of_bind_ok h
  obtain ⟨rawName, hrawName, h2⟩ := Result.of_bind_ok h1
  obtain ⟨summary, hsummary, h3⟩ := Result.of_bind_ok h2
  obtain ⟨name, hname, h4⟩ := Result.of_bind_ok h3
  obtain ⟨artifacts, hartifacts, h5⟩ := Result.of_bind_ok h4
  obtain ⟨collections, hcollections, h6⟩ := Result.of_bind_ok h5
  obtain ⟨itself, hitself, h7⟩ := Result.of_bind_ok h6
  obtain ⟨some, hsome, h8⟩ := Result.of_bind_ok h7
  obtain rfl := Except.ok.inj h8
  have htext : name.value = rawName := textOf_slug _ _ _ _ hname
  have kschema := kept_required (readsBack_schemaVersion _) hfits (hfound _ (by decide)) hschema
  have kname := kept_required (readsBack_string _ _ _) hfits (hfound _ (by decide)) hrawName
  have ksummary := kept_required (readsBack_string _ _ _) hfits (hfound _ (by decide)) hsummary
  have kartifacts := kept_required readsBack_collectionSelectors hfits (hfound _ (by decide)) hartifacts
  have kcollections := kept_defaulted (readsBack_namedValues textOf_collectionName _ _ _) hfits hcollections
    (by simpa only [stringArray_map] using content_optionalArray (fun name => .str name.value) collections)
  refine ⟨rfl, ?_, ?_⟩
  · simp only [collectionTable, htext, List.forall_mem_cons]
    exact ⟨kartifacts.fits, kname.fits, kschema.fits, ksummary.fits, kcollections.fits, by simp⟩
  · intro written hwritten hextensions
    simp only [collectionTable, htext, List.forall_mem_cons] at hwritten
    obtain ⟨wartifacts, wname, wschema, wsummary, wcollections, _⟩ := hwritten
    simp only [collectionBody, kschema.again _ wschema, kname.again _ wname, ksummary.again _ wsummary, hname,
      kartifacts.again _ wartifacts, kcollections.again _ wcollections, hitself, hsome, hextensions, bind, Except.bind]
    rfl

section Library

variable [StandardLibrary]

theorem textOf_relativePath : TextOf parseRelativePath SafeRelativePath.str := by
  intro raw path h
  unfold parseRelativePath at h
  obtain ⟨_, h⟩ := Result.of_check_ok h
  obtain ⟨_, h⟩ := Result.of_check_ok h
  obtain ⟨_, h⟩ := Result.of_check_ok h
  obtain ⟨_, h⟩ := Result.of_check_ok h
  obtain ⟨_, h⟩ := Result.of_check_ok h
  dsimp only at h
  obtain ⟨_, h⟩ := Result.of_check_ok h
  obtain ⟨_, h⟩ := Result.of_check_ok h
  rw [← Except.ok.inj h]
  exact slashJoin_splitChar raw

theorem readsBack_paths (code : DiagnosticCode) (label : String) (allowEmpty : Bool) :
    ReadsBack (pathsField code label allowEmpty) fun paths => stringArray (paths.map SafeRelativePath.str) :=
  readsBack_sortedValues SafeRelativePath.parts textOf_relativePath code label allowEmpty

/-! ## The source manifest -/

theorem readsBack_source : ReadsBack sourceManifestOf sourceManifestToJson := by
  refine readsBack_document shape_source ?_
  intro depth fields manifest hfits hfound _ h
  obtain ⟨schemaVersion, hschema, h1⟩ := Result.of_bind_ok h
  obtain ⟨protocolVersion, hprotocol, h2⟩ := Result.of_bind_ok h1
  obtain ⟨sourceId, hid, h3⟩ := Result.of_bind_ok h2
  obtain ⟨displayName, hname, h4⟩ := Result.of_bind_ok h3
  obtain ⟨bounds, hbounds, h5⟩ := Result.of_bind_ok h4
  obtain ⟨capabilities, hcapabilities, h6⟩ := Result.of_bind_ok h5
  obtain ⟨roots, hroots, h7⟩ := Result.of_bind_ok h6
  obtain ⟨collections, hcollections, h8⟩ := Result.of_bind_ok h7
  obtain ⟨overlap, hoverlap, h9⟩ := Result.of_bind_ok h8
  obtain ⟨nested, hnested, h10⟩ := Result.of_bind_ok h9
  obtain rfl := Except.ok.inj h10
  have kschema := kept_required (readsBack_schemaVersion sourceInvalid) hfits (hfound _ (by decide)) hschema
  have kprotocol := kept_required (readsBack_protocolVersion sourceInvalid) hfits (hfound _ (by decide)) hprotocol
  have kid := kept_required (readsBack_text (textOf_slug _ _) _ _ _) hfits (hfound _ (by decide)) hid
  have kname := kept_required (readsBack_string _ _ _) hfits (hfound _ (by decide)) hname
  have kbounds := kept_required (readsBack_bounds _ _) hfits (hfound _ (by decide)) hbounds
  have kcapabilities := kept_required (readsBack_capabilities _ _) hfits (hfound _ (by decide)) hcapabilities
  have kroots := kept_required (readsBack_paths _ _ _) hfits (hfound _ (by decide)) hroots
  have kcollections := kept_defaulted (readsBack_paths _ _ _) hfits hcollections
    (by simpa only [stringArray_map] using content_optionalArray (fun root => .str root.str) collections)
  refine ⟨rfl, ?_, ?_⟩
  · simp only [sourceTable, List.forall_mem_cons]
    exact ⟨kschema.fits, kprotocol.fits, kid.fits, kname.fits, kbounds.fits, kcapabilities.fits, kroots.fits,
      kcollections.fits, by simp⟩
  · intro written hwritten hextensions
    simp only [sourceTable, List.forall_mem_cons] at hwritten
    obtain ⟨wschema, wprotocol, wid, wname, wbounds, wcapabilities, wroots, wcollections, _⟩ := hwritten
    simp only [sourceBody, kschema.again _ wschema, kprotocol.again _ wprotocol, kid.again _ wid, kname.again _ wname,
      kbounds.again _ wbounds, kcapabilities.again _ wcapabilities, kroots.again _ wroots,
      kcollections.again _ wcollections, hoverlap, hnested, hextensions, bind, Except.bind]
    rfl

/-! ## The artifact manifest -/

theorem readsBack_payload (kind : ArtifactKind) : ReadsBack (payload kind) fun x => jsonObject (payloadTable x) := by
  refine readsBack_object shape_payload ?_
  intro depth fields payload hfits hfound h
  obtain ⟨root, hroot, h1⟩ := Result.of_bind_ok h
  obtain ⟨named, hnamed, h2⟩ := Result.of_bind_ok h1
  obtain ⟨format, hformat, h3⟩ := Result.of_bind_ok h2
  obtain ⟨supported, hsupported, h4⟩ := Result.of_bind_ok h3
  obtain rfl := Except.ok.inj h4
  have kroot := kept_required (readsBack_text textOf_relativePath _ _ _) hfits (hfound _ (by decide)) hroot
  have kformat := kept_required (readsBack_string _ _ _) hfits (hfound _ (by decide)) hformat
  refine ⟨?_, ?_⟩
  · simp only [payloadTable, List.forall_mem_cons]
    exact ⟨kroot.fits, kformat.fits, by simp⟩
  · intro written hwritten _
    simp only [payloadTable, List.forall_mem_cons] at hwritten
    obtain ⟨wroot, wformat, _⟩ := hwritten
    simp only [payloadBody, kroot.again _ wroot, kformat.again _ wformat, hnamed, hsupported, bind, Except.bind]
    rfl

theorem readsBack_setup (compatibility : CompatibilitySpec) :
    ReadsBack (setup compatibility) fun x => jsonObject (setupTable x) := by
  refine readsBack_object shape_setup ?_
  intro depth fields setup hfits hfound h
  obtain ⟨recipe, hrecipe, h1⟩ := Result.of_bind_ok h
  obtain ⟨below, hbelow, h2⟩ := Result.of_bind_ok h1
  obtain ⟨platforms, hplatforms, h3⟩ := Result.of_bind_ok h2
  obtain ⟨subset, hsubset, h4⟩ := Result.of_bind_ok h3
  obtain rfl := Except.ok.inj h4
  have krecipe := kept_required (readsBack_text textOf_relativePath _ _ _) hfits (hfound _ (by decide)) hrecipe
  have kplatforms := kept_required (readsBack_anyNames _ _ _ _) hfits (hfound _ (by decide)) hplatforms
  refine ⟨?_, ?_⟩
  · simp only [setupTable, List.forall_mem_cons]
    exact ⟨krecipe.fits, kplatforms.fits, by simp⟩
  · intro written hwritten _
    simp only [setupTable, List.forall_mem_cons] at hwritten
    obtain ⟨wrecipe, wplatforms, _⟩ := hwritten
    simp only [setupBody, krecipe.again _ wrecipe, kplatforms.again _ wplatforms, hbelow, hsubset, bind, Except.bind]
    rfl

theorem readsBack_artifact : ReadsBack artifactManifestOf artifactManifestToJson := by
  refine readsBack_document shape_artifact ?_
  intro depth fields manifest hfits hfound _ h
  obtain ⟨schemaVersion, hschema, h1⟩ := Result.of_bind_ok h
  obtain ⟨kind, hkind, h2⟩ := Result.of_bind_ok h1
  obtain ⟨name, hname, h3⟩ := Result.of_bind_ok h2
  obtain ⟨version, hversion, h4⟩ := Result.of_bind_ok h3
  obtain ⟨summary, hsummary, h5⟩ := Result.of_bind_ok h4
  obtain ⟨payload, hpayload, h6⟩ := Result.of_bind_ok h5
  obtain ⟨compatibility, hcompatibility, h7⟩ := Result.of_bind_ok h6
  obtain ⟨install, hinstall, h8⟩ := Result.of_bind_ok h7
  obtain ⟨compatible, hcompatible, h9⟩ := Result.of_bind_ok h8
  obtain ⟨bounds, hbounds, h10⟩ := Result.of_bind_ok h9
  obtain ⟨requires, hrequires, h11⟩ := Result.of_bind_ok h10
  obtain ⟨setup, hsetup, h12⟩ := Result.of_bind_ok h11
  obtain ⟨authors, hauthors, h13⟩ := Result.of_bind_ok h12
  obtain ⟨license, hlicense, h14⟩ := Result.of_bind_ok h13
  obtain ⟨homepage, hhomepage, h15⟩ := Result.of_bind_ok h14
  obtain rfl := Except.ok.inj h15
  have kschema := kept_required (readsBack_schemaVersion _) hfits (hfound _ (by decide)) hschema
  have kkind := kept_required (readsBack_text textOf_artifactKind _ _ _) hfits (hfound _ (by decide)) hkind
  have kname := kept_required (readsBack_text (textOf_slug _ _) _ _ _) hfits (hfound _ (by decide)) hname
  have kversion := kept_required (readsBack_text textOf_semver _ _ _) hfits (hfound _ (by decide)) hversion
  have ksummary := kept_required (readsBack_string _ _ _) hfits (hfound _ (by decide)) hsummary
  have kpayload := kept_required (readsBack_payload kind) hfits (hfound _ (by decide)) hpayload
  have kcompatibility := kept_required readsBack_compatibility hfits (hfound _ (by decide)) hcompatibility
  have kinstall := kept_required readsBack_install hfits (hfound _ (by decide)) hinstall
  have kbounds := kept_defaulted (readsBack_bounds _ _) hfits hbounds (content_optionalBounds bounds)
  have krequires := kept_defaulted (readsBack_requirements _) hfits hrequires (content_optionalArray _ requires)
  have ksetup := kept_optional (readsBack_setup compatibility) hfits hsetup
  have kauthors := kept_defaulted (readsBack_strings _ _ _) hfits hauthors (content_optionalArray .str authors)
  have klicense := kept_optional (readsBack_string _ _ _) hfits hlicense
  have khomepage := kept_optional (readsBack_text textOf_homepage _ _ _) hfits hhomepage
  refine ⟨rfl, ?_, ?_⟩
  · simp only [artifactTable, List.forall_mem_cons]
    exact ⟨kschema.fits, kkind.fits, kname.fits, kversion.fits, ksummary.fits, kpayload.fits, kcompatibility.fits,
      kinstall.fits, ksetup.fits, kauthors.fits, klicense.fits, khomepage.fits, kbounds.fits, krequires.fits, by simp⟩
  · intro written hwritten hextensions
    simp only [artifactTable, List.forall_mem_cons] at hwritten
    obtain ⟨wschema, wkind, wname, wversion, wsummary, wpayload, wcompatibility, winstall, wsetup, wauthors, wlicense,
      whomepage, wbounds, wrequires, _⟩ := hwritten
    simp only [artifactBody, kschema.again _ wschema, kkind.again _ wkind, kname.again _ wname,
      kversion.again _ wversion, ksummary.again _ wsummary, kpayload.again _ wpayload,
      kcompatibility.again _ wcompatibility, kinstall.again _ winstall, hcompatible, kbounds.again _ wbounds,
      krequires.again _ wrequires, ksetup.again _ wsetup, kauthors.again _ wauthors, klicense.again _ wlicense,
      khomepage.again _ whomepage, hextensions, bind, Except.bind]
    rfl

/-! ## Provenance -/

theorem readsBack_origin : ReadsBack origin fun x => jsonObject (originTable x) := by
  refine readsBack_object shape_origin ?_
  intro depth fields origin hfits hfound h
  obtain ⟨kind, hkind, h1⟩ := Result.of_bind_ok h
  obtain ⟨url, hurl, h2⟩ := Result.of_bind_ok h1
  obtain ⟨commit, hcommit, h3⟩ := Result.of_bind_ok h2
  obtain ⟨rawPath, hraw, h4⟩ := Result.of_bind_ok h3
  obtain ⟨pinned, hpinned, h5⟩ := Result.of_bind_ok h4
  obtain ⟨path, hpath, h6⟩ := Result.of_bind_ok h5
  obtain ⟨digest, hdigest, h7⟩ := Result.of_bind_ok h6
  obtain rfl := Except.ok.inj h7
  have hgit : kind = "git" := by
    have hpassed := refuse_eq_ok.mp hpinned
    simp only [Bool.or_eq_false_iff, bne_eq_false_iff_eq] at hpassed
    exact hpassed.1.1
  subst hgit
  have htext : path.str = rawPath := textOf_relativePath.insteadOf _ _ _ _ hpath
  have kkind := kept_required (readsBack_string _ _ _) hfits (hfound _ (by decide)) hkind
  have kurl := kept_required (readsBack_string _ _ _) hfits (hfound _ (by decide)) hurl
  have kcommit := kept_required (readsBack_string _ _ _) hfits (hfound _ (by decide)) hcommit
  have kpath := kept_required (readsBack_string _ _ _) hfits (hfound _ (by decide)) hraw
  have kdigest := kept_required (readsBack_digest _ _ _) hfits (hfound _ (by decide)) hdigest
  refine ⟨?_, ?_⟩
  · simp only [originTable, htext, List.forall_mem_cons]
    exact ⟨kdigest.fits, kkind.fits, kpath.fits, kcommit.fits, kurl.fits, by simp⟩
  · intro written hwritten _
    simp only [originTable, htext, List.forall_mem_cons] at hwritten
    obtain ⟨wdigest, wkind, wpath, wcommit, wurl, _⟩ := hwritten
    simp only [originBody, kkind.again _ wkind, kurl.again _ wurl, kcommit.again _ wcommit, kpath.again _ wpath,
      hpinned, hpath, kdigest.again _ wdigest, bind, Except.bind]
    rfl

theorem readsBack_provenance : ReadsBack provenanceOf provenanceToJson := by
  refine readsBack_document shape_provenance ?_
  intro depth fields provenance hfits hfound _ h
  obtain ⟨schemaVersion, hschema, h1⟩ := Result.of_bind_ok h
  obtain ⟨origin, horigin, h2⟩ := Result.of_bind_ok h1
  obtain ⟨importer, himporter, h3⟩ := Result.of_bind_ok h2
  obtain ⟨warnings, hwarnings, h4⟩ := Result.of_bind_ok h3
  obtain rfl := Except.ok.inj h4
  have kschema := kept_required (readsBack_schemaVersion _) hfits (hfound _ (by decide)) hschema
  have korigin := kept_required readsBack_origin hfits (hfound _ (by decide)) horigin
  have kimporter := kept_required readsBack_importer hfits (hfound _ (by decide)) himporter
  have kwarnings := kept_required (readsBack_strings _ _ _) hfits (hfound _ (by decide)) hwarnings
  refine ⟨by rw [List.append_nil], ?_, ?_⟩
  · simp only [provenanceTable, List.forall_mem_cons]
    exact ⟨kimporter.fits, korigin.fits, kschema.fits, kwarnings.fits, by simp⟩
  · intro written hwritten hextensions
    simp only [provenanceTable, List.forall_mem_cons] at hwritten
    obtain ⟨wimporter, worigin, wschema, wwarnings, _⟩ := hwritten
    rw [List.append_nil] at hextensions
    simp only [provenanceBody, kschema.again _ wschema, korigin.again _ worigin, kimporter.again _ wimporter,
      kwarnings.again _ wwarnings, hextensions, bind, Except.bind]
    rfl

end Library

end AgentArtifacts.Native
