import AgentArtifacts.Protocol.NativeDocuments
import AgentArtifacts.Protocol.RegistrySchema

/-!
# Registry documents are read back

Every value that a parser of a registry document finds is written to a document that
the parser reads as the same value.
-/

namespace AgentArtifacts.RegistrySchema

open Manifest (Fields jsonObject requiredField optionalField slashJoin_splitChar)
open Native (textOf_relativePath readsBack_digest)
open Registry (Capability ReviewRecord sortedBy sortedSet perm_sortedBy)
open Schema

/-! ## Fields -/

theorem shape_service : Shape ["kind"] ["repository"] serviceTable where
  names service := by simp [serviceTable]
  nodup service := by simp [serviceTable]
  found := by simp [serviceTable]
  short := by decide

theorem shape_review : Shape ["status", "policy"] [] reviewTable where
  names review := by simp [reviewTable]
  nodup review := by simp [reviewTable]
  found := by simp [reviewTable]
  short := by decide

theorem shape_registry : Shape registryRequired [] registryTable where
  names manifest := by simp [registryTable, registryRequired]
  nodup manifest := by simp [registryTable]
  found := by simp [registryTable, registryRequired]
  short := by decide

theorem shape_reference : Shape sourceFields [] referenceTable where
  names source := by simp [referenceTable, sourceFields]
  nodup source := by simp [referenceTable]
  found := by simp [referenceTable, sourceFields]
  short := by decide

theorem shape_entry : Shape entryRequired [] entryTable where
  names entry := by simp [entryTable, entryRequired]
  nodup entry := by simp [entryTable]
  found := by simp [entryTable, entryRequired]
  short := by decide

theorem shape_locked : Shape lockedRequired lockedOptional lockedTable where
  names locked := by simp [lockedTable, lockedRequired, lockedOptional]
  nodup locked := by simp [lockedTable]
  found := by simp [lockedTable, lockedRequired]
  short := by decide

theorem shape_lock : Shape lockRequired [] lockTable where
  names lock := by simp [lockTable, lockRequired]
  nodup lock := by simp [lockTable]
  found := by simp [lockTable, lockRequired]
  short := by decide

/-! ## Services and reviews -/

theorem readsBack_repository (code : DiagnosticCode) : ReadsBack (serviceRepository code) .str :=
  (readsBack_string code "service repository" true).checked _

theorem readsBack_service (code : DiagnosticCode) (name : String) :
    ReadsBack (service code name) fun x => jsonObject (serviceTable x) := by
  refine ReadsBack.guarded (readsBack_object shape_service ?_) _
  intro depth fields service hfits hfound h
  obtain ⟨kind, hkind, h1⟩ := Result.of_bind_ok h
  obtain ⟨named, hnamed, h2⟩ := Result.of_bind_ok h1
  obtain ⟨repository, hrepository, h3⟩ := Result.of_bind_ok h2
  obtain ⟨located, hlocated, h4⟩ := Result.of_bind_ok h3
  obtain rfl := Except.ok.inj h4
  have kkind := kept_required (readsBack_string _ _ _) hfits (hfound _ (by decide)) hkind
  have krepository := kept_optional (readsBack_repository code) hfits hrepository
  refine ⟨?_, ?_⟩
  · simp only [serviceTable, List.forall_mem_cons]
    exact ⟨kkind.fits, krepository.fits, by simp⟩
  · intro written hwritten _
    simp only [serviceTable, List.forall_mem_cons] at hwritten
    obtain ⟨wkind, wrepository, _⟩ := hwritten
    simp only [serviceBody, kkind.again _ wkind, hnamed, krepository.again _ wrepository, hlocated, bind, Except.bind]
    rfl

theorem service_name {code : DiagnosticCode} {name : String} {value : Json} {found : ServiceAdvertisement}
    (h : service code name value = .ok found) : found.name = name := by
  obtain ⟨_, _, h⟩ := Result.of_bind_ok h
  obtain ⟨_, _, h⟩ := Result.of_bind_ok h
  obtain ⟨_, _, h⟩ := Result.of_bind_ok h
  obtain ⟨_, _, h⟩ := Result.of_bind_ok h
  obtain ⟨_, _, h⟩ := Result.of_bind_ok h
  obtain ⟨_, _, h⟩ := Result.of_bind_ok h
  obtain ⟨_, _, h⟩ := Result.of_bind_ok h
  rw [← Except.ok.inj h]

theorem readsBack_services (code : DiagnosticCode) : ReadsBack (services code) servicesToJson :=
  readsBack_members (fun _ _ _ => service_name) (readsBack_service code) code "services"

theorem readsBack_review (code : DiagnosticCode) : ReadsBack (review code) reviewToJson := by
  refine readsBack_object shape_review ?_
  intro depth fields review hfits hfound h
  obtain ⟨status, hstatus, h1⟩ := Result.of_bind_ok h
  obtain ⟨policy, hpolicy, h2⟩ := Result.of_bind_ok h1
  obtain ⟨valid, hvalid, h3⟩ := Result.of_bind_ok h2
  obtain rfl := Except.ok.inj h3
  have kstatus := kept_required (readsBack_string _ _ _) hfits (hfound _ (by decide)) hstatus
  have kpolicy := kept_required (readsBack_string _ _ _) hfits (hfound _ (by decide)) hpolicy
  refine ⟨?_, ?_⟩
  · simp only [reviewTable, List.forall_mem_cons]
    exact ⟨kstatus.fits, kpolicy.fits, by simp⟩
  · intro written hwritten _
    simp only [reviewTable, List.forall_mem_cons] at hwritten
    obtain ⟨wstatus, wpolicy, _⟩ := hwritten
    simp only [reviewBody, kstatus.again _ wstatus, kpolicy.again _ wpolicy, hvalid, bind, Except.bind]
    rfl

/-! ## Identities -/

theorem identityKey_str {raw : String} {code : DiagnosticCode} {identity : ArtifactIdentity}
    (h : identityKey raw code = .ok identity) : identity.str = raw := by
  unfold identityKey at h
  split at h
  · rename_i kind name hparts
    obtain ⟨rfl, rfl⟩ := identityOf_eq_ok.mp h
    rw [← slashJoin_splitChar raw, hparts]
    simp [slashJoin, ArtifactIdentity.str, String.append_assoc]
  · cases h

/-- Capabilities that were read from a sorted set of names have these names in this order. -/
theorem names_of_capabilities {names : List String} {capabilities : List Capability} (hnodup : names.Nodup)
    (hsorted : names.Pairwise (· ≤ ·)) (h : names.mapM parseCapability = .ok capabilities) :
    (sortedBy Capability.value capabilities.dedup).map Capability.value = names := by
  have htexts := map_text_of_mapM textOf_capability h
  have hdedup : capabilities.dedup = capabilities := (List.Nodup.of_map Capability.value (htexts ▸ hnodup)).dedup
  have hself : sortedBy Capability.value capabilities = capabilities := by
    refine sortedBy_eq_self (List.pairwise_map.mp ?_)
    rw [htexts]
    exact hsorted
  rw [hdedup, hself, htexts]

/-! ## The registry manifest -/

theorem readsBack_registry : ReadsBack registryManifestOf registryManifestToJson := by
  refine readsBack_document shape_registry ?_
  intro depth fields manifest hfits hfound _ h
  obtain ⟨schemaVersion, hschema, h1⟩ := Result.of_bind_ok h
  obtain ⟨protocolVersion, hprotocol, h2⟩ := Result.of_bind_ok h1
  obtain ⟨rawId, hrawId, h3⟩ := Result.of_bind_ok h2
  obtain ⟨displayName, hname, h4⟩ := Result.of_bind_ok h3
  obtain ⟨bounds, hbounds, h5⟩ := Result.of_bind_ok h4
  obtain ⟨names, hnames, h6⟩ := Result.of_bind_ok h5
  obtain ⟨channel, hchannel, h7⟩ := Result.of_bind_ok h6
  obtain ⟨services, hservices, h8⟩ := Result.of_bind_ok h7
  obtain ⟨supported, hsupported, h9⟩ := Result.of_bind_ok h8
  obtain ⟨registryId, hid, h10⟩ := Result.of_bind_ok h9
  obtain ⟨safe, hsafe, h11⟩ := Result.of_bind_ok h10
  obtain ⟨capabilities, hcapabilities, h12⟩ := Result.of_bind_ok h11
  obtain rfl := Except.ok.inj h12
  have tid : registryId.value = rawId := textOf_slug _ _ _ _ hid
  have tnames := names_of_capabilities (nodup_of_stringsField hnames) (pairwise_of_stringsField hnames) hcapabilities
  have kschema := kept_required (readsBack_schemaVersion _) hfits (hfound _ (by decide)) hschema
  have kprotocol := kept_required (readsBack_integer _ _) hfits (hfound _ (by decide)) hprotocol
  have kid := kept_required (readsBack_string _ _ _) hfits (hfound _ (by decide)) hrawId
  have kname := kept_required (readsBack_string _ _ _) hfits (hfound _ (by decide)) hname
  have kbounds := kept_required (readsBack_bounds _ _) hfits (hfound _ (by decide)) hbounds
  have knames := kept_required (readsBack_strings _ _ _) hfits (hfound _ (by decide)) hnames
  have kchannel := kept_required (readsBack_string _ _ _) hfits (hfound _ (by decide)) hchannel
  have kservices := kept_required (readsBack_services _) hfits (hfound _ (by decide)) hservices
  refine ⟨by rw [List.append_nil], ?_, ?_⟩
  · simp only [registryTable, tid, tnames, List.forall_mem_cons]
    exact ⟨kschema.fits, kprotocol.fits, kid.fits, kname.fits, kbounds.fits, knames.fits, kchannel.fits,
      kservices.fits, by simp⟩
  · intro written hwritten hextensions
    simp only [registryTable, tid, tnames, List.forall_mem_cons] at hwritten
    obtain ⟨wschema, wprotocol, wid, wname, wbounds, wnames, wchannel, wservices, _⟩ := hwritten
    rw [List.append_nil] at hextensions
    simp only [registryBody, kschema.again _ wschema, kprotocol.again _ wprotocol, kid.again _ wid,
      kname.again _ wname, kbounds.again _ wbounds, knames.again _ wnames, kchannel.again _ wchannel,
      kservices.again _ wservices, hsupported, hid, hsafe, hcapabilities, hextensions, bind, Except.bind]
    rfl

section Library

variable [StandardLibrary]

/-! ## Registry entries -/

theorem readsBack_reference (identity : ArtifactIdentity) :
    ReadsBack (objectOf registryEntryInvalid "source" false sourceFields [] (sourceBody identity)) fun source =>
      jsonObject (referenceTable source) := by
  refine readsBack_object shape_reference ?_
  intro depth fields source hfits hfound h
  obtain ⟨kind, hkind, h1⟩ := Result.of_bind_ok h
  obtain ⟨url, hurl, h2⟩ := Result.of_bind_ok h1
  obtain ⟨ref, href, h3⟩ := Result.of_bind_ok h2
  obtain ⟨rawPath, hraw, h4⟩ := Result.of_bind_ok h3
  obtain ⟨git, hgit, h5⟩ := Result.of_bind_ok h4
  obtain ⟨safe, hsafe, h6⟩ := Result.of_bind_ok h5
  obtain ⟨path, hpath, h7⟩ := Result.of_bind_ok h6
  obtain ⟨named, hnamed, h8⟩ := Result.of_bind_ok h7
  obtain rfl := Except.ok.inj h8
  have hkindGit : kind = "git" := by
    have hpassed := refuse_eq_ok.mp hgit
    simp only [Bool.or_eq_false_iff, bne_eq_false_iff_eq] at hpassed
    exact hpassed.1
  subst hkindGit
  have htext : path.str = rawPath := textOf_relativePath _ _ hpath
  have kkind := kept_required (readsBack_string _ _ _) hfits (hfound _ (by decide)) hkind
  have kurl := kept_required (readsBack_string _ _ _) hfits (hfound _ (by decide)) hurl
  have kref := kept_required (readsBack_string _ _ _) hfits (hfound _ (by decide)) href
  have kpath := kept_required (readsBack_string _ _ _) hfits (hfound _ (by decide)) hraw
  refine ⟨?_, ?_⟩
  · simp only [referenceTable, htext, List.forall_mem_cons]
    exact ⟨kkind.fits, kurl.fits, kref.fits, kpath.fits, by simp⟩
  · intro written hwritten _
    simp only [referenceTable, htext, List.forall_mem_cons] at hwritten
    obtain ⟨wkind, wurl, wref, wpath, _⟩ := hwritten
    simp only [sourceBody, kkind.again _ wkind, kurl.again _ wurl, kref.again _ wref, kpath.again _ wpath, hgit, hsafe,
      hpath, hnamed, bind, Except.bind]
    rfl

theorem readsBack_entry : ReadsBack registryEntryOf registryEntryToJson := by
  refine readsBack_document shape_entry ?_
  intro depth fields entry hfits hfound _ h
  obtain ⟨schemaVersion, hschema, h1⟩ := Result.of_bind_ok h
  obtain ⟨identity, hidentity, h2⟩ := Result.of_bind_ok h1
  obtain ⟨members, hmembers, h3⟩ := Result.of_bind_ok h2
  obtain ⟨review, hreview, h4⟩ := Result.of_bind_ok h3
  obtain ⟨source, hsource, h5⟩ := Result.of_bind_ok h4
  obtain rfl := Except.ok.inj h5
  obtain ⟨kind, hkind, h6⟩ := Result.of_bind_ok hidentity
  obtain ⟨name, hname, h7⟩ := Result.of_bind_ok h6
  obtain ⟨rfl, rfl⟩ := identityOf_eq_ok.mp h7
  -- The source is an object first and has the right members later.
  have hwhole : requiredField fields "source"
      (objectOf registryEntryInvalid "source" false sourceFields [] (sourceBody identity)) = .ok source := by
    unfold requiredField objectOf at *
    rw [hmembers]
    exact hsource
  have kschema := kept_required (readsBack_schemaVersion _) hfits (hfound _ (by decide)) hschema
  have kkind := kept_required (readsBack_string _ _ _) hfits (hfound _ (by decide)) hkind
  have kname := kept_required (readsBack_string _ _ _) hfits (hfound _ (by decide)) hname
  have ksource := kept_required (readsBack_reference identity) hfits (hfound _ (by decide)) hwhole
  have kreview := kept_required (readsBack_review _) hfits (hfound _ (by decide)) hreview
  refine ⟨by rw [List.append_nil], ?_, ?_⟩
  · simp only [entryTable, List.forall_mem_cons]
    exact ⟨kschema.fits, kkind.fits, kname.fits, ksource.fits, kreview.fits, by simp⟩
  · intro written hwritten hextensions
    simp only [entryTable, List.forall_mem_cons] at hwritten
    obtain ⟨wschema, wkind, wname, wsource, wreview, _⟩ := hwritten
    rw [List.append_nil] at hextensions
    obtain ⟨again, hagain, hreference⟩ := Result.of_bind_ok (ksource.again written wsource)
    have hobject : requiredField written "source" (asObject registryEntryInvalid "source") = .ok again := hagain
    have hreread : sourceReference identity again = .ok source := hreference
    simp only [entryBody, artifactIdentity, kschema.again _ wschema, kkind.again _ wkind, kname.again _ wname, h7,
      hobject, kreview.again _ wreview, hreread, hextensions, bind, Except.bind]
    rfl

/-! ## The registry lock -/

theorem readsBack_locked (identity : ArtifactIdentity) :
    ReadsBack (lockedArtifact identity) fun locked => jsonObject (lockedTable locked) := by
  refine readsBack_object shape_locked ?_
  intro depth fields locked hfits hfound h
  obtain ⟨origin, horigin, h1⟩ := Result.of_bind_ok h
  obtain ⟨requestedRef, href, h2⟩ := Result.of_bind_ok h1
  obtain ⟨commit, hcommit, h3⟩ := Result.of_bind_ok h2
  obtain ⟨rawPath, hraw, h4⟩ := Result.of_bind_ok h3
  obtain ⟨manifestDigest, hmanifest, h5⟩ := Result.of_bind_ok h4
  obtain ⟨payloadDigest, hpayload, h6⟩ := Result.of_bind_ok h5
  obtain ⟨objectDigest, hobject, h7⟩ := Result.of_bind_ok h6
  obtain ⟨rawVersion, hrawVersion, h8⟩ := Result.of_bind_ok h7
  obtain ⟨review, hreview, h9⟩ := Result.of_bind_ok h8
  obtain ⟨safe, hsafe, h10⟩ := Result.of_bind_ok h9
  obtain ⟨pinned, hpinned, h11⟩ := Result.of_bind_ok h10
  obtain ⟨path, hpath, h12⟩ := Result.of_bind_ok h11
  obtain ⟨named, hnamed, h13⟩ := Result.of_bind_ok h12
  obtain ⟨version, hversion, h14⟩ := Result.of_bind_ok h13
  obtain ⟨provenance, hprovenance, h15⟩ := Result.of_bind_ok h14
  obtain rfl := Except.ok.inj h15
  have tpath : path.str = rawPath := textOf_relativePath _ _ hpath
  have tversion : version.str = rawVersion := textOf_semver.insteadOf _ _ _ _ hversion
  have korigin := kept_required (readsBack_string _ _ _) hfits (hfound _ (by decide)) horigin
  have kref := kept_required (readsBack_string _ _ _) hfits (hfound _ (by decide)) href
  have kcommit := kept_required (readsBack_string _ _ _) hfits (hfound _ (by decide)) hcommit
  have kpath := kept_required (readsBack_string _ _ _) hfits (hfound _ (by decide)) hraw
  have kmanifest := kept_required (readsBack_digest _ _ _) hfits (hfound _ (by decide)) hmanifest
  have kpayload := kept_required (readsBack_digest _ _ _) hfits (hfound _ (by decide)) hpayload
  have kobject := kept_required (readsBack_digest _ _ _) hfits (hfound _ (by decide)) hobject
  have kversion := kept_required (readsBack_string _ _ _) hfits (hfound _ (by decide)) hrawVersion
  have kreview := kept_required (readsBack_review _) hfits (hfound _ (by decide)) hreview
  have kprovenance := kept_optional (readsBack_digest _ _ _) hfits hprovenance
  refine ⟨?_, ?_⟩
  · simp only [lockedTable, tpath, tversion, List.forall_mem_cons]
    exact ⟨korigin.fits, kref.fits, kcommit.fits, kpath.fits, kmanifest.fits, kpayload.fits, kobject.fits,
      kversion.fits, kreview.fits, kprovenance.fits, by simp⟩
  · intro written hwritten _
    simp only [lockedTable, tpath, tversion, List.forall_mem_cons] at hwritten
    obtain ⟨worigin, wref, wcommit, wpath, wmanifest, wpayload, wobject, wversion, wreview, wprovenance, _⟩ := hwritten
    simp only [lockedBody, korigin.again _ worigin, kref.again _ wref, kcommit.again _ wcommit, kpath.again _ wpath,
      kmanifest.again _ wmanifest, kpayload.again _ wpayload, kobject.again _ wobject, kversion.again _ wversion,
      kreview.again _ wreview, hsafe, hpinned, hpath, hnamed, hversion, kprovenance.again _ wprovenance, bind,
      Except.bind]
    rfl

theorem lockedEntry_str {raw : String} {value : Json} {entry : ArtifactIdentity × LockedArtifact}
    (h : lockedEntry raw value = .ok entry) : entry.1.str = raw := by
  obtain ⟨identity, hidentity, h⟩ := Result.of_bind_ok h
  obtain ⟨locked, _, h⟩ := Result.of_bind_ok h
  rw [← Except.ok.inj h]
  exact identityKey_str hidentity

theorem readsBack_lockedEntry (raw : String) :
    ReadsBack (lockedEntry raw) fun entry => jsonObject (lockedTable entry.2) := by
  intro depth value entry hfits h
  obtain ⟨identity, hidentity, h1⟩ := Result.of_bind_ok h
  obtain ⟨locked, hlocked, h2⟩ := Result.of_bind_ok h1
  obtain rfl := Except.ok.inj h2
  obtain ⟨hagain, hwritten⟩ := readsBack_locked identity hfits hlocked
  refine ⟨?_, hwritten⟩
  simp only [lockedEntry, hidentity, hagain, bind, Except.bind]
  rfl

theorem readsBack_lockedEntries : ReadsBack lockedEntries lockedEntriesToJson :=
  readsBack_members (fun _ _ _ => lockedEntry_str) readsBack_lockedEntry registryLockInvalid "entries"

theorem readsBack_lock : ReadsBack registryLockOf registryLockToJson := by
  refine readsBack_object shape_lock ?_
  intro depth fields lock hfits hfound h
  obtain ⟨schemaVersion, hschema, h1⟩ := Result.of_bind_ok h
  obtain ⟨inputsDigest, hdigest, h2⟩ := Result.of_bind_ok h1
  obtain ⟨entries, hentries, h3⟩ := Result.of_bind_ok h2
  obtain rfl := Except.ok.inj h3
  have kschema := kept_required (readsBack_schemaVersion _) hfits (hfound _ (by decide)) hschema
  have kdigest := kept_required (readsBack_digest _ _ _) hfits (hfound _ (by decide)) hdigest
  have kentries := kept_required readsBack_lockedEntries hfits (hfound _ (by decide)) hentries
  refine ⟨?_, ?_⟩
  · simp only [lockTable, List.forall_mem_cons]
    exact ⟨kschema.fits, kdigest.fits, kentries.fits, by simp⟩
  · intro written hwritten _
    simp only [lockTable, List.forall_mem_cons] at hwritten
    obtain ⟨wschema, wdigest, wentries, _⟩ := hwritten
    simp only [lockBody, kschema.again _ wschema, kdigest.again _ wdigest, kentries.again _ wentries, bind, Except.bind]
    rfl

end Library

end AgentArtifacts.RegistrySchema
