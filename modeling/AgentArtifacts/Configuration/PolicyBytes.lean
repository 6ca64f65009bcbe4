import AgentArtifacts.Configuration.PolicyRoundTrip

/-!
# Configuration and policy as bytes

The user configuration is read back from its bytes. The organization policy is read back
exactly where the document it was read from is steady. Either way its bytes identify it.
-/

namespace AgentArtifacts.Configuration

open Manifest (Fields jsonObject requiredField optionalField jsonObject_injective slug_eq_of_value)
open Registry (Capability sortedBy mem_sortedBy)
open Schema (defaultedField stringArray mem_sortedSet fits_arr fits_written Printable printable_optional printable_str
  printable_int printable_arr printable_strings fits_of_printed)

/-! ## Size -/

/-- No host outgrew the bound on texts. -/
def ShortHosts (policy : OrganizationPolicy) : Prop :=
  (∀ source ∈ policy.companyReviewedSources, source.gitHost.length ≤ maxStringLength) ∧
    ∀ hosts, policy.allowedGitHosts = some hosts → ∀ host ∈ hosts, host.length ≤ maxStringLength

theorem fits_optionalStrings {depth : Nat} {found : Option (List String)} (hdepth : depth + 1 ≤ maxDepth)
    (h : ∀ texts, found = some texts → ∀ text ∈ texts, text.length ≤ maxStringLength) :
    ∀ value, found.map stringArray = some value → Fits depth value := by
  intro value hvalue
  obtain ⟨texts, htexts, rfl⟩ := Option.map_eq_some_iff.mp hvalue
  exact (fits_strings hdepth).mpr (h texts htexts)

theorem SoundPolicy.fits {policy : OrganizationPolicy} (h : SoundPolicy policy) (hhosts : ShortHosts policy) :
    Fits 0 (organizationPolicyJson policy) := by
  have hcompany : Fits 1 (.arr (policy.companyReviewedSources.map companySourceJson)) := by
    refine fits_arr.mpr ⟨by decide, fun item hitem => ?_⟩
    obtain ⟨source, hmem, rfl⟩ := List.mem_map.mp hitem
    exact (h.company source hmem).fits_iff.mpr (hhosts.1 source hmem)
  have hboolean (found : Option Bool) : ∀ value, found.map Json.bool = some value → Fits 1 value := by
    intro value hvalue
    obtain ⟨truth, _, rfl⟩ := Option.map_eq_some_iff.mp hvalue
    rw [Fits]
    decide
  have htrust : ∀ trust, policy.minimumTrustForUserScope = some trust → trust.value.length ≤ maxStringLength := by
    intro trust _
    cases trust <;> decide
  have hcapabilities : ∀ value,
      (policy.allowedSetupCapabilities.map fun allowed => stringArray (allowed.map Capability.value)) = some value →
        Fits 1 value := by
    intro value hvalue
    obtain ⟨allowed, hallowed, rfl⟩ := Option.map_eq_some_iff.mp hvalue
    exact (fits_strings (by decide)).mpr (h.capabilities allowed hallowed).short
  have hversion : Fits 1 (.int 1) := by
    rw [Fits, JsonText.InRange]
    decide
  refine fits_written shape_organizationPolicy (by decide) ?_
  simp only [organizationPolicyTable, List.forall_mem_cons, Option.some.injEq, forall_eq']
  exact ⟨hcompany, (fits_strings (by decide)).mpr h.recommended.short, (fits_strings (by decide)).mpr h.required.short,
    hversion, fits_optionalStrings (by decide) hhosts.2,
    fits_optionalStrings (by decide) fun paths hpaths path hmem => ((h.prefixes paths hpaths).2 path hmem).2.2,
    hcapabilities, hboolean _, fits_optionalText (by decide) htrust, hboolean _, fits_policyReporting h.destination,
    by simp⟩

theorem SoundPolicy.fits_iff {policy : OrganizationPolicy} (h : SoundPolicy policy) :
    Fits 0 (organizationPolicyJson policy) ↔ ShortHosts policy := by
  constructor
  · intro hfits
    have hmember (name : String) {value : Json} (hmem : (name, some value) ∈ organizationPolicyTable policy) :
        Fits 1 value :=
      (((Manifest.fits_jsonObject_iff (shape_organizationPolicy.nodup policy)).mp hfits).2 name value hmem).2
    refine ⟨fun source hmem => ?_, fun hosts hhosts => ?_⟩
    · have hcompany := hmember "company_reviewed_sources" (by simp [organizationPolicyTable]; rfl)
      exact (h.company source hmem).fits_iff.mp ((fits_arr.mp hcompany).2 _ (List.mem_map.mpr ⟨source, hmem, rfl⟩))
    · have hallowed : Fits 1 (stringArray hosts) :=
        hmember "allowed_git_hosts" (by simp [organizationPolicyTable, hhosts])
      exact (fits_strings (by decide)).mp hallowed
  · exact h.fits

/-! ## Printing -/

theorem printable_ofOption {α : Type} {write : α → Json} (h : ∀ x, Printable (write x)) (found : Option α) :
    ∀ value, found.map write = some value → Printable value := by
  intro value hvalue
  obtain ⟨x, _, rfl⟩ := Option.map_eq_some_iff.mp hvalue
  exact h x

theorem printable_bool (truth : Bool) : Printable (.bool truth) := by
  have hfits : Fits 0 (.bool truth) := by
    rw [Fits]
    decide
  exact Printable.of_fits hfits

theorem printable_company (source : CompanyReviewedSource) : Printable (companySourceJson source) := by
  refine printable_optional (shape_companySource.nodup source) ?_
  simp only [companySourceTable, List.forall_mem_cons, Option.some.injEq, forall_eq']
  exact ⟨printable_str _, printable_str _, printable_str _, by simp⟩

theorem printable_policyReporting (settings : ReportingPolicy) : Printable (jsonObject (policyReportingTable settings)) := by
  refine printable_optional (shape_policyReporting.nodup settings) ?_
  simp only [policyReportingTable, List.forall_mem_cons, Option.some.injEq, forall_eq']
  exact ⟨printable_bool _, printable_ofOption (fun _ => printable_str _) _, printable_ofOption (fun _ => printable_str _) _,
    by simp⟩

theorem printable_organizationPolicy (policy : OrganizationPolicy) : Printable (organizationPolicyJson policy) := by
  have hcompany : Printable (.arr (policy.companyReviewedSources.map companySourceJson)) := by
    refine printable_arr fun item hitem => ?_
    obtain ⟨source, _, rfl⟩ := List.mem_map.mp hitem
    exact printable_company source
  have hversion : Printable (.int 1) := printable_int (by rw [JsonText.InRange]; decide)
  refine printable_optional (shape_organizationPolicy.nodup policy) ?_
  simp only [organizationPolicyTable, List.forall_mem_cons, Option.some.injEq, forall_eq']
  exact ⟨hcompany, printable_strings _, printable_strings _, hversion, printable_ofOption printable_strings _,
    printable_ofOption printable_strings _, printable_ofOption (fun _ => printable_strings _) _,
    printable_ofOption printable_bool _, printable_ofOption (fun _ => printable_str _) _,
    printable_ofOption printable_bool _, printable_policyReporting _, by simp⟩

/-! ## The policy identified -/

theorem trustValue_injective {a b : TrustClass} (h : a.value = b.value) : a = b := by
  cases a <;> cases b <;> first | rfl | exact absurd h (by decide)

theorem reportingValue_injective {a b : ReportingMode} (h : a.value = b.value) : a = b := by
  cases a <;> cases b <;> first | rfl | exact absurd h (by decide)

theorem stringArray_injective {a b : List String} (h : stringArray a = stringArray b) : a = b :=
  List.map_injective_iff.mpr (fun _ _ heq => Json.str.inj heq) (Json.arr.inj h)

theorem names_injective {a b : List Slug} (h : stringArray (a.map Slug.value) = stringArray (b.map Slug.value)) :
    a = b :=
  List.map_injective_iff.mpr (fun _ _ heq => slug_eq_of_value heq) (stringArray_injective h)

theorem capabilities_injective {a b : List Capability}
    (h : stringArray (a.map Capability.value) = stringArray (b.map Capability.value)) : a = b :=
  List.map_injective_iff.mpr (fun x y heq => by
    cases x
    cases y
    exact congrArg Capability.mk heq) (stringArray_injective h)

theorem company_eq_of_written {a b : CompanyReviewedSource} (h : companySourceJson a = companySourceJson b) : a = b := by
  have htable : companySourceTable a = companySourceTable b :=
    jsonObject_injective rfl (shape_companySource.nodup a) h
  cases a
  cases b
  simp only [companySourceTable, List.cons.injEq, Prod.mk.injEq, Option.some.injEq, Json.str.injEq, true_and,
    and_true] at htable
  obtain ⟨rfl, rfl, hid⟩ := htable
  rw [slug_eq_of_value hid]

theorem reporting_eq_of_written {a b : ReportingPolicy}
    (h : jsonObject (policyReportingTable a) = jsonObject (policyReportingTable b)) : a = b := by
  have htable : policyReportingTable a = policyReportingTable b :=
    jsonObject_injective rfl (shape_policyReporting.nodup a) h
  cases a
  cases b
  simp only [policyReportingTable, List.cons.injEq, Prod.mk.injEq, Option.some.injEq, Json.bool.injEq, true_and,
    and_true] at htable
  obtain ⟨rfl, hmode, hdestination⟩ := htable
  rw [Option.map_injective (fun _ _ heq => reportingValue_injective (Json.str.inj heq)) hmode,
    Option.map_injective (fun _ _ heq => slug_eq_of_value (Json.str.inj heq)) hdestination]

theorem organizationPolicyJson_injective {a b : OrganizationPolicy} (hversion : a.schemaVersion = b.schemaVersion)
    (h : organizationPolicyJson a = organizationPolicyJson b) : a = b := by
  have htable : organizationPolicyTable a = organizationPolicyTable b :=
    jsonObject_injective rfl (shape_organizationPolicy.nodup a) h
  cases a
  cases b
  simp only [organizationPolicyTable, List.cons.injEq, Prod.mk.injEq, Option.some.injEq, Json.arr.injEq, true_and,
    and_true] at htable
  obtain ⟨hcompany, hrecommended, hrequired, hhosts, hprefixes, hcapabilities, hdirect, htrust, hcustom, hreporting⟩ :=
    htable
  have hhosts := Option.map_injective (fun _ _ heq => stringArray_injective heq) hhosts
  have hprefixes := Option.map_injective (fun _ _ heq => stringArray_injective heq) hprefixes
  have hcapabilities := Option.map_injective (fun _ _ heq => capabilities_injective heq) hcapabilities
  have hdirect := Option.map_injective (fun _ _ heq => Json.bool.inj heq) hdirect
  have htrust := Option.map_injective (fun _ _ heq => trustValue_injective (Json.str.inj heq)) htrust
  have hcustom := Option.map_injective (fun _ _ heq => Json.bool.inj heq) hcustom
  obtain rfl := hversion
  rw [List.map_injective_iff.mpr (fun _ _ heq => company_eq_of_written heq) hcompany, names_injective hrecommended,
    names_injective hrequired, hhosts, hprefixes, hcapabilities, hdirect, htrust, hcustom,
    reporting_eq_of_written hreporting]

/-! ## What a document names -/

def textOf : Json → String
  | .str text => text
  | _ => ""

def textMember (name : String) : Json → String
  | .obj fields => ((Dict.get? fields name).map textOf).getD ""
  | _ => ""

def arrayMember (name : String) : Json → List Json
  | .obj fields =>
      match Dict.get? fields name with
      | some (.arr items) => items
      | _ => []
  | _ => []

/-- The repositories of the designated registries, as the document has them. -/
def companyRepositories (value : Json) : List String :=
  (arrayMember "company_reviewed_sources" value).map (textMember "repository")

/-- The allowed hosts and those of the designated registries, as the document has them. -/
def namedHosts (value : Json) : List String :=
  (arrayMember "allowed_git_hosts" value).map textOf ++
    (arrayMember "company_reviewed_sources" value).map (textMember "git_host")

section Steady

variable [TextRuntime]

/-- No repository has its suffix twice, and no host is too long once it is folded. -/
def Steady (value : Json) : Prop :=
  (∀ repository ∈ companyRepositories value, endsWith ".git.git" repository = false) ∧
    ∀ host ∈ namedHosts value, (TextRuntime.casefold host).length ≤ maxStringLength

/-- What holds of the designated registries that were read, said of the document. -/
theorem forall_company_iff {fields : Dict} {company : List CompanyReviewedSource} {P : CompanyReviewedSource → Prop}
    {Q : Json → Prop} (h : defaultedField fields "company_reviewed_sources" [] companySources = .ok company)
    (heach : ∀ item ∈ arrayMember "company_reviewed_sources" (.obj fields), ∀ source,
      companySource item = .ok source → (P source ↔ Q item)) :
    (∀ source ∈ company, P source) ↔ ∀ item ∈ arrayMember "company_reviewed_sources" (.obj fields), Q item := by
  unfold defaultedField at h
  split at h
  · rename_i hmissing
    rw [← Except.ok.inj h, arrayMember, hmissing]
    simp
  · rename_i value hvalue
    obtain ⟨items, found, rfl, hall, _, rfl⟩ := companySources_eq_ok h
    have hitems : arrayMember "company_reviewed_sources" (.obj fields) = items := by rw [arrayMember, hvalue]
    rw [hitems] at heach ⊢
    constructor
    · intro hread item hitem
      obtain ⟨source, hsource, hstep⟩ := exists_of_forall₂_mem (List.Forall₂.flip hall) hitem
      exact (heach item hitem source hstep).mp (hread source (mem_sortedBy.mpr hsource))
    · intro hwritten source hsource
      obtain ⟨item, hitem, hstep⟩ := exists_of_forall₂_mem hall (mem_sortedBy.mp hsource)
      exact (heach item hitem source hstep).mpr (hwritten item hitem)

theorem forall_hosts_iff {fields : Dict} {hosts : Option (List String)} {P : String → Prop}
    (h : optionalStrings fields "allowed_git_hosts" TextRuntime.casefold isGitHost = .ok hosts) :
    (∀ found, hosts = some found → ∀ host ∈ found, P host) ↔
      ∀ host ∈ (arrayMember "allowed_git_hosts" (.obj fields)).map textOf, P (TextRuntime.casefold host) := by
  cases hosts with
  | none =>
      have hmissing : Dict.get? fields "allowed_git_hosts" = none := by
        unfold optionalStrings optionalField at h
        split at h
        · assumption
        · obtain ⟨found, _, hfound⟩ := Result.of_map_ok h
          cases hfound
      simp [arrayMember, hmissing]
  | some found =>
      obtain ⟨raws, hget, rfl, _⟩ := optionalStrings_eq_ok h
      have htexts : (arrayMember "allowed_git_hosts" (.obj fields)).map textOf = raws := by
        rw [arrayMember, hget, stringArray, List.map_map]
        exact List.map_id raws
      rw [htexts]
      simp only [Option.some.injEq, forall_eq', mem_sortedSet, List.mem_map, forall_exists_index, and_imp,
        forall_apply_eq_imp_iff₂]

/-- What the second reading asks of the policy, said of the document. -/
theorem steady_iff {value : Json} {policy : OrganizationPolicy} (hfits : Fits 0 value)
    (h : organizationPolicyOf value = .ok policy) :
    (∀ source ∈ policy.companyReviewedSources, endsWith ".git" source.repository = false) ∧ ShortHosts policy ↔
      Steady value := by
  obtain ⟨fields, rfl, hbody⟩ := documentOf_eq_ok h
  obtain ⟨version, _, h1⟩ := Result.of_bind_ok hbody
  obtain ⟨recommended, _, h2⟩ := Result.of_bind_ok h1
  obtain ⟨required, _, h3⟩ := Result.of_bind_ok h2
  obtain ⟨hosts, hhosts, h4⟩ := Result.of_bind_ok h3
  obtain ⟨prefixes, _, h5⟩ := Result.of_bind_ok h4
  obtain ⟨company, hcompany, h6⟩ := Result.of_bind_ok h5
  obtain ⟨allowDirect, _, h7⟩ := Result.of_bind_ok h6
  obtain ⟨allowCustom, _, h8⟩ := Result.of_bind_ok h7
  obtain ⟨trust, _, h9⟩ := Result.of_bind_ok h8
  obtain ⟨capabilities, _, h10⟩ := Result.of_bind_ok h9
  obtain ⟨settings, _, h11⟩ := Result.of_bind_ok h10
  obtain ⟨disjoint, _, h12⟩ := Result.of_bind_ok h11
  obtain rfl := Except.ok.inj h12
  have hitemFits : ∀ item ∈ arrayMember "company_reviewed_sources" (.obj fields), ∃ depth, Fits depth item := by
    intro item hitem
    unfold arrayMember at hitem
    dsimp only at hitem
    split at hitem
    · rename_i items hget
      exact ⟨_, (fits_arr.mp (Manifest.fits_of_get? hfits hget).2).2 item hitem⟩
    · cases hitem
  have hrepositories := forall_company_iff (P := fun source => endsWith ".git" source.repository = false)
    (Q := fun item => endsWith ".git.git" (textMember "repository" item) = false) hcompany ?_
  have hlengths := forall_company_iff (P := fun source => source.gitHost.length ≤ maxStringLength)
    (Q := fun item => (TextRuntime.casefold (textMember "git_host" item)).length ≤ maxStringLength) hcompany ?_
  have hallowed := forall_hosts_iff (P := fun host => host.length ≤ maxStringLength) hhosts
  · rw [ShortHosts, hrepositories, hlengths, hallowed, Steady, companyRepositories, namedHosts, List.forall_mem_append]
    simp only [List.forall_mem_map]
    tauto
  · intro item hitem source hsource
    obtain ⟨depth, hdepth⟩ := hitemFits item hitem
    obtain ⟨members, rawHost, rawRepository, rfl, hhost, _, _, _, _, _, hfolded, _⟩ := companySource_eq_ok hdepth hsource
    rw [hfolded, textMember, hhost]
    rfl
  · intro item hitem source hsource
    obtain ⟨depth, hdepth⟩ := hitemFits item hitem
    obtain ⟨members, rawHost, rawRepository, rfl, _, hrepository, _, _, _, _, _, hstripped⟩ :=
      companySource_eq_ok hdepth hsource
    rw [hstripped, endsWith_removeSuffix, textMember, hrepository]
    rfl

end Steady

/-! ## Reading bytes twice -/

section Bytes

variable [StandardLibrary] [JsonRuntime] [TextRuntime]

theorem parseUserConfiguration_again {data : Bytes} {configuration : UserConfiguration}
    (h : parseUserConfiguration data = .ok configuration) :
    parseUserConfiguration (userConfigurationBytes configuration) = .ok configuration := by
  obtain ⟨value, hvalue, hread⟩ := Result.of_bind_ok h
  obtain ⟨hagain, hfits⟩ := userConfiguration_again (fits_of_parseJson hvalue) hread
  rw [parseUserConfiguration, userConfigurationBytes, parseJson_canonicalJsonBytes hfits]
  exact hagain

theorem parseOrganizationPolicy_again_iff (hfolds : FoldsHosts) {policy : OrganizationPolicy} (h : SoundPolicy policy) :
    parseOrganizationPolicy (organizationPolicyBytes policy) = .ok policy ↔
      (∀ source ∈ policy.companyReviewedSources, endsWith ".git" source.repository = false) ∧ ShortHosts policy := by
  rw [parseOrganizationPolicy, organizationPolicyBytes, ← h.read_iff hfolds, ← h.fits_iff]
  constructor
  · intro hparsed
    obtain ⟨found, hfound, hread⟩ := Result.of_bind_ok hparsed
    obtain ⟨rfl, hfits⟩ := fits_of_printed (printable_organizationPolicy policy) hfound
    exact ⟨hread, hfits⟩
  · rintro ⟨hread, hfits⟩
    rw [parseJson_canonicalJsonBytes hfits]
    exact hread

theorem soundPolicy_of_parse {data : Bytes} {policy : OrganizationPolicy} (h : parseOrganizationPolicy data = .ok policy) :
    SoundPolicy policy := by
  obtain ⟨value, hvalue, hread⟩ := Result.of_bind_ok h
  exact soundPolicy_of_read (fits_of_parseJson hvalue) hread

/-- A user configuration is read back from its bytes. A policy is read back from its bytes
exactly where its document is steady, and its bytes tell it from every other policy. -/
theorem parse_configurationBytes (hfolds : FoldsHosts) :
    (∀ data configuration, parseUserConfiguration data = .ok configuration →
        parseUserConfiguration (userConfigurationBytes configuration) = .ok configuration) ∧
      (∀ data value policy, parseJson data = .ok value → parseOrganizationPolicy data = .ok policy →
        (parseOrganizationPolicy (organizationPolicyBytes policy) = .ok policy ↔ Steady value)) ∧
        ∀ data other policy policy', parseOrganizationPolicy data = .ok policy →
          parseOrganizationPolicy other = .ok policy' → organizationPolicyBytes policy = organizationPolicyBytes policy' →
            policy = policy' := by
  refine ⟨fun data configuration h => parseUserConfiguration_again h, ?_, ?_⟩
  · intro data value policy hvalue h
    obtain ⟨found, hfound, hread⟩ := Result.of_bind_ok h
    obtain rfl := Except.ok.inj (hvalue.symm.trans hfound)
    have hfits := fits_of_parseJson hvalue
    rw [parseOrganizationPolicy_again_iff hfolds (soundPolicy_of_read hfits hread)]
    exact steady_iff hfits hread
  · intro data other policy policy' h h' hbytes
    have hversion : policy.schemaVersion = policy'.schemaVersion := by
      rw [(soundPolicy_of_parse h).version, (soundPolicy_of_parse h').version]
    exact organizationPolicyJson_injective hversion (canonicalJsonBytes_injective
      (printable_organizationPolicy policy).frozen (printable_organizationPolicy policy').frozen hbytes)

end Bytes

/-! ## A repository with its suffix twice -/

section Sample

local instance : StandardLibrary := pythonLibrary id fun _ => true

local instance : JsonRuntime := pythonLibrary_jsonRuntime id fun _ => true

/-- Folding where there are letters of ASCII only, and no URLs. -/
local instance : TextRuntime where
  casefold text := String.ofList (text.toList.map Char.toLower)
  urlsplit _ := none

theorem toLower_of_isHostLetter {c : Char} (h : isHostLetter c = true) : c.toLower = c := by
  have hcapital : ¬ (c.val ≥ 'A'.val ∧ c.val ≤ 'Z'.val) := by
    simp only [isHostLetter, isLowerAlphanumeric, isLowerLetter, Bool.or_eq_true, Bool.and_eq_true, decide_eq_true_eq,
      beq_iff_eq] at h
    rcases h with ((⟨hleast, _⟩ | ⟨_, hmost⟩) | rfl) | rfl
    · exact fun hc => absurd (Nat.le_trans (show 97 ≤ c.toNat from hleast) (show c.toNat ≤ 90 from hc.2)) (by decide)
    · exact fun hc => absurd (Nat.le_trans (show 65 ≤ c.toNat from hc.1) (show c.toNat ≤ 57 from hmost)) (by decide)
    · decide
    · decide
  exact dif_neg hcapital

theorem foldsHosts_sample : FoldsHosts := by
  intro text hletters
  have hmap : text.toList.map Char.toLower = text.toList :=
    (List.map_congr_left fun c hc => toLower_of_isHostLetter (List.all_eq_true.mp hletters c hc)).trans
      (List.map_id text.toList)
  exact (congrArg String.ofList hmap).trans String.ofList_toList

def companyPolicyJson (repository : String) : Json :=
  .obj [("company_reviewed_sources",
    .arr [.obj [("git_host", .str "github.com"), ("repository", .str repository), ("source_id", .str "base")]]),
    ("schema_version", .int 1)]

def companyPolicy (repository : String) (h : isRepositoryPath repository = true) : OrganizationPolicy :=
  { schemaVersion := 1,
    companyReviewedSources := [⟨⟨"base", Eq.refl true⟩, "github.com", repository, Eq.refl true, h⟩] }

def onceSuffixed : OrganizationPolicy := companyPolicy "team/base.git" (by decide)

def unsuffixed : OrganizationPolicy := companyPolicy "team/base" (by decide)

theorem parseJson_companyPolicy {repository : String} (h : repository.length ≤ maxStringLength) :
    parseJson (canonicalJsonBytes (companyPolicyJson repository)) = .ok (companyPolicyJson repository) := by
  refine parseJson_canonicalJsonBytes ?_
  have htext {text : String} (hshort : text.length ≤ maxStringLength) : Fits 3 (.str text) := by
    rw [Fits]
    exact ⟨by decide, hshort⟩
  have hsource : Fits 2 (.obj [("git_host", .str "github.com"), ("repository", .str repository),
      ("source_id", .str "base")]) := by
    refine Schema.fits_obj.mpr ⟨by decide, by simp only [List.map_cons, List.map_nil]; decide, ?_⟩
    simp only [List.forall_mem_cons]
    exact ⟨⟨by decide, htext (by decide)⟩, ⟨by decide, htext h⟩, ⟨by decide, htext (by decide)⟩, by simp⟩
  have hversion : Fits 1 (.int 1) := by
    rw [Fits, JsonText.InRange]
    decide
  refine Schema.fits_obj.mpr ⟨by decide, by simp only [List.map_cons, List.map_nil]; decide, ?_⟩
  simp only [List.forall_mem_cons]
  exact ⟨⟨by decide, fits_arr.mpr ⟨by decide, by simpa using hsource⟩⟩, ⟨by decide, hversion⟩, by simp⟩

theorem twiceSuffixed_read :
    parseOrganizationPolicy (canonicalJsonBytes (companyPolicyJson "team/base.git.git")) = .ok onceSuffixed := by
  rw [parseOrganizationPolicy, parseJson_companyPolicy (by decide)]
  rfl

/-- The first reading takes one suffix, the second takes the other: the policy that comes
back is another one. -/
theorem twiceSuffixed_lost :
    parseOrganizationPolicy (canonicalJsonBytes (companyPolicyJson "team/base.git.git")) = .ok onceSuffixed ∧
      parseOrganizationPolicy (organizationPolicyBytes onceSuffixed) = .ok unsuffixed ∧ onceSuffixed ≠ unsuffixed := by
  refine ⟨twiceSuffixed_read, ?_, by decide⟩
  have hsound := soundPolicy_of_parse twiceSuffixed_read
  have hfits : Fits 0 (organizationPolicyJson onceSuffixed) := by
    refine hsound.fits ⟨fun source hmem => ?_, fun hosts hhosts => by cases hhosts⟩
    obtain rfl := List.mem_singleton.mp hmem
    decide
  rw [parseOrganizationPolicy, organizationPolicyBytes, parseJson_canonicalJsonBytes hfits]
  exact (hsound.read foldsHosts_sample).trans rfl

theorem unsuffixed_kept : FoldsHosts ∧
    parseOrganizationPolicy (canonicalJsonBytes (companyPolicyJson "team/base")) = .ok unsuffixed ∧
      parseOrganizationPolicy (organizationPolicyBytes unsuffixed) = .ok unsuffixed := by
  have hvalue : parseJson (canonicalJsonBytes (companyPolicyJson "team/base")) = .ok (companyPolicyJson "team/base") :=
    parseJson_companyPolicy (by decide)
  have hread : parseOrganizationPolicy (canonicalJsonBytes (companyPolicyJson "team/base")) = .ok unsuffixed := by
    rw [parseOrganizationPolicy, hvalue]
    rfl
  have hsteady : Steady (companyPolicyJson "team/base") := by
    refine ⟨?_, ?_⟩
    · show ∀ repository ∈ ["team/base"], endsWith ".git.git" repository = false
      decide
    · show ∀ host ∈ ["github.com"], (TextRuntime.casefold host).length ≤ maxStringLength
      decide
  exact ⟨foldsHosts_sample, hread,
    ((parse_configurationBytes foldsHosts_sample).2.1 _ _ _ hvalue hread).mpr hsteady⟩

end Sample

end AgentArtifacts.Configuration
