import AgentArtifacts.Configuration.PolicyDocuments
import AgentArtifacts.Protocol.Printing
import Mathlib.Algebra.Order.BigOperators.Group.List

/-!
# Reading a policy twice

A policy that was read is sound. Its document is read as the policy with the designated
registries constructed once more, so whether the policy comes back is a question about
their repositories and about the sizes of folded hosts.
-/

namespace AgentArtifacts.Configuration

open Manifest (Fields present jsonObject requiredField optionalField mapM_written jsonObject_injective)
open Registry (Capability sortedBy sortedSet perm_sortedBy mem_sortedBy)
open Schema (refuse asArray defaultedField schemaVersion stringArray refuse_eq_ok asArray_eq_ok sortedBy_sortedBy
  sortedSet_sortedSet mem_sortedSet fits_arr fits_written map_eq_of_forall₂ Printable printable_optional printable_str printable_int
  printable_arr printable_strings fits_of_printed Shape)

/-! ## Designated registries again -/

section Company

variable [TextRuntime]

/-- The registry that the constructor makes of one that it made. -/
def reconstructed (source : CompanyReviewedSource) : Result CompanyReviewedSource :=
  companyReviewedSource source.sourceId.value source.gitHost source.repository

theorem mapM_companySource (found : List CompanyReviewedSource) :
    (found.map companySourceJson).mapM companySource = found.mapM reconstructed := by
  rw [List.mapM_map]
  exact congrArg found.mapM (funext companySource_written)

theorem companySources_written (hfolds : FoldsHosts) {found : List CompanyReviewedSource}
    (hsound : ∀ source ∈ found, SoundCompany source) (hnodup : found.Nodup)
    (hsorted : sortedBy CompanyReviewedSource.key found = found)
    (h : ∀ source ∈ found, endsWith ".git" source.repository = false) :
    companySources (.arr (found.map companySourceJson)) = .ok found := by
  have hread : (found.map id).mapM reconstructed = .ok found :=
    mapM_written fun source hmem => (hsound source hmem).constructed hfolds (h source hmem)
  rw [List.map_id] at hread
  have hdistinct : decide (¬ found.Nodup) = false := decide_eq_false (not_not.mpr hnodup)
  simp only [companySources, asArray, mapM_companySource, hread, hdistinct, refuse, hsorted, bind, Except.bind]
  rfl

/-- The letters that the constructor leaves of a repository. -/
def lettersLeft (source : CompanyReviewedSource) : Nat := (removeSuffix ".git" source.repository).length

omit [TextRuntime] in
theorem lettersLeft_le (source : CompanyReviewedSource) : lettersLeft source ≤ source.repository.length :=
  length_removeSuffix_le _ _

omit [TextRuntime] in
theorem lettersLeft_lt {source : CompanyReviewedSource} (h : endsWith ".git" source.repository = true) :
    lettersLeft source < source.repository.length :=
  length_removeSuffix_lt h

theorem length_reconstructed {source again : CompanyReviewedSource} (h : reconstructed source = .ok again) :
    again.repository.length = lettersLeft source := by
  obtain ⟨_, _, _, _, hrepository⟩ := companyReviewedSource_eq_ok h
  rw [hrepository, lettersLeft]

/-- Where a repository lost a suffix, the list as a whole lost letters, in whatever order. -/
theorem endsWith_of_companySources {found : List CompanyReviewedSource}
    (h : companySources (.arr (found.map companySourceJson)) = .ok found) :
    ∀ source ∈ found, endsWith ".git" source.repository = false := by
  obtain ⟨items, hitems, h1⟩ := Result.of_bind_ok h
  obtain ⟨again, hagain, h2⟩ := Result.of_bind_ok h1
  obtain ⟨distinct, _, h3⟩ := Result.of_bind_ok h2
  have hsame := Except.ok.inj h3
  obtain rfl := Json.arr.inj (asArray_eq_ok hitems)
  rw [mapM_companySource] at hagain
  have hlengths : again.map (·.repository.length) = found.map lettersLeft := by
    refine map_eq_of_forall₂ ?_ (Result.forall₂_of_mapM_ok hagain)
    intro source other hstep
    exact length_reconstructed hstep
  have htotal : (found.map (·.repository.length)).sum = (found.map lettersLeft).sum := by
    have hperm := (perm_sortedBy CompanyReviewedSource.key again).map (·.repository.length)
    rw [hsame, hlengths] at hperm
    exact hperm.sum_eq
  intro source hmem
  rw [← Bool.not_eq_true]
  intro hsuffix
  have hless : (found.map lettersLeft).sum < (found.map (·.repository.length)).sum :=
    List.sum_lt_sum _ _ (fun other _ => lettersLeft_le other) ⟨source, hmem, lettersLeft_lt hsuffix⟩
  exact absurd htotal (Nat.ne_of_gt hless)

end Company

/-! ## What was read -/

/-- What is known of a policy that was read. -/
structure SoundPolicy (policy : OrganizationPolicy) : Prop where
  version : policy.schemaVersion = 1
  recommended : SoundNames policy.recommendedSources
  required : SoundNames policy.requiredSources
  disjoint : (policy.recommendedSources.any (· ∈ policy.requiredSources)) = false
  hosts : ∀ hosts, policy.allowedGitHosts = some hosts → sortedSet hosts = hosts ∧ ∀ host ∈ hosts, isGitHost host = true
  prefixes : ∀ paths, policy.allowedRepositoryPrefixes = some paths → sortedSet paths = paths ∧
    ∀ path ∈ paths, oneLine path = true ∧ isRepositoryPrefix path = true ∧ path.length ≤ maxStringLength
  capabilities : ∀ allowed, policy.allowedSetupCapabilities = some allowed → SoundCapabilities allowed
  destination : ∀ name, policy.reporting.destination = some name → name.value.length ≤ maxStringLength
  company : ∀ source ∈ policy.companyReviewedSources, SoundCompany source
  companyNodup : policy.companyReviewedSources.Nodup
  companySorted : sortedBy CompanyReviewedSource.key policy.companyReviewedSources = policy.companyReviewedSources

section Policies

variable [TextRuntime]

omit [TextRuntime] in
theorem hosts_of_read {fields : Dict} {found : List String} {normalize : String → String}
    (h : optionalStrings fields "allowed_git_hosts" normalize isGitHost = .ok (some found)) :
    sortedSet found = found ∧ ∀ host ∈ found, isGitHost host = true := by
  obtain ⟨raws, _, rfl, hvalid⟩ := optionalStrings_eq_ok h
  refine ⟨sortedSet_sortedSet _, fun host hmem => ?_⟩
  obtain ⟨raw, hraw, rfl⟩ := List.mem_map.mp (mem_sortedSet.mp hmem)
  exact (hvalid raw hraw).2

omit [TextRuntime] in
theorem prefixes_of_read {fields : Dict} {found : List String} (hfits : Fits 0 (.obj fields))
    (h : optionalStrings fields "allowed_repository_prefixes" id isRepositoryPrefix = .ok (some found)) :
    sortedSet found = found ∧
      ∀ path ∈ found, oneLine path = true ∧ isRepositoryPrefix path = true ∧ path.length ≤ maxStringLength := by
  obtain ⟨raws, hget, rfl, hvalid⟩ := optionalStrings_eq_ok h
  have hshort := (fits_strings (by decide)).mp (Manifest.fits_of_get? hfits hget).2
  refine ⟨sortedSet_sortedSet _, fun path hmem => ?_⟩
  rw [List.map_id, mem_sortedSet] at hmem
  exact ⟨(hvalid path hmem).1, (hvalid path hmem).2, hshort path hmem⟩

/-- The designated registries of a document, each once and in order. -/
theorem companySources_eq_ok {value : Json} {found : List CompanyReviewedSource} (h : companySources value = .ok found) :
    ∃ items read, value = .arr items ∧ List.Forall₂ (fun item source => companySource item = .ok source) items read ∧
      read.Nodup ∧ found = sortedBy CompanyReviewedSource.key read := by
  obtain ⟨items, hitems, h1⟩ := Result.of_bind_ok h
  obtain ⟨read, hread, h2⟩ := Result.of_bind_ok h1
  obtain ⟨distinct, hdistinct, h3⟩ := Result.of_bind_ok h2
  exact ⟨items, read, asArray_eq_ok hitems, Result.forall₂_of_mapM_ok hread, by simpa using refuse_eq_ok.mp hdistinct,
    (Except.ok.inj h3).symm⟩

theorem soundPolicy_of_read {value : Json} {policy : OrganizationPolicy} (hfits : Fits 0 value)
    (h : organizationPolicyOf value = .ok policy) : SoundPolicy policy := by
  obtain ⟨fields, rfl, hbody⟩ := documentOf_eq_ok h
  obtain ⟨version, _, h1⟩ := Result.of_bind_ok hbody
  obtain ⟨recommended, hrecommended, h2⟩ := Result.of_bind_ok h1
  obtain ⟨required, hrequired, h3⟩ := Result.of_bind_ok h2
  obtain ⟨hosts, hhosts, h4⟩ := Result.of_bind_ok h3
  obtain ⟨prefixes, hprefixes, h5⟩ := Result.of_bind_ok h4
  obtain ⟨company, hcompany, h6⟩ := Result.of_bind_ok h5
  obtain ⟨allowDirect, _, h7⟩ := Result.of_bind_ok h6
  obtain ⟨allowCustom, _, h8⟩ := Result.of_bind_ok h7
  obtain ⟨trust, _, h9⟩ := Result.of_bind_ok h8
  obtain ⟨capabilities, hcapabilities, h10⟩ := Result.of_bind_ok h9
  obtain ⟨settings, hreporting, h11⟩ := Result.of_bind_ok h10
  obtain ⟨disjoint, hdisjoint, h12⟩ := Result.of_bind_ok h11
  obtain rfl := Except.ok.inj h12
  have hallowed : ∀ allowed, capabilities = some allowed → SoundCapabilities allowed := by
    rintro allowed rfl
    unfold optionalField at hcapabilities
    split at hcapabilities
    · cases hcapabilities
    · rename_i written hwritten
      obtain ⟨same, hsame, hfound⟩ := Result.of_map_ok hcapabilities
      obtain rfl := Option.some.inj hfound
      exact soundCapabilities_of_read (Manifest.fits_of_get? hfits hwritten).2 hsame
  have hdestination : ∀ name, settings.destination = some name → name.value.length ≤ maxStringLength := by
    unfold defaultedField at hreporting
    split at hreporting
    · rw [← Except.ok.inj hreporting]
      simp
    · rename_i written hwritten
      exact short_of_policyReporting (Manifest.fits_of_get? hfits hwritten).2 hreporting
  have hdesignated : (∀ source ∈ company, SoundCompany source) ∧ company.Nodup ∧
      sortedBy CompanyReviewedSource.key company = company := by
    unfold defaultedField at hcompany
    split at hcompany
    · rw [← Except.ok.inj hcompany]
      exact ⟨by simp, List.nodup_nil, rfl⟩
    · rename_i written hwritten
      have hmember := (Manifest.fits_of_get? hfits hwritten).2
      obtain ⟨items, read, rfl, hall, hnodup, rfl⟩ := companySources_eq_ok hcompany
      refine ⟨fun source hmem => ?_, (perm_sortedBy _ _).nodup_iff.mpr hnodup, sortedBy_sortedBy _ _⟩
      obtain ⟨item, hitem, hread⟩ := exists_of_forall₂_mem hall (mem_sortedBy.mp hmem)
      exact soundCompany_of_read ((fits_arr.mp hmember).2 item hitem) hread
  exact {
    version := rfl
    recommended := soundNames_of_field hfits hrecommended
    required := soundNames_of_field hfits hrequired
    disjoint := refuse_eq_ok.mp hdisjoint
    hosts := by
      rintro found rfl
      exact hosts_of_read hhosts
    prefixes := by
      rintro found rfl
      exact prefixes_of_read hfits hprefixes
    capabilities := hallowed
    destination := hdestination
    company := hdesignated.1
    companyNodup := hdesignated.2.1
    companySorted := hdesignated.2.2 }

/-! ## Reading what was written -/

omit [TextRuntime] in
theorem shape_organizationPolicy : Shape ["schema_version"] policyOptional organizationPolicyTable where
  names policy := by simp [organizationPolicyTable, policyOptional]
  nodup policy := by simp [organizationPolicyTable]
  found := by simp [organizationPolicyTable]
  short := by decide

omit [TextRuntime] in
theorem optionalBoolean_written {written : Dict} {name label : String} {found : Option Bool}
    (hget : Dict.get? written name = found.map .bool) :
    optionalField written name (booleanField policyInvalid label) = .ok found := by
  rw [optionalField, hget]
  cases found <;> rfl

omit [TextRuntime] in
theorem trust_written {written : Dict} {found : Option TrustClass}
    (hget : Dict.get? written "minimum_trust_for_user_scope" = found.map fun trust => .str trust.value) :
    optionalField written "minimum_trust_for_user_scope" (textField policyInvalid "minimum_trust_for_user_scope"
      (choice trustClasses TrustClass.value policyInvalid "minimum trust value is unsupported")) = .ok found := by
  rw [optionalField, hget]
  cases found with
  | none => rfl
  | some trust => cases trust <;> rfl

/-- The document of a sound policy is read as the policy with its designated registries
read once more. -/
theorem SoundPolicy.read (hfolds : FoldsHosts) {policy : OrganizationPolicy} (h : SoundPolicy policy) :
    organizationPolicyOf (organizationPolicyJson policy) =
      (companySources (.arr (policy.companyReviewedSources.map companySourceJson))).map fun company =>
        { policy with companyReviewedSources := company } := by
  refine documentOf_written shape_organizationPolicy fun written hwritten => ?_
  simp only [organizationPolicyTable, List.forall_mem_cons] at hwritten
  obtain ⟨wcompany, wrecommended, wrequired, wversion, whosts, wprefixes, wcapabilities, wdirect, wtrust, wcustom,
    wreporting, _⟩ := hwritten
  have hversion : requiredField written "schema_version" (schemaVersion policyInvalid) = .ok 1 := by
    rw [requiredField, wversion]
    rfl
  have hrecommended : defaultedField written "recommended_sources" [] (aliasArray policyInvalid "recommended_sources") =
      .ok policy.recommendedSources := by
    rw [defaultedField, wrecommended]
    exact h.recommended.read _
  have hrequired : defaultedField written "required_sources" [] (aliasArray policyInvalid "required_sources") =
      .ok policy.requiredSources := by
    rw [defaultedField, wrequired]
    exact h.required.read _
  have hhosts : optionalStrings written "allowed_git_hosts" TextRuntime.casefold isGitHost = .ok policy.allowedGitHosts := by
    refine optionalStrings_written whosts fun texts htexts => ?_
    obtain ⟨hsorted, hvalid⟩ := h.hosts texts htexts
    refine ⟨hsorted, fun host hmem => ⟨oneLine_host (hvalid host hmem), hfolds _ ?_, hvalid host hmem⟩⟩
    have hletters := hvalid host hmem
    simp only [isGitHost, Bool.and_eq_true] at hletters
    exact hletters.2
  have hprefixes : optionalStrings written "allowed_repository_prefixes" id isRepositoryPrefix =
      .ok policy.allowedRepositoryPrefixes := by
    refine optionalStrings_written wprefixes fun texts htexts => ?_
    obtain ⟨hsorted, hvalid⟩ := h.prefixes texts htexts
    exact ⟨hsorted, fun path hmem => ⟨(hvalid path hmem).1, rfl, (hvalid path hmem).2.1⟩⟩
  have hcompany : defaultedField written "company_reviewed_sources" [] companySources =
      companySources (.arr (policy.companyReviewedSources.map companySourceJson)) := by
    rw [defaultedField, wcompany]
  have hcapabilities : optionalField written "allowed_setup_capabilities" allowedCapabilities =
      .ok policy.allowedSetupCapabilities := by
    rw [optionalField, wcapabilities]
    cases hallowed : policy.allowedSetupCapabilities with
    | none => rfl
    | some capabilities =>
        simp only [Option.map_some, (h.capabilities capabilities hallowed).read]
        rfl
  have hreporting : defaultedField written "reporting" {} policyReporting = .ok policy.reporting := by
    rw [defaultedField, wreporting]
    exact policyReporting_written policy.reporting
  have hsame (company : List CompanyReviewedSource) : ({ policy with companyReviewedSources := company }) =
      { policy with schemaVersion := 1, companyReviewedSources := company } := by
    rw [← h.version]
  simp only [organizationPolicyBody, hversion, hrecommended, hrequired, hhosts, hprefixes, hcompany,
    optionalBoolean_written wdirect, optionalBoolean_written wcustom, trust_written wtrust, hcapabilities, hreporting,
    h.disjoint, hsame, refuse, bind, Except.bind]
  cases companySources (.arr (policy.companyReviewedSources.map companySourceJson)) with
  | error diagnostic => rfl
  | ok company => rfl

theorem SoundPolicy.read_iff (hfolds : FoldsHosts) {policy : OrganizationPolicy} (h : SoundPolicy policy) :
    organizationPolicyOf (organizationPolicyJson policy) = .ok policy ↔
      ∀ source ∈ policy.companyReviewedSources, endsWith ".git" source.repository = false := by
  rw [h.read hfolds]
  constructor
  · intro hread
    obtain ⟨company, hcompany, hsame⟩ := Result.of_map_ok hread
    have hagain : company = policy.companyReviewedSources :=
      (congrArg OrganizationPolicy.companyReviewedSources hsame).symm
    rw [hagain] at hcompany
    exact endsWith_of_companySources hcompany
  · intro hsuffix
    rw [companySources_written hfolds h.company h.companyNodup h.companySorted hsuffix]
    rfl

end Policies

end AgentArtifacts.Configuration
