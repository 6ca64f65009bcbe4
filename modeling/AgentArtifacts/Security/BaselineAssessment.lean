import AgentArtifacts.Security.BaselineOrder

/-!
# When a baseline assessment is made

Its own bounds raise the assessment away when too much is left out or a label is too long, and the
limit of findings may drop the severe ones. Where neither happens, the assessment is as severe as
what was found, and complete only if nothing was left out.
-/

namespace AgentArtifacts.Security

open Manifest (jsonObject)
open Registry (sortedBy sortedSet perm_sortedBy mem_sortedBy)
open Schema (sortedBy_eq_self pairwise_sortedBy)

theorem Raising.of_bind_ok {α β : Type} {first : Raising α} {next : α → Raising β} {b : β}
    (h : (first >>= next) = .ok b) : ∃ a, first = .ok a ∧ next a = .ok b := by
  cases first with
  | error message => cases h
  | ok a => exact ⟨a, rfl, h⟩

/-! ## Statuses and coverage -/

variable {coverage : AssessmentCoverage}

theorem assessmentStatus_complete {failed : Bool}
    (h : assessmentStatus failed coverage = .complete) : coverage.complete = true := by
  unfold assessmentStatus at h
  split at h
  · cases h
  · split at h
    · rename_i hcomplete
      exact hcomplete
    · cases h

/-- A gap, where a failure is named. -/
theorem assessmentStatus_gap {failed : Bool}
    (hfailed : failed = true → coverage.skipped ≠ [])
    (h : assessmentStatus failed coverage = .partly ∨ assessmentStatus failed coverage = .failed) :
    coverage.complete = false := by
  unfold assessmentStatus at h
  cases hflag : failed with
  | true =>
      have hskipped := hfailed hflag
      simp [AssessmentCoverage.complete, hskipped]
  | false =>
      simp only [hflag, Bool.false_eq_true, if_false] at h
      cases hcomplete : coverage.complete with
      | false => rfl
      | true => simp [hcomplete] at h

theorem assessmentStatus_ne {failed : Bool} :
    assessmentStatus failed coverage ≠ .notScanned ∧ assessmentStatus failed coverage ≠ .stale := by
  unfold assessmentStatus
  split
  · decide
  · split <;> decide

theorem detail_valid (status : AssessmentStatus) : oneLineWithin 512 (statusDetail status) = true := by
  cases status <;> exact oneLineWithin_of_chars rfl (by decide +kernel)

variable {skipped : List String}

theorem AssessmentCoverage.make_eq_ok {completed expected : Nat}
    (h : AssessmentCoverage.make completed expected skipped = .ok coverage) : coverage.skipped = sortedSet skipped ∧
      coverage.skipped.length ≤ 512 ∧ ∀ label ∈ coverage.skipped, oneLineWithin 512 label = true := by
  refine ⟨?_, coverage.bounded, coverage.lines⟩
  unfold AssessmentCoverage.make at h
  dsimp only at h
  split at h
  · cases h
    rfl
  · cases h

theorem AssessmentCoverage.exists_make {completed expected : Nat} (hpositive : 1 ≤ expected)
    (hwithin : completed ≤ expected) (hfew : (sortedSet skipped).length ≤ 512)
    (hlines : ∀ label ∈ sortedSet skipped, oneLineWithin 512 label = true) :
    ∃ coverage, AssessmentCoverage.make completed expected skipped = .ok coverage := by
  unfold AssessmentCoverage.make
  exact ⟨_, dif_pos ⟨hpositive, hwithin, hfew, hlines⟩⟩

/-- The coverage is made exactly where the labels are few and short. -/
theorem baselineCoverage_eq_ok {truncated : Bool}
    (h : baselineCoverage skipped truncated = .ok coverage) : coverage.skipped = skippedValues skipped truncated ∧
      (skippedValues skipped truncated).length ≤ 512 ∧
      ∀ label ∈ skippedValues skipped truncated, oneLineWithin 512 label = true := by
  have hset : sortedSet (skippedValues skipped truncated) = skippedValues skipped truncated := Schema.sortedSet_sortedSet _
  obtain ⟨hskipped, hfew, hlines⟩ := AssessmentCoverage.make_eq_ok h
  rw [hset] at hskipped
  rw [hskipped] at hfew hlines
  exact ⟨hskipped, hfew, hlines⟩

theorem exists_baselineCoverage {truncated : Bool}
    (hfew : (skippedValues skipped truncated).length ≤ 512)
    (hlines : ∀ label ∈ skippedValues skipped truncated, oneLineWithin 512 label = true) :
    ∃ coverage, baselineCoverage skipped truncated = .ok coverage := by
  have hset : sortedSet (skippedValues skipped truncated) = skippedValues skipped truncated := Schema.sortedSet_sortedSet _
  apply AssessmentCoverage.exists_make (by decide) (Nat.sub_le _ _)
  · rw [hset]
    exact hfew
  · rw [hset]
    exact hlines

theorem provider_finding (hit : Hit) : (finding hit).providerId = baselineProviderId := by
  unfold finding
  split <;> rfl

section Assessments

variable [StandardLibrary]

/-! ## Bounds -/

theorem deduplicateAndBound_few {hits : List Hit} (h : (orderedFindings hits).length ≤ maxFindings) :
    deduplicateAndBound (hits.map finding) = .ok (orderedFindings hits, false) := by
  unfold deduplicateAndBound
  exact if_pos h

def keptFindings (hits : List Hit) : List SecurityFinding :=
  sortedBy SecurityFinding.sortKey ((orderedFindings hits).take (maxFindings - 1) ++ [finding truncatedHit])

theorem deduplicateAndBound_many {hits : List Hit} (h : ¬ (orderedFindings hits).length ≤ maxFindings) :
    deduplicateAndBound (hits.map finding) = .ok (keptFindings hits, true) := by
  unfold deduplicateAndBound
  rw [makeFinding_placed truncatedHit_placed]
  exact if_neg h

/-- The findings that an assessment holds, and whether there were more. -/
def boundedFindings (hits : List Hit) : List SecurityFinding × Bool :=
  if (orderedFindings hits).length ≤ maxFindings then (orderedFindings hits, false) else (keptFindings hits, true)

theorem deduplicateAndBound_eq (hits : List Hit) : deduplicateAndBound (hits.map finding) = .ok (boundedFindings hits) := by
  unfold boundedFindings
  split
  · rename_i h
    exact deduplicateAndBound_few h
  · rename_i h
    exact deduplicateAndBound_many h

theorem sorted_boundedFindings (hits : List Hit) :
    sortedBy SecurityFinding.sortKey (boundedFindings hits).1 = (boundedFindings hits).1 := by
  unfold boundedFindings
  split
  · exact Schema.sortedBy_sortedBy _ _
  · exact Schema.sortedBy_sortedBy _ _

theorem length_boundedFindings (hits : List Hit) : (boundedFindings hits).1.length ≤ maxFindings := by
  unfold boundedFindings
  split
  · rename_i h
    exact h
  · rw [keptFindings, (perm_sortedBy _ _).length_eq, List.length_append, List.length_take, List.length_singleton]
    unfold maxFindings
    omega

theorem mem_boundedFindings {hits : List Hit} {item : SecurityFinding} (h : item ∈ (boundedFindings hits).1) :
    item ∈ orderedFindings hits ∨ item = finding truncatedHit := by
  unfold boundedFindings at h
  split at h
  · exact .inl h
  · rcases List.mem_append.mp (mem_sortedBy.mp h) with htake | hlast
    · exact .inl (List.mem_of_mem_take htake)
    · exact .inr (List.mem_singleton.mp hlast)

theorem provider_boundedFindings {hits : List Hit} {item : SecurityFinding} (h : item ∈ (boundedFindings hits).1) :
    item.providerId = baselineProviderId := by
  rcases mem_boundedFindings h with hordered | rfl
  · obtain ⟨hit, _, rfl⟩ := mem_orderedFindings hordered
    exact provider_finding hit
  · exact provider_finding truncatedHit

section Distinguished

variable [JsonRuntime] {hits : List Hit} (hfired : AllFired hits) (hdistinct : Distinguishes (truncatedHit :: hits))

include hfired hdistinct

/-- No finding of a hit has the fingerprint of the finding of the limit. -/
theorem fingerprint_ne_truncated {item : SecurityFinding} (h : item ∈ orderedFindings hits) :
    item.fingerprint ≠ (finding truncatedHit).fingerprint := by
  obtain ⟨hit, hhit, rfl⟩ := mem_orderedFindings h
  rw [fingerprint_finding (hfired hit hhit).1, fingerprint_finding truncatedHit_placed]
  intro hsame
  have hplace := placeJson_of_fingerprint hdistinct (List.mem_cons_of_mem _ hhit) List.mem_cons_self hsame
  exact (hfired hit hhit).2 (of_placeJson hplace).1

theorem nodup_boundedFindings : ((boundedFindings hits).1.map SecurityFinding.fingerprint).Nodup := by
  unfold boundedFindings
  split
  · exact nodup_orderedFindings hits
  · rw [keptFindings, ((perm_sortedBy _ _).map _).nodup_iff, List.map_append, List.map_take, List.nodup_append]
    refine ⟨(nodup_orderedFindings hits).take, List.nodup_singleton _, ?_⟩
    intro fingerprint hmem other hother
    rw [List.mem_singleton.mp hother]
    obtain ⟨item, hitem, rfl⟩ := List.mem_map.mp (List.mem_of_mem_take hmem)
    exact fingerprint_ne_truncated hfired hdistinct hitem

end Distinguished

/-! ## Making an assessment -/

variable {coverage : AssessmentCoverage}

theorem exists_baselineProvider {failed : Bool}
    (hdigest : isDigestValue baselineRulesDigest = true) (hfailed : failed = true → coverage.skipped ≠ []) :
    ∃ provider, ProviderAssessment.make baselineProviderId baselineProviderVersion baselineRulesDigest
        (assessmentStatus failed coverage) coverage (statusDetail (assessmentStatus failed coverage)) = .ok provider ∧
      provider.id = baselineProviderId ∧ provider.status = assessmentStatus failed coverage ∧
      provider.coverage = coverage := by
  have hall : isProviderId baselineProviderId = true ∧ oneLineWithin 64 baselineProviderVersion = true ∧
      isDigestValue baselineRulesDigest = true ∧
      oneLineWithin 512 (statusDetail (assessmentStatus failed coverage)) = true ∧
      (assessmentStatus failed coverage = .complete → coverage.complete = true) ∧
      (assessmentStatus failed coverage = .notScanned → coverage.completed = 0) ∧
      (assessmentStatus failed coverage = .partly ∨ assessmentStatus failed coverage = .failed →
        coverage.complete = false) :=
    ⟨by decide, by decide, hdigest, detail_valid _, assessmentStatus_complete, fun h => absurd h assessmentStatus_ne.1,
      assessmentStatus_gap hfailed⟩
  exact ⟨_, dif_pos hall, rfl, rfl, rfl⟩

/-- What an assessment by the baseline alone has to meet. -/
theorem checks_single {digest : ObjectDigest} {failed : Bool}
    {findings : List SecurityFinding} {provider : ProviderAssessment}
    (hstatus : provider.status = assessmentStatus failed coverage) (hcover : provider.coverage = coverage)
    (hfailed : failed = true → coverage.skipped ≠ []) (hdigest : isDigestValue digest = true)
    (hbounded : findings.length ≤ maxFindings) (hfingerprints : (findings.map SecurityFinding.fingerprint).Nodup)
    (hknown : ∀ finding ∈ findings, finding.providerId = provider.id) :
    AssessmentChecks digest (assessmentStatus failed coverage)
      (riskFromEvidence (assessmentStatus failed coverage) (maxSeverity (findings.map SecurityFinding.severity)))
      (maxSeverity (findings.map SecurityFinding.severity)) coverage findings [provider] where
  digest := hdigest
  providers_nonempty := List.cons_ne_nil _ _
  bounded := hbounded
  fingerprints := hfingerprints
  provider_ids := List.nodup_singleton _
  known finding hfinding := by
    rw [hknown finding hfinding]
    exact List.mem_singleton_self _
  maximum := rfl
  risk := rfl
  complete_covers := assessmentStatus_complete
  gap := assessmentStatus_gap hfailed
  complete_providers h := List.forall_mem_singleton.mpr (hstatus.trans h)
  notScanned h := absurd h assessmentStatus_ne.1
  stale h := absurd h assessmentStatus_ne.2
  failed h := ⟨provider, List.mem_singleton_self _, hstatus.trans h⟩
  single _ := List.forall_mem_singleton.mpr ⟨hstatus, hcover⟩

theorem SecurityAssessment.exists_make {digest : ObjectDigest} {status : AssessmentStatus} {risk : InstallationRisk}
    {maximum : FindingSeverity} {findings : List SecurityFinding}
    {provider : ProviderAssessment}
    (h : AssessmentChecks digest status risk maximum coverage (sortedBy SecurityFinding.sortKey findings) [provider]) :
    ∃ assessment, SecurityAssessment.make digest status risk maximum coverage findings [provider] = .ok assessment := by
  unfold SecurityAssessment.make
  exact ⟨_, dif_pos h⟩

theorem SecurityAssessment.make_eq_ok {digest : ObjectDigest} {status : AssessmentStatus} {risk : InstallationRisk}
    {maximum : FindingSeverity} {findings : List SecurityFinding}
    {providers : List ProviderAssessment} {assessment : SecurityAssessment}
    (h : SecurityAssessment.make digest status risk maximum coverage findings providers = .ok assessment) :
    assessment.findings = sortedBy SecurityFinding.sortKey findings ∧ assessment.status = status ∧
      assessment.coverage = coverage := by
  unfold SecurityAssessment.make at h
  dsimp only at h
  split at h
  · cases h
    exact ⟨rfl, rfl, rfl⟩
  · cases h

section Assessing

variable [ScanRuntime] {readSetup : SetupReader} {request : BaselineScanRequest}

/-- What an assessment of a request holds when it is made. -/
structure Holds (readSetup : SetupReader) (request : BaselineScanRequest) (assessment : SecurityAssessment) : Prop where
  findings : assessment.findings = (boundedFindings (scanEvidence readSetup request).hits).1
  coverage : assessment.coverage.skipped = skippedValues (scanEvidence readSetup request).skipped
    (boundedFindings (scanEvidence readSetup request).hits).2
  status : assessment.status = assessmentStatus (scanEvidence readSetup request).failed assessment.coverage

theorem placed_evidence (readSetup : SetupReader) (request : BaselineScanRequest) :
    ∀ hit ∈ (scanEvidence readSetup request).hits, hit.placed = true :=
  fun hit hmem => (fired_evidence readSetup request hit hmem).1

theorem assess_eq (readSetup : SetupReader) (request : BaselineScanRequest) :
    assessInstallationRisk readSetup request =
      makeAssessment request.objectCandidate.digest ((scanEvidence readSetup request).hits.map finding)
        (scanEvidence readSetup request).skipped (scanEvidence readSetup request).failed := by
  unfold assessInstallationRisk
  dsimp only
  rw [mapM_makeFinding (placed_evidence readSetup request)]
  rfl

/-- An assessment that is made holds the bounded findings, and its labels are few and short. -/
theorem holds_of_assess {assessment : SecurityAssessment} (h : assessInstallationRisk readSetup request = .ok assessment) :
    Holds readSetup request assessment ∧ assessment.coverage.skipped.length ≤ 512 ∧
      ∀ label ∈ assessment.coverage.skipped, oneLineWithin 512 label = true := by
  rw [assess_eq, makeAssessment, deduplicateAndBound_eq] at h
  obtain ⟨bounded, hbounded, h⟩ := Raising.of_bind_ok h
  cases hbounded
  obtain ⟨coverage, hcoverage, h⟩ := Raising.of_bind_ok h
  obtain ⟨provider, _, h⟩ := Raising.of_bind_ok h
  obtain ⟨hskipped, _, _⟩ := baselineCoverage_eq_ok hcoverage
  obtain ⟨hfindings, hstatus, hsame⟩ := SecurityAssessment.make_eq_ok h
  refine ⟨⟨hfindings.trans (sorted_boundedFindings _), ?_, ?_⟩, assessment.coverage.bounded, assessment.coverage.lines⟩
  · rw [hsame, hskipped]
  · rw [hsame, hstatus]

/-- An assessment is made where no fingerprint is held twice and the labels are few and short. -/
theorem exists_assess_of_nodup (hlength : Sha256Length)
    (hnodup : ((boundedFindings (scanEvidence readSetup request).hits).1.map SecurityFinding.fingerprint).Nodup)
    (hfew : (skippedValues (scanEvidence readSetup request).skipped
      (boundedFindings (scanEvidence readSetup request).hits).2).length ≤ 512)
    (hlines : ∀ label ∈ skippedValues (scanEvidence readSetup request).skipped
      (boundedFindings (scanEvidence readSetup request).hits).2, oneLineWithin 512 label = true) :
    ∃ assessment, assessInstallationRisk readSetup request = .ok assessment := by
  obtain ⟨coverage, hcoverage⟩ := exists_baselineCoverage hfew hlines
  obtain ⟨hskipped, _, _⟩ := baselineCoverage_eq_ok hcoverage
  have hfailed : (scanEvidence readSetup request).failed = true → coverage.skipped ≠ [] := by
    intro hflag
    obtain ⟨label, hlabel⟩ := List.exists_mem_of_ne_nil _ (skipped_of_failed hflag)
    rw [hskipped]
    exact List.ne_nil_of_mem (Schema.mem_sortedSet.mpr (List.mem_append_left _ hlabel))
  have hdigest (data : Bytes) : isDigestValue (sha256Bytes data) = true := validDigest_sha256Bytes hlength data
  obtain ⟨provider, hprovider, hid, hstatus, hcover⟩ := exists_baselineProvider (hdigest _) hfailed
  have hchecks : AssessmentChecks request.objectCandidate.digest
      (assessmentStatus (scanEvidence readSetup request).failed coverage)
      (riskFromEvidence (assessmentStatus (scanEvidence readSetup request).failed coverage)
        (maxSeverity ((boundedFindings (scanEvidence readSetup request).hits).1.map SecurityFinding.severity)))
      (maxSeverity ((boundedFindings (scanEvidence readSetup request).hits).1.map SecurityFinding.severity)) coverage
      (boundedFindings (scanEvidence readSetup request).hits).1 [provider] := by
    apply checks_single hstatus hcover hfailed
    · exact (valid_iff.mp request.objectCandidate.accepted).1
    · exact length_boundedFindings _
    · exact hnodup
    · intro finding hfinding
      rw [provider_boundedFindings hfinding, hid]
  rw [assess_eq, makeAssessment, deduplicateAndBound_eq]
  simp only [bind, Except.bind, hcoverage, hprovider]
  exact SecurityAssessment.exists_make ((sorted_boundedFindings _).symm ▸ hchecks)

/-- An assessment is made where the labels are few and short. -/
theorem exists_assess [JsonRuntime] (hlength : Sha256Length)
    (hdistinct : Distinguishes (truncatedHit :: (scanEvidence readSetup request).hits))
    (hfew : (skippedValues (scanEvidence readSetup request).skipped
      (boundedFindings (scanEvidence readSetup request).hits).2).length ≤ 512)
    (hlines : ∀ label ∈ skippedValues (scanEvidence readSetup request).skipped
      (boundedFindings (scanEvidence readSetup request).hits).2, oneLineWithin 512 label = true) :
    ∃ assessment, assessInstallationRisk readSetup request = .ok assessment :=
  exists_assess_of_nodup hlength (nodup_boundedFindings (fired_evidence readSetup request) hdistinct) hfew hlines

/-! ## Which labels there may be -/

/-- What may be said of a file that is left out. -/
def skipReasons : List String :=
  [RuleId.fileScanLimit.rule.id, RuleId.textDecodeFailed.rule.id, "parse", "nodes", "lines"]

/-- The labels that a scan of some entries may have. -/
def possibleLabels (entries : List SnapshotEntry) : List String :=
  ["metadata:integrity", "provenance-lock:evidence", "declared-effects:capabilities"] ++
    scanners.flatMap fun scanner => (scanner.category ++ ":findings") ::
      entries.flatMap fun entry => skipReasons.map (skipLabel scanner.category entry)

theorem skipped_scan {scanner : Scanner} (h : scanner ∈ scanners) (entry : SnapshotEntry) :
    ∀ label ∈ (scanner.scan entry).skipped, label ∈ skipReasons.map (skipLabel scanner.category entry) := by
  have hfile {category : String} {scan : String → FileScan}
      (hscan : ∀ text, ∀ label ∈ (scan text).skipped, label ∈ skipReasons.map (skipLabel category entry)) :
      ∀ label ∈ (scanFile category scan entry).skipped, label ∈ skipReasons.map (skipLabel category entry) := by
    intro label hlabel
    unfold scanFile at hlabel
    split at hlabel
    · rename_i reason hreason
      obtain rfl := List.mem_singleton.mp hlabel
      apply List.mem_map_of_mem
      unfold scanText at hreason
      split at hreason
      · obtain rfl := Except.error.inj hreason
        simp [skipReasons]
      · split at hreason
        · obtain rfl := Except.error.inj hreason
          simp [skipReasons]
        · cases hreason
    · exact hscan _ label hlabel
  simp only [scanners, List.mem_cons, List.not_mem_nil, or_false] at h
  rcases h with rfl | rfl | rfl | rfl | rfl
  · exact hfile fun text label hlabel => by cases hlabel
  · refine hfile fun text label hlabel => ?_
    split at hlabel
    · obtain rfl := List.mem_singleton.mp hlabel
      exact List.mem_map_of_mem (by simp [skipReasons])
    · split at hlabel
      · obtain rfl := List.mem_singleton.mp hlabel
        exact List.mem_map_of_mem (by simp [skipReasons])
      · cases hlabel
  · refine hfile fun text label hlabel => ?_
    split at hlabel
    · obtain rfl := List.mem_singleton.mp hlabel
      exact List.mem_map_of_mem (by simp [skipReasons])
    · cases hlabel
  · refine hfile fun text label hlabel => ?_
    dsimp only at hlabel
    split at hlabel
    · obtain rfl := List.mem_singleton.mp hlabel
      exact List.mem_map_of_mem (by simp [skipReasons])
    · cases hlabel
  · exact hfile fun text label hlabel => by cases hlabel

omit [StandardLibrary] [ScanRuntime] in
theorem skipped_scanFiles {category label : String} {found : List Hit} {skipped : List String} {files : List FileScan}
    (h : label ∈ (scanFiles category found skipped files).2) :
    label ∈ skipped ∨ label = category ++ ":findings" ∨ ∃ file ∈ files, label ∈ file.skipped := by
  induction files generalizing found skipped with
  | nil => exact .inl h
  | cons file rest ih =>
      rw [scanFiles] at h
      split at h
      · rcases List.mem_append.mp h with hknown | hfindings
        · rcases List.mem_append.mp hknown with hskipped | hfile
          · exact .inl hskipped
          · exact .inr (.inr ⟨file, List.mem_cons_self, hfile⟩)
        · exact .inr (.inl (List.mem_singleton.mp hfindings))
      · rcases ih h with hknown | hfindings | ⟨other, hother, hlabel⟩
        · rcases List.mem_append.mp hknown with hskipped | hfile
          · exact .inl hskipped
          · exact .inr (.inr ⟨file, List.mem_cons_self, hfile⟩)
        · exact .inr (.inl hfindings)
        · exact .inr (.inr ⟨other, List.mem_cons_of_mem _ hother, hlabel⟩)

/-- What is left out is said of the parts of a scan and of the files that it reads. -/
theorem skipped_possible {label : String} (h : label ∈ (scanEvidence readSetup request).skipped) :
    label ∈ possibleLabels request.objectCandidate.entries := by
  simp only [scanEvidence, List.mem_append] at h
  rw [possibleLabels, List.mem_append]
  rcases h with ((hmetadata | hprovenance) | hdeclared) | hruns
  · split at hmetadata
    · exact .inl (by simp [List.mem_singleton.mp hmetadata])
    · cases hmetadata
  · split at hprovenance
    · exact .inl (by simp [List.mem_singleton.mp hprovenance])
    · cases hprovenance
  · split at hdeclared
    · exact .inl (by simp [List.mem_singleton.mp hdeclared])
    · cases hdeclared
  · obtain ⟨run, hrun, hlabel⟩ := List.mem_flatMap.mp hruns
    obtain ⟨scanner, hscanner, rfl⟩ := List.mem_map.mp hrun
    refine .inr (List.mem_flatMap.mpr ⟨scanner, hscanner, ?_⟩)
    rcases skipped_scanFiles hlabel with hnone | rfl | ⟨file, hfile, hskipped⟩
    · cases hnone
    · exact List.mem_cons_self
    · obtain ⟨entry, hentry, rfl⟩ := List.mem_map.mp hfile
      exact List.mem_cons_of_mem _ (List.mem_flatMap.mpr
        ⟨entry, (List.mem_filter.mp hentry).1, skipped_scan hscanner entry label hskipped⟩)

/-- A scan that may have few labels and finds little is assessed. -/
theorem exists_assess_of_few (hlength : Sha256Length)
    (hfound : (orderedFindings (scanEvidence readSetup request).hits).length ≤ maxFindings)
    (hfew : (possibleLabels request.objectCandidate.entries).length ≤ 512)
    (hlines : ∀ label ∈ possibleLabels request.objectCandidate.entries, oneLineWithin 512 label = true) :
    ∃ assessment, assessInstallationRisk readSetup request = .ok assessment := by
  have hbounded : boundedFindings (scanEvidence readSetup request).hits =
      (orderedFindings (scanEvidence readSetup request).hits, false) := if_pos hfound
  have hsubset {label : String} (h : label ∈ skippedValues (scanEvidence readSetup request).skipped false) :
      label ∈ possibleLabels request.objectCandidate.entries := by
    have hmem := Schema.mem_sortedSet.mp h
    rw [if_neg Bool.false_ne_true, List.append_nil] at hmem
    exact skipped_possible hmem
  refine exists_assess_of_nodup hlength ?_ ?_ ?_
  · rw [hbounded]
    exact nodup_orderedFindings _
  · rw [hbounded]
    have hnodup : (skippedValues (scanEvidence readSetup request).skipped false).Nodup := Schema.nodup_sortedSet _
    exact (List.subperm_of_subset hnodup fun label => hsubset).length_le.trans hfew
  · rw [hbounded]
    exact fun label hlabel => hlines label (hsubset hlabel)

/-! ## Assessable requests -/

/-- What a scan leaves out, by the labels of its assessment. -/
def scanLabels (readSetup : SetupReader) (request : BaselineScanRequest) : List String :=
  skippedValues (scanEvidence readSetup request).skipped
    (decide (maxFindings < (distinctKeys (scanEvidence readSetup request).hits).length))

/-- Hits that an assessment holds, however many others there are. -/
def Retained (hits : List Hit) (hit : Hit) : Prop := ((distinctKeys hits).filter (· < hit.sortKey)).length < maxFindings - 1

/-- The bounds that a request has to keep: at most 512 labels of at most 512 letters each; and where
there are more findings than an assessment holds, as severe a one as any severe one comes early. -/
structure Assessable (readSetup : SetupReader) (request : BaselineScanRequest) : Prop where
  few : (scanLabels readSetup request).length ≤ 512
  short : ∀ label ∈ scanLabels readSetup request, oneLineWithin 512 label = true
  severe : (distinctKeys (scanEvidence readSetup request).hits).length ≤ maxFindings ∨
    ∀ hit ∈ (scanEvidence readSetup request).hits, FindingSeverity.high.rank ≤ hit.severity.rank →
      ∃ other ∈ (scanEvidence readSetup request).hits, hit.severity.rank ≤ other.severity.rank ∧
        Retained (scanEvidence readSetup request).hits other

/-- An assessment that hides nothing severe and says truly that it is complete. -/
structure Faithful (readSetup : SetupReader) (request : BaselineScanRequest) (assessment : SecurityAssessment) : Prop where
  distinct : (assessment.findings.map SecurityFinding.fingerprint).Nodup
  bounded : assessment.findings.length ≤ 256
  severe : ∀ hit ∈ (scanEvidence readSetup request).hits, FindingSeverity.high.rank ≤ hit.severity.rank →
    hit.severity.rank ≤ assessment.maxFindingSeverity.rank ∧ hit.severity.rank ≤ assessment.installationRisk.rank
  complete : assessment.status = .complete → NothingSkipped readSetup request ∧
    ∀ hit ∈ (scanEvidence readSetup request).hits, ∃ found ∈ assessment.findings, found.fingerprint = hit.fingerprint

section Distinguished

variable (hdistinct : Distinguishes (truncatedHit :: (scanEvidence readSetup request).hits))

include hdistinct

theorem distinguishes_evidence : Distinguishes (scanEvidence readSetup request).hits :=
  fun first hfirst second hsecond => hdistinct first (List.mem_cons_of_mem _ hfirst) second (List.mem_cons_of_mem _ hsecond)

variable [JsonRuntime]

theorem length_ordered_evidence : (orderedFindings (scanEvidence readSetup request).hits).length =
    (distinctKeys (scanEvidence readSetup request).hits).length :=
  length_orderedFindings (placed_evidence readSetup request) (distinguishes_evidence hdistinct)

theorem scanLabels_eq : scanLabels readSetup request = skippedValues (scanEvidence readSetup request).skipped
    (boundedFindings (scanEvidence readSetup request).hits).2 := by
  have hlength := length_ordered_evidence hdistinct
  rw [scanLabels, ← hlength]
  unfold boundedFindings
  split
  · rename_i hfew
    rw [decide_eq_false (Nat.not_lt.mpr hfew)]
  · rename_i hmany
    rw [decide_eq_true (Nat.lt_of_not_le hmany)]

/-- The severe findings that an assessment holds are those of the hits that come early. -/
theorem severe_boundedFindings (severity : FindingSeverity) (hsevere : FindingSeverity.high.rank ≤ severity.rank) :
    severity ∈ (boundedFindings (scanEvidence readSetup request).hits).1.map SecurityFinding.severity ↔
      ∃ hit ∈ (scanEvidence readSetup request).hits, hit.severity = severity ∧
        ((distinctKeys (scanEvidence readSetup request).hits).length ≤ maxFindings ∨
          Retained (scanEvidence readSetup request).hits hit) := by
  have hplaced := placed_evidence readSetup request
  have hevidence := distinguishes_evidence hdistinct
  have hlength := length_ordered_evidence hdistinct
  have hnone : (finding truncatedHit).severity ≠ severity := by
    intro h
    rw [severity_finding truncatedHit_placed] at h
    rw [← h] at hsevere
    exact absurd hsevere (by decide)
  rw [List.mem_map]
  unfold boundedFindings
  split
  · rename_i hfew
    rw [hlength] at hfew
    constructor
    · rintro ⟨item, hitem, rfl⟩
      obtain ⟨hit, hhit, rfl⟩ := mem_orderedFindings hitem
      exact ⟨hit, hhit, (severity_finding (hplaced hit hhit)).symm, .inl hfew⟩
    · rintro ⟨hit, hhit, rfl, _⟩
      obtain ⟨item, hitem, _, hkey⟩ := exists_orderedFinding hplaced hevidence hhit
      obtain ⟨other, hother, rfl⟩ := mem_orderedFindings hitem
      rw [sortKey_finding (hplaced other hother)] at hkey
      refine ⟨finding other, hitem, ?_⟩
      rw [severity_finding (hplaced other hother), Hit.severity, Hit.severity, rule_of_sortKey hkey]
  · rename_i hmany
    rw [hlength] at hmany
    have htake : (∃ item ∈ (orderedFindings (scanEvidence readSetup request).hits).take (maxFindings - 1),
        item.severity = severity) ↔ ∃ hit ∈ (scanEvidence readSetup request).hits,
        hit.severity = severity ∧ Retained (scanEvidence readSetup request).hits hit :=
      mem_take_orderedFindings hplaced hevidence (maxFindings - 1)
    constructor
    · rintro ⟨item, hitem, hseverity⟩
      rcases List.mem_append.mp (mem_sortedBy.mp hitem) with hkept | hlast
      · obtain ⟨hit, hhit, hsame, hretained⟩ := htake.mp ⟨item, hkept, hseverity⟩
        exact ⟨hit, hhit, hsame, .inr hretained⟩
      · rw [List.mem_singleton.mp hlast] at hseverity
        exact absurd hseverity hnone
    · rintro ⟨hit, hhit, hseverity, hfew | hretained⟩
      · exact absurd hfew hmany
      · obtain ⟨item, hitem, hsame⟩ := htake.mpr ⟨hit, hhit, hseverity, hretained⟩
        exact ⟨item, mem_sortedBy.mpr (List.mem_append_left _ hitem), hsame⟩

/-- A complete assessment left nothing out. -/
theorem complete_of_holds {assessment : SecurityAssessment} (hholds : Holds readSetup request assessment)
    (hcomplete : assessment.status = .complete) : NothingSkipped readSetup request ∧
      ∀ hit ∈ (scanEvidence readSetup request).hits, ∃ found ∈ assessment.findings, found.fingerprint = hit.fingerprint := by
  have hcover := assessmentStatus_complete (hholds.status ▸ hcomplete)
  have hnil : assessment.coverage.skipped = [] := by
    have h := (Bool.and_eq_true_iff.mp hcover).2
    exact List.isEmpty_iff.mp h
  have hlabels (label : String) : label ∉ (scanEvidence readSetup request).skipped ++
      if (boundedFindings (scanEvidence readSetup request).hits).2 then ["findings:truncated"] else [] := by
    intro hlabel
    have hmem := Schema.mem_sortedSet.mpr hlabel
    have hempty := hholds.coverage.symm.trans hnil
    rw [skippedValues] at hempty
    rw [hempty] at hmem
    cases hmem
  have hskipped : (scanEvidence readSetup request).skipped = [] :=
    List.eq_nil_iff_forall_not_mem.mpr fun label hlabel => hlabels label (List.mem_append_left _ hlabel)
  have hfew : (boundedFindings (scanEvidence readSetup request).hits).2 = false := by
    cases htruncated : (boundedFindings (scanEvidence readSetup request).hits).2 with
    | false => rfl
    | true =>
        refine absurd (List.mem_append_right _ ?_) (hlabels "findings:truncated")
        rw [htruncated]
        exact List.mem_cons_self
  refine ⟨nothingSkipped hskipped, ?_⟩
  intro hit hhit
  obtain ⟨item, hitem, hfingerprint, _⟩ :=
    exists_orderedFinding (placed_evidence readSetup request) (distinguishes_evidence hdistinct) hhit
  refine ⟨item, ?_, hfingerprint⟩
  rw [hholds.findings]
  unfold boundedFindings at hfew ⊢
  split at hfew
  · rename_i hwithin
    rw [if_pos hwithin]
    exact hitem
  · cases hfew

/-- An assessment is made, and it is faithful, exactly for a request that keeps the bounds. -/
theorem assessInstallationRisk_faithful_iff (hlength : Sha256Length) :
    (∃ assessment, assessInstallationRisk readSetup request = .ok assessment ∧ Faithful readSetup request assessment) ↔
      Assessable readSetup request := by
  have hlabels := scanLabels_eq hdistinct
  constructor
  · rintro ⟨assessment, hassess, hfaithful⟩
    obtain ⟨hholds, hfew, hlines⟩ := holds_of_assess hassess
    rw [hholds.coverage, ← hlabels] at hfew hlines
    refine ⟨hfew, hlines, ?_⟩
    by_cases hwithin : (distinctKeys (scanEvidence readSetup request).hits).length ≤ maxFindings
    · exact .inl hwithin
    · refine .inr ?_
      intro hit hhit hsevere
      have hrank := (hfaithful.severe hit hhit hsevere).1
      rw [assessment.checks.maximum, hholds.findings] at hrank
      -- The greatest severity that is kept is that of a hit that comes early.
      have hmax := maxSeverity_mem (Nat.lt_of_lt_of_le (by decide) (hsevere.trans hrank))
      obtain ⟨other, hother, hsame, hcase⟩ :=
        (severe_boundedFindings hdistinct _ (hsevere.trans hrank)).mp hmax
      refine ⟨other, hother, hsame ▸ hrank, ?_⟩
      rcases hcase with h | h
      · exact absurd h hwithin
      · exact h
  · rintro ⟨hfew, hlines, hsevere⟩
    rw [hlabels] at hfew hlines
    obtain ⟨assessment, hassess⟩ := exists_assess hlength hdistinct hfew hlines
    obtain ⟨hholds, _, _⟩ := holds_of_assess hassess
    have hmaximum (hit : Hit) (hhit : hit ∈ (scanEvidence readSetup request).hits)
        (hrank : FindingSeverity.high.rank ≤ hit.severity.rank) :
        hit.severity.rank ≤ assessment.maxFindingSeverity.rank := by
      rw [assessment.checks.maximum, hholds.findings]
      rcases hsevere with hwithin | hearly
      · exact rank_le_maxSeverity ((severe_boundedFindings hdistinct _ hrank).mpr ⟨hit, hhit, rfl, .inl hwithin⟩)
      · obtain ⟨other, hother, hle, hretained⟩ := hearly hit hhit hrank
        have hkept := (severe_boundedFindings hdistinct _ (hrank.trans hle)).mpr ⟨other, hother, rfl, .inr hretained⟩
        exact hle.trans (rank_le_maxSeverity hkept)
    refine ⟨assessment, hassess, assessment.checks.fingerprints, assessment.checks.bounded, ?_, ?_⟩
    · intro hit hhit hrank
      have hle := hmaximum hit hhit hrank
      refine ⟨hle, ?_⟩
      rw [assessment.checks.risk, rank_riskFromEvidence (hrank.trans hle)]
      exact hle
    · exact complete_of_holds hdistinct hholds

end Distinguished

end Assessing

end Assessments

/-! ## An object without a manifest -/

section Samples

def sampleArtifact (objectDigest : ObjectDigest) : Registry.IndexArtifact where
  sourceId := ⟨"r", Eq.refl true⟩
  identity := ⟨.skill, ⟨"t", Eq.refl true⟩⟩
  version := ⟨1, 0, 0, [], []⟩
  summary := "T"
  manifestDigest := ⟨""⟩
  payloadDigest := ⟨""⟩
  objectDigest := objectDigest
  compatibility := ⟨["claude"], ["linux"]⟩
  install := ⟨[.project], [.copy], []⟩
  review := some ⟨"approved", "p"⟩

/-- No Python source is read, and no letter is mapped. -/
@[reducible] def plainScans : ScanRuntime where
  lower := id
  isWord := Char.isAlphanum
  parsePython _ := none
  parsePython_line := by
    intro text nodes call h
    cases h

def noSetup : SetupReader := fun _ _ => .error []

/-- The octets of the place of the limit. -/
def limitPlace : Bytes := @canonicalJsonBytes storeLibrary (placeJson truncatedHit)

/-- A hash with two values that tells one place from all others. -/
@[reducible] def scanLibrary : StandardLibrary :=
  pythonLibrary (fun data => if data = limitPlace then List.replicate 32 0 else List.replicate 32 1) fun _ => true

attribute [local instance] scanLibrary plainScans

theorem scanLibrary_sha256Length : Sha256Length := by
  intro data
  show (if data = limitPlace then List.replicate 32 0 else List.replicate 32 1).length = 32
  split <;> rfl

theorem emptyData_valid : (namedData (0 + 2)).valid = true :=
  @namedData_valid _ (fun _ => rfl) (pythonLibrary_jsonRuntime _ _) 0 (by decide)
    (validDigest_sha256Bytes scanLibrary_sha256Length _)

/-- The object holds one directory. -/
def emptyRequest : BaselineScanRequest where
  objectCandidate := ⟨namedData (0 + 2), emptyData_valid⟩
  artifact := sampleArtifact (namedData (0 + 2)).digest

theorem emptyRequest_evidence :
    scanEvidence noSetup emptyRequest = ⟨[⟨.manifestMissing, none, none⟩], ["metadata:integrity"], true⟩ := by
  have hfiles (path : String) : fileAt emptyRequest.objectCandidate.entries path = none := rfl
  have hmetadata : metadataHits noSetup emptyRequest = ([⟨.manifestMissing, none, none⟩], true) := by
    have hsame : (emptyRequest.objectCandidate.digest != emptyRequest.artifact.objectDigest) = false := bne_self_eq_false _
    unfold metadataHits
    rw [hfiles, hsame]
    rfl
  have hprovenance : provenanceHits emptyRequest = ([], false, false) := rfl
  have hdeclared : declaredHits emptyRequest.artifact emptyRequest.objectCandidate.entries = ([], false) := rfl
  have hruns (scanner : Scanner) : scanner.run emptyRequest.objectCandidate.entries = ([], []) := rfl
  simp [scanEvidence, hmetadata, hprovenance, hdeclared, hruns, scanners]

theorem emptyRequest_distinguishes : Distinguishes (truncatedHit :: (scanEvidence noSetup emptyRequest).hits) := by
  have hruntime : JsonRuntime := pythonLibrary_jsonRuntime _ _
  rw [emptyRequest_evidence]
  intro first hfirst second hsecond h
  have hdiffer : canonicalJsonBytes (placeJson ⟨.manifestMissing, none, none⟩) ≠ canonicalJsonBytes (placeJson truncatedHit) := by
    intro hsame
    have hplace := canonicalJsonBytes_injective (frozen_placeJson _) (frozen_placeJson _) hsame
    exact absurd (of_placeJson hplace).1 (by decide)
  have hlimit : canonicalJsonBytes (placeJson truncatedHit) = limitPlace := rfl
  have hzero : StandardLibrary.sha256 (canonicalJsonBytes (placeJson truncatedHit)) = List.replicate 32 0 := by
    rw [hlimit]
    exact if_pos rfl
  have hother : StandardLibrary.sha256 (canonicalJsonBytes (placeJson ⟨.manifestMissing, none, none⟩)) =
      List.replicate 32 1 := if_neg hdiffer
  simp only [List.mem_cons, List.not_mem_nil, or_false] at hfirst hsecond
  rcases hfirst with rfl | rfl <;> rcases hsecond with rfl | rfl
  · rfl
  · rw [hzero, hother] at h
    exact absurd h (by decide)
  · rw [hzero, hother] at h
    exact absurd h (by decide)
  · rfl

theorem emptyRequest_assessable : Assessable noSetup emptyRequest := by
  have hlabels : scanLabels noSetup emptyRequest = ["metadata:integrity"] := by
    rw [scanLabels, emptyRequest_evidence]
    rfl
  refine ⟨?_, ?_, ?_⟩
  · rw [hlabels]
    decide
  · rw [hlabels]
    exact List.forall_mem_singleton.mpr (oneLineWithin_of_chars rfl (by decide +kernel))
  · rw [emptyRequest_evidence]
    exact .inl (by decide)

theorem exists_assess_of_few_emptyRequest : ∃ assessment, assessInstallationRisk noSetup emptyRequest = .ok assessment := by
  refine exists_assess_of_few scanLibrary_sha256Length ?_ ?_ fun label hlabel => ?_
  · rw [emptyRequest_evidence]
    decide
  · decide +kernel
  · have hlines : ∀ label ∈ possibleLabels emptyRequest.objectCandidate.entries, lineChars 512 label.toList = true := by
      decide +kernel
    exact oneLineWithin_of_chars String.ofList_toList.symm (hlines label hlabel)

/-- The object is assessed, and its missing manifest shows. -/
theorem emptyRequest_faithful : ∃ assessment, assessInstallationRisk noSetup emptyRequest = .ok assessment ∧
    Faithful noSetup emptyRequest assessment :=
  (@assessInstallationRisk_faithful_iff scanLibrary plainScans noSetup emptyRequest emptyRequest_distinguishes
    (pythonLibrary_jsonRuntime _ _) scanLibrary_sha256Length).mpr emptyRequest_assessable

/-! ## A file with a long name -/

/-- A program of one octet that is no text. -/
def programEntry (length : Nat) : SnapshotEntry :=
  { namedEntry length with kind := .file, content := [255], executable := true }

theorem programEntry_normalized (length : Nat) :
    normalizedEntries [programEntry (length + 2)] = .ok [programEntry (length + 2)] := by
  have hcanonical : Canonical (programEntry (length + 2)).path := namedEntry_canonical (fun _ => rfl) length
  have hformed : WellFormed [programEntry (length + 2)] := by
    refine ⟨⟨List.forall_mem_singleton.mpr hcanonical, by simp, ?_, ?_, ?_, ?_⟩, ?_⟩
    · exact List.forall_mem_singleton.mpr (by decide : 1 ≤ maxEntryDepth)
    · exact List.forall_mem_singleton.mpr (by simp [SnapshotEntry.plain, programEntry, maxFileBytes])
    · exact (by decide : 1 ≤ maxFiles)
    · exact (by decide : 1 ≤ maxTotalBytes)
    · intro directory hdirectory
      exact absurd hdirectory List.not_mem_nil
  exact (normalizedEntries_eq_ok fun _ _ _ => rfl).mpr ⟨List.cons_ne_nil _ _, (by decide : 1 ≤ maxEntries), hformed, rfl⟩

theorem sortEntries_fields (executable kind path content : Json) :
    sortEntries [("executable", executable), ("kind", kind), ("path", path), ("content_base64", content)] =
      [("content_base64", content), ("executable", executable), ("kind", kind), ("path", path)] := by
  have hpath : ¬ "path" ≤ "content_base64" := by decide
  have hkind : ¬ "kind" ≤ "content_base64" := by decide
  have hexecutable : ¬ "executable" ≤ "content_base64" := by decide
  have hfirst : "executable" ≤ "kind" := by decide
  have hsecond : "kind" ≤ "path" := by decide
  simp [sortEntries, List.insertionSort, List.orderedInsert, hpath, hkind, hexecutable, hfirst, hsecond]

theorem length_programEntry (length : Nat) : (envelopeBytes [programEntry length]).length ≤ 4 * (12 * length + 400) := by
  have hruntime : JsonRuntime := pythonLibrary_jsonRuntime _ _
  have hentry : jsonObject (snapshotEntryTable (programEntry length)) =
      .obj [("content_base64", .str (String.ofList (Base64.encode [255]))), ("executable", .bool true),
        ("kind", .str "file"), ("path", .str (programEntry length).path.str)] := by
    exact congrArg Json.obj (sortEntries_fields _ _ _ _)
  have hobject : jsonObject (envelopeTable [programEntry length]) =
      .obj [("entries", .arr [jsonObject (snapshotEntryTable (programEntry length))]), ("schema_version", .int 1)] :=
    congrArg Json.obj (sortEntries_eq (by decide : ["entries", "schema_version"].Pairwise (· < ·)))
  have hpath := JsonText.length_printText_le (programEntry length).path.str
  have hname : (programEntry length).path.str.length = length := by
    show (namedEntry length).path.str.length = length
    rw [namedEntry_str, String.length_ofList, List.length_replicate]
  rw [hname] at hpath
  have hfront : (JsonText.printText "entries").length + (JsonText.printText "schema_version").length +
      (JsonText.printInt 1).length + (JsonText.printText "content_base64").length +
      (JsonText.printText (String.ofList (Base64.encode [255]))).length + (JsonText.printText "executable").length +
      (JsonText.printText "kind").length + (JsonText.printText "file").length + (JsonText.printText "path").length ≤ 200 := by
    decide +kernel
  rw [envelopeBytes, canonicalJsonBytes_eq (frozen_envelopeTable _), hobject, hentry]
  refine (length_encodeUtf8_le _).trans ?_
  simp only [JsonText.print, JsonText.printItems, JsonText.printEntries, JsonText.compact, List.length_append,
    List.length_cons, List.length_nil]
  omega

def programData (length : Nat) : EnvelopeData :=
  ⟨sha256Bytes (envelopeBytes [programEntry length]), [programEntry length], envelopeBytes [programEntry length]⟩

theorem programData_valid (length : Nat) (hsize : 4 * (12 * (length + 2) + 400) ≤ maxEnvelopeBytes) :
    (programData (length + 2)).valid = true :=
  valid_iff.mpr ⟨validDigest_sha256Bytes scanLibrary_sha256Length _, (length_programEntry (length + 2)).trans hsize,
    rfl, programEntry_normalized length, rfl⟩

/-- The object holds one program, whose name has some number of letters. -/
def programRequest (length : Nat) (hsize : 4 * (12 * (length + 2) + 400) ≤ maxEnvelopeBytes) : BaselineScanRequest where
  objectCandidate := ⟨programData (length + 2), programData_valid length hsize⟩
  artifact := sampleArtifact (programData (length + 2)).digest

theorem programEntry_unread (length : Nat) : scanText (programEntry length) = .error .textDecodeFailed := by
  have hdecode : decodeUtf8 (programEntry length).content = none := by
    show decodeUtf8 [255] = none
    decide +kernel
  have hsize : ¬ (programEntry length).content.length > maxScannedFileBytes := by
    show ¬ 1 > maxScannedFileBytes
    decide
  rw [scanText, if_neg hsize, hdecode]

theorem programRequest_label {length : Nat} (hsize : 4 * (12 * (length + 2) + 400) ≤ maxEnvelopeBytes) :
    skipLabel "credentials" (programEntry (length + 2)) "text-decode-failed" ∈
      (scanEvidence noSetup (programRequest length hsize)).skipped := by
  have hselects : textLike (programEntry (length + 2)) = true := by
    simp [textLike, programEntry]
  have hfiles : credentialScanner.files [programEntry (length + 2)] = [programEntry (length + 2)] := by
    show [programEntry (length + 2)].filter (fun entry => entry.kind == .file && textLike entry) = _
    rw [List.filter_cons, hselects]
    rfl
  have hscan : credentialScan (programEntry (length + 2)) =
      unread "credentials" (programEntry (length + 2)) .textDecodeFailed "text-decode-failed" := by
    rw [credentialScan, scanFile, programEntry_unread]
    rfl
  have hrun : (credentialScanner.run [programEntry (length + 2)]).2 =
      [skipLabel "credentials" (programEntry (length + 2)) "text-decode-failed"] := by
    rw [Scanner.run, hfiles]
    show (scanFiles "credentials" [] [] [credentialScan (programEntry (length + 2))]).2 = _
    rw [hscan]
    rfl
  refine List.mem_append_right _ (List.mem_flatMap.mpr ⟨credentialScanner.run [programEntry (length + 2)], ?_, ?_⟩)
  · exact List.mem_map.mpr ⟨credentialScanner, by simp [scanners], rfl⟩
  · rw [hrun]
    exact List.mem_singleton_self _

/-- A name of that length makes a label that the constructor of the coverage refuses. -/
theorem assess_programRequest {length : Nat} (hsize : 4 * (12 * (length + 2) + 400) ≤ maxEnvelopeBytes)
    (hlong : 510 ≤ length) (assessment : SecurityAssessment) :
    assessInstallationRisk noSetup (programRequest length hsize) ≠ .ok assessment := by
  intro hassess
  obtain ⟨hholds, _, hlines⟩ := holds_of_assess hassess
  have hmem : skipLabel "credentials" (programEntry (length + 2)) "text-decode-failed" ∈ assessment.coverage.skipped := by
    rw [hholds.coverage]
    exact Schema.mem_sortedSet.mpr (List.mem_append_left _ (programRequest_label hsize))
  have hline := hlines _ hmem
  have hlength : (programEntry (length + 2)).path.str.length = length + 2 := by
    show (namedEntry (length + 2)).path.str.length = length + 2
    rw [namedEntry_str, String.length_ofList, List.length_replicate]
  have hcolon : 1 ≤ (":" : String).length := by decide
  have hlabel : 512 < (skipLabel "credentials" (programEntry (length + 2)) "text-decode-failed").length := by
    rw [skipLabel]
    simp only [String.length_append, hlength]
    omega
  simp only [oneLineWithin, Bool.and_eq_true, decide_eq_true_eq] at hline
  omega

/-- A program with a name of 512 letters is not assessed. -/
theorem assessInstallationRisk_raises : ∃ request : BaselineScanRequest, ∀ assessment,
    assessInstallationRisk noSetup request ≠ .ok assessment :=
  ⟨programRequest 510 (by decide), assess_programRequest (by decide) (Nat.le_refl 510)⟩

end Samples

end AgentArtifacts.Security
