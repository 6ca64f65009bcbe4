import AgentArtifacts.Security.Aggregation

/-!
# What a bundle summary says

The summary depends on the set of the evidence alone. It exists exactly when the reasons that the
artifacts give for what was skipped fit the coverage of one assessment.
-/

namespace AgentArtifacts.Security

open Consumer (coordinate_str_injective)
open Registry (sortedBy sortedSet perm_sortedBy mem_sortedBy)
open Schema (sortedBy_eq_self pairwise_sortedBy nodup_sortedSet mem_sortedSet sortedSet_sortedSet sortedSet_eq_of_perm)

section Facts

variable [StandardLibrary]

/-- No coordinate has two different items of evidence. -/
def Consistent (evidence : List ArtifactSecurityEvidence) : Prop :=
  ∀ first ∈ evidence, ∀ second ∈ evidence, first.coordinate = second.coordinate → first = second

/-! ## Deduplication -/

/-- A list by coordinate, each once. -/
structure Deduplicated (items : List ArtifactSecurityEvidence) : Prop where
  distinct : (items.map (·.coordinate)).Nodup
  sorted : items.Pairwise fun a b => a.coordinate.str ≤ b.coordinate.str

variable {items : List ArtifactSecurityEvidence}

theorem Deduplicated.nodup (h : Deduplicated items) : items.Nodup :=
  List.Nodup.of_map _ h.distinct

/-- Deduplicated lists are determined by their members. -/
theorem Deduplicated.ext {left right : List ArtifactSecurityEvidence} (hleft : Deduplicated left)
    (hright : Deduplicated right) (h : ∀ item, item ∈ left ↔ item ∈ right) : left = right := by
  have hperm : left.Perm right := (List.perm_ext_iff_of_nodup hleft.nodup hright.nodup).mpr h
  refine hperm.eq_of_pairwise (fun a b ha hb hab hba => ?_) hleft.sorted hright.sorted
  have hcoordinate := coordinate_str_injective (le_antisymm hab hba)
  exact List.inj_on_of_nodup_map hleft.distinct ha ((h b).mpr hb) hcoordinate

theorem recordEvidence_foldlM {evidence byCoordinate : List ArtifactSecurityEvidence}
    (hconsistent : Consistent (byCoordinate ++ evidence)) (hdistinct : (byCoordinate.map (·.coordinate)).Nodup) :
    ∃ result, evidence.foldlM recordEvidence byCoordinate = .ok result ∧ (result.map (·.coordinate)).Nodup ∧
      ∀ item, item ∈ result ↔ item ∈ byCoordinate ∨ item ∈ evidence := by
  induction evidence generalizing byCoordinate with
  | nil => exact ⟨byCoordinate, rfl, hdistinct, by simp⟩
  | cons item rest ih =>
      rw [List.foldlM_cons]
      cases hfind : byCoordinate.find? fun existing => existing.coordinate == item.coordinate with
      | some existing =>
          have hmem := List.mem_of_find?_eq_some hfind
          have hcoordinate : existing.coordinate = item.coordinate := by simpa using List.find?_some hfind
          have hsame : existing = item := hconsistent existing (by simp [hmem]) item (by simp) hcoordinate
          have hstep : recordEvidence byCoordinate item = .ok byCoordinate := by
            rw [recordEvidence, hfind]
            exact if_pos hsame
          rw [hstep]
          have hrest : Consistent (byCoordinate ++ rest) := by
            intro first hfirst second hsecond
            refine hconsistent first ?_ second ?_
            · exact List.mem_append.mpr ((List.mem_append.mp hfirst).imp_right (List.mem_cons_of_mem item))
            · exact List.mem_append.mpr ((List.mem_append.mp hsecond).imp_right (List.mem_cons_of_mem item))
          obtain ⟨result, hresult, hnodup, hmembers⟩ := ih hrest hdistinct
          refine ⟨result, hresult, hnodup, fun other => ?_⟩
          rw [hmembers, List.mem_cons]
          constructor
          · exact Or.imp_right Or.inr
          · rintro (hother | rfl | hother)
            · exact Or.inl hother
            · exact Or.inl (hsame ▸ hmem)
            · exact Or.inr hother
      | none =>
          have hstep : recordEvidence byCoordinate item = .ok (byCoordinate ++ [item]) := by
            rw [recordEvidence, hfind]
          have hnew : item.coordinate ∉ byCoordinate.map (·.coordinate) := by
            intro hmem
            obtain ⟨existing, hexisting, hcoordinate⟩ := List.mem_map.mp hmem
            have hnot := List.find?_eq_none.mp hfind existing hexisting
            exact hnot (by simpa using hcoordinate)
          rw [hstep]
          have hrest : Consistent (byCoordinate ++ [item] ++ rest) := by
            rw [List.append_assoc]
            exact hconsistent
          have hnodup : ((byCoordinate ++ [item]).map (·.coordinate)).Nodup := by
            rw [List.map_append]
            refine List.Nodup.append hdistinct (List.nodup_singleton _) ?_
            simpa using hnew
          obtain ⟨result, hresult, hresultNodup, hmembers⟩ := ih hrest hnodup
          refine ⟨result, hresult, hresultNodup, fun other => ?_⟩
          rw [hmembers]
          simp [or_assoc]

theorem deduplicate_ok {evidence : List ArtifactSecurityEvidence} (hne : evidence ≠ []) (hconsistent : Consistent evidence) :
    ∃ items, deduplicate evidence = .ok items ∧ Deduplicated items ∧ ∀ item, item ∈ items ↔ item ∈ evidence := by
  obtain ⟨byCoordinate, hfold, hdistinct, hmembers⟩ :=
    @recordEvidence_foldlM _ evidence [] (by simpa using hconsistent) List.nodup_nil
  have hperm := perm_sortedBy (fun item : ArtifactSecurityEvidence => item.coordinate.str) byCoordinate
  have hmem : ∀ item, item ∈ sortedBy (fun item : ArtifactSecurityEvidence => item.coordinate.str) byCoordinate ↔
      item ∈ evidence := by
    intro item
    rw [hperm.mem_iff, hmembers]
    simp
  refine ⟨_, ?_, ⟨?_, pairwise_sortedBy _ byCoordinate⟩, hmem⟩
  · have hempty : (sortedBy (fun item : ArtifactSecurityEvidence => item.coordinate.str) byCoordinate).isEmpty = false := by
      obtain ⟨item, hitem⟩ := List.exists_mem_of_ne_nil evidence hne
      rw [List.isEmpty_eq_false_iff]
      exact List.ne_nil_of_mem ((hmem item).mpr hitem)
    unfold deduplicate
    rw [hfold]
    show (if (sortedBy (fun item : ArtifactSecurityEvidence => item.coordinate.str) byCoordinate).isEmpty = true then _
      else _) = _
    rw [hempty]
    rfl
  · exact (hperm.map _).nodup_iff.mpr hdistinct

/-- Deduplication forgets order and repetition. -/
theorem deduplicate_eq {left right items : List ArtifactSecurityEvidence} (hleft : deduplicate left = .ok items)
    (hne : left ≠ []) (hconsistent : Consistent left) (h : ∀ item, item ∈ right ↔ item ∈ left) :
    deduplicate right = .ok items := by
  obtain ⟨leftItems, hleftItems, hleftDedup, hleftMembers⟩ := deduplicate_ok hne hconsistent
  have hneRight : right ≠ [] := by
    obtain ⟨item, hitem⟩ := List.exists_mem_of_ne_nil left hne
    exact List.ne_nil_of_mem ((h item).mpr hitem)
  have hconsistentRight : Consistent right := fun first hfirst second hsecond =>
    hconsistent first ((h first).mp hfirst) second ((h second).mp hsecond)
  obtain ⟨rightItems, hrightItems, hrightDedup, hrightMembers⟩ := deduplicate_ok hneRight hconsistentRight
  obtain rfl := Except.ok.inj (hleftItems.symm.trans hleft)
  have hsame : rightItems = leftItems := hrightDedup.ext hleftDedup fun item => by
    rw [hrightMembers, hleftMembers, h]
  rw [hrightItems, hsame]

/-! ## The mean -/

omit [StandardLibrary] in
theorem sum_bounds {scores : List Nat} {low high : Nat} (h : ∀ score ∈ scores, low ≤ score ∧ score ≤ high) :
    low * scores.length ≤ scores.sum ∧ scores.sum ≤ high * scores.length := by
  induction scores with
  | nil => simp
  | cons score scores ih =>
      obtain ⟨hlow, hhigh⟩ := h score List.mem_cons_self
      obtain ⟨ihLow, ihHigh⟩ := ih fun other hother => h other (List.mem_cons_of_mem score hother)
      rw [List.length_cons, List.sum_cons, Nat.mul_succ, Nat.mul_succ]
      omega

omit [StandardLibrary] in
/-- The rounded mean lies between the bounds of its scores. -/
theorem mean_bounds {scores : List Nat} {low high : Nat} (hne : scores ≠ [])
    (h : ∀ score ∈ scores, low ≤ score ∧ score ≤ high) :
    1000 * low ≤ (scores.sum * 1000 + scores.length / 2) / scores.length ∧
      (scores.sum * 1000 + scores.length / 2) / scores.length ≤ 1000 * high := by
  obtain ⟨hlow, hhigh⟩ := sum_bounds h
  have hpositive := List.length_pos_iff.mpr hne
  constructor
  · rw [Nat.le_div_iff_mul_le hpositive]
    have hscaled := Nat.mul_le_mul_right 1000 hlow
    calc 1000 * low * scores.length = low * scores.length * 1000 := by rw [Nat.mul_assoc, Nat.mul_comm 1000]
      _ ≤ scores.sum * 1000 := hscaled
      _ ≤ scores.sum * 1000 + scores.length / 2 := Nat.le_add_right _ _
  · rw [← Nat.lt_succ_iff, Nat.div_lt_iff_lt_mul hpositive]
    have hscaled := Nat.mul_le_mul_right 1000 hhigh
    have hhalf : scores.length / 2 < scores.length := Nat.div_lt_self hpositive (by decide)
    calc scores.sum * 1000 + scores.length / 2 < high * scores.length * 1000 + scores.length := by omega
      _ = (1000 * high + 1) * scores.length := by rw [Nat.add_mul, Nat.one_mul, Nat.mul_assoc 1000, Nat.mul_comm 1000]

/-! ## Counts -/

omit [StandardLibrary] in
theorem sum_indicator {β : Type} [DecidableEq β] (members : List β) (value : β) :
    (members.map fun member => if value == member then 1 else 0).sum = members.count value := by
  induction members with
  | nil => rfl
  | cons member members ih =>
      rw [List.map_cons, List.sum_cons, ih, List.count_cons, Nat.add_comm]
      by_cases hsame : value = member
      · simp [hsame]
      · simp [hsame, Ne.symm hsame]

omit [StandardLibrary] in
/-- Counting by every member of an enumeration counts each item once. -/
theorem sum_countP_enumeration {α β : Type} [DecidableEq β] {members : List β} (hnodup : members.Nodup) (key : α → β)
    (hmembers : ∀ item, key item ∈ members) (items : List α) :
    (members.map fun member => items.countP fun item => key item == member).sum = items.length := by
  induction items with
  | nil => simp
  | cons item items ih =>
      have hstep : (members.map fun member => (item :: items).countP fun item => key item == member) =
          members.map fun member => (items.countP fun item => key item == member) + if key item == member then 1 else 0 := by
        refine List.map_congr_left fun member _ => ?_
        rw [List.countP_cons]
      have hone : (members.map fun member => if key item == member then 1 else 0).sum = 1 := by
        rw [sum_indicator]
        exact List.count_eq_one_of_mem hnodup (hmembers item)
      rw [hstep, List.sum_map_add, ih, hone, List.length_cons]

theorem sum_statusCounts (items : List ArtifactSecurityEvidence) :
    (assessmentStatuses.map fun status => items.countP fun item => item.assessment.status == status).sum = items.length :=
  sum_countP_enumeration (by decide) (fun item : ArtifactSecurityEvidence => item.assessment.status)
    (fun item => by cases item.assessment.status <;> decide) items

theorem sum_findingCounts (items : List ArtifactSecurityEvidence) :
    (findingSeverities.map fun severity =>
      (items.map fun item => item.assessment.findings.countP fun finding => finding.severity == severity).sum).sum =
      (items.map fun item => item.assessment.findings.length).sum := by
  induction items with
  | nil => rfl
  | cons item items ih =>
      have hitem := sum_countP_enumeration (by decide) SecurityFinding.severity
        (fun finding => by cases finding.severity <;> decide : ∀ finding : SecurityFinding, finding.severity ∈ findingSeverities)
        item.assessment.findings
      simp only [List.map_cons, List.sum_cons, List.sum_map_add, ih, hitem]

/-! ## Coverage -/

/-- The texts of what was skipped fit one coverage. -/
def FitsCoverage (evidence : List ArtifactSecurityEvidence) : Prop :=
  (evidence.flatMap skippedReasons).dedup.length ≤ 512 ∧
    ∀ reason ∈ evidence.flatMap skippedReasons, oneLineWithin 512 reason = true

theorem FitsCoverage.congr {left right : List ArtifactSecurityEvidence} (h : ∀ item, item ∈ left ↔ item ∈ right) :
    FitsCoverage left ↔ FitsCoverage right := by
  have hmem : ∀ reason, reason ∈ left.flatMap skippedReasons ↔ reason ∈ right.flatMap skippedReasons := by
    intro reason
    simp only [List.mem_flatMap, h]
  have hperm : (left.flatMap skippedReasons).dedup.Perm (right.flatMap skippedReasons).dedup := by
    refine (List.perm_ext_iff_of_nodup (List.nodup_dedup _) (List.nodup_dedup _)).mpr fun reason => ?_
    rw [List.mem_dedup, List.mem_dedup, hmem]
  unfold FitsCoverage
  rw [hperm.length_eq]
  simp only [hmem]

/-- The coverage of a bundle is accepted exactly when its reasons fit. -/
theorem coverage_of_items (hne : items ≠ []) :
    (∃ coverage, bundleCoverage items = .ok coverage) ↔ FitsCoverage items := by
  have hsums : ∀ items : List ArtifactSecurityEvidence, (items.map fun item => item.assessment.coverage.completed).sum ≤
      (items.map fun item => item.assessment.coverage.expected).sum ∧
      items.length ≤ (items.map fun item => item.assessment.coverage.expected).sum := by
    intro items
    induction items with
    | nil => exact ⟨Nat.le_refl _, Nat.le_refl _⟩
    | cons item items ih =>
        simp only [List.map_cons, List.sum_cons, List.length_cons]
        have hwithin := item.assessment.coverage.within
        have hpositive := item.assessment.coverage.positive
        omega
  have hlength : (sortedSet (items.flatMap skippedReasons)).length = (items.flatMap skippedReasons).dedup.length :=
    (perm_sortedBy id _).length_eq
  have hpositive := List.length_pos_iff.mpr hne
  obtain ⟨hwithin, hexpected⟩ := hsums items
  unfold bundleCoverage AssessmentCoverage.make FitsCoverage
  dsimp only
  constructor
  · rintro ⟨coverage, hcoverage⟩
    split at hcoverage
    · rename_i hchecks
      refine ⟨hlength ▸ hchecks.2.2.1, fun reason hreason => hchecks.2.2.2 reason (mem_sortedSet.mpr hreason)⟩
    · cases hcoverage
  · rintro ⟨hbounded, hlines⟩
    rw [dif_pos ⟨by omega, hwithin, hlength ▸ hbounded, fun reason hreason => hlines reason (mem_sortedSet.mp hreason)⟩]
    exact ⟨_, rfl⟩

omit [StandardLibrary] in
theorem make_eq_ok {completed expected : Nat} {skipped : List String} {coverage : AssessmentCoverage}
    (h : AssessmentCoverage.make completed expected skipped = .ok coverage) :
    coverage.completed = completed ∧ coverage.expected = expected ∧ coverage.skipped = sortedSet skipped := by
  unfold AssessmentCoverage.make at h
  dsimp only at h
  split at h
  · obtain rfl := Except.ok.inj h
    exact ⟨rfl, rfl, rfl⟩
  · cases h

omit [StandardLibrary] in
theorem complete_iff (coverage : AssessmentCoverage) :
    coverage.complete = true ↔ coverage.completed = coverage.expected ∧ coverage.skipped = [] := by
  simp [AssessmentCoverage.complete]

/-- A bundle is covered completely when each of its artifacts is. -/
theorem complete_of_items {coverage : AssessmentCoverage}
    (h : bundleCoverage items = .ok coverage) :
    coverage.complete = true ↔ ∀ item ∈ items, item.assessment.coverage.complete = true := by
  obtain ⟨hcompleted, hexpected, hskipped⟩ := make_eq_ok h
  have hreasons : coverage.skipped = [] ↔ ∀ item ∈ items, item.assessment.coverage.skipped = [] := by
    rw [hskipped, List.eq_nil_iff_forall_not_mem]
    simp only [mem_sortedSet, List.mem_flatMap, skippedReasons, List.mem_map, not_exists, not_and]
    constructor
    · intro hnone item hitem
      refine List.eq_nil_iff_forall_not_mem.mpr fun reason hreason => ?_
      exact hnone _ item hitem reason hreason rfl
    · intro hempty reason item hitem skipped hmem
      rw [hempty item hitem] at hmem
      cases hmem
  have hcounts : ∀ items : List ArtifactSecurityEvidence, (items.map fun item => item.assessment.coverage.completed).sum ≤
      (items.map fun item => item.assessment.coverage.expected).sum ∧
      ((items.map fun item => item.assessment.coverage.completed).sum =
        (items.map fun item => item.assessment.coverage.expected).sum ↔
        ∀ item ∈ items, item.assessment.coverage.completed = item.assessment.coverage.expected) := by
    intro items
    induction items with
    | nil => simp
    | cons item items ih =>
        have hwithin := item.assessment.coverage.within
        obtain ⟨hle, hiff⟩ := ih
        simp only [List.map_cons, List.sum_cons, List.forall_mem_cons, ← hiff]
        omega
  rw [complete_iff, hreasons, hcompleted, hexpected, (hcounts items).2]
  simp only [complete_iff]
  exact ⟨fun hboth item hitem => ⟨hboth.1 item hitem, hboth.2 item hitem⟩,
    fun hall => ⟨fun item hitem => (hall item hitem).1, fun item hitem => (hall item hitem).2⟩⟩

/-! ## The summary -/

theorem sortedCoordinates_of_deduplicated (h : Deduplicated items) :
    sortedCoordinates (items.map (·.coordinate)) = items.map (·.coordinate) := by
  rw [sortedCoordinates, h.distinct.dedup]
  exact sortedBy_eq_self (List.pairwise_map.mpr h.sorted)

omit [StandardLibrary] in
theorem mem_sortedCoordinates {coordinates : List ArtifactCoordinate} {coordinate : ArtifactCoordinate} :
    coordinate ∈ sortedCoordinates coordinates ↔ coordinate ∈ coordinates := by
  rw [sortedCoordinates, mem_sortedBy, List.mem_dedup]

theorem mem_knownRisks {entry : ArtifactSecurityEvidence × Nat} :
    entry ∈ knownRisks items ↔ entry.1 ∈ items ∧ riskScore entry.1.assessment.installationRisk = some entry.2 := by
  obtain ⟨item, score⟩ := entry
  rw [knownRisks, List.mem_filterMap]
  constructor
  · rintro ⟨other, hother, hscore⟩
    obtain ⟨found, hfound, hpair⟩ := Option.map_eq_some_iff.mp hscore
    obtain ⟨rfl, rfl⟩ := Prod.mk.inj hpair
    exact ⟨hother, hfound⟩
  · rintro ⟨hitem, hscore⟩
    exact ⟨item, hitem, by rw [hscore]; rfl⟩

omit [StandardLibrary] in
theorem riskScore_bounds {risk : InstallationRisk} {score : Nat} (h : riskScore risk = some score) : 1 ≤ score ∧ score ≤ 4 := by
  cases risk with
  | unknown => cases h
  | low => obtain rfl := Option.some.inj h; decide
  | medium => obtain rfl := Option.some.inj h; decide
  | high => obtain rfl := Option.some.inj h; decide
  | critical => obtain rfl := Option.some.inj h; decide

theorem known_scores {score : Nat} (h : score ∈ (knownRisks items).map (·.2)) :
    ∃ item ∈ items, riskScore item.assessment.installationRisk = some score := by
  obtain ⟨entry, hentry, rfl⟩ := List.mem_map.mp h
  obtain ⟨hitem, hscore⟩ := mem_knownRisks.mp hentry
  exact ⟨entry.1, hitem, hscore⟩

omit [StandardLibrary] in
/-- The constructor accepts what it is given of deduplicated evidence. -/
theorem make_summary_eq {summary : BundleSecuritySummary} (hartifacts : sortedCoordinates summary.artifacts = summary.artifacts)
    (hne : summary.artifacts ≠ []) (hcount : summary.artifactCount = summary.artifacts.length)
    (hmean : ∀ mean, summary.meanRiskMilli = some mean → 1000 ≤ mean ∧ mean ≤ 4000)
    (hknown : summary.knownRiskCount ≤ summary.artifactCount)
    (hnone : summary.knownRiskCount = 0 ↔ summary.meanRiskMilli = none)
    (hmembers : ∀ coordinate ∈ summary.worstArtifacts ++ summary.unknownArtifacts ++ summary.staleArtifacts,
      coordinate ∈ summary.artifacts)
    (hproviders : sortedSet summary.providerIds = summary.providerIds)
    (hfindings : summary.findingCounts.map (·.1) = findingSeverities)
    (hstatuses : summary.statusCounts.map (·.1) = assessmentStatuses) :
    BundleSecuritySummary.make summary = .ok { summary with
      worstArtifacts := sortedCoordinates summary.worstArtifacts
      unknownArtifacts := sortedCoordinates summary.unknownArtifacts
      staleArtifacts := sortedCoordinates summary.staleArtifacts } := by
  have hmeanCheck : summary.meanRiskMilli.any (fun mean => !(decide (1000 ≤ mean) && decide (mean ≤ 4000))) = false := by
    cases hvalue : summary.meanRiskMilli with
    | none => rfl
    | some mean =>
        obtain ⟨hlow, hhigh⟩ := hmean mean hvalue
        simp [hlow, hhigh]
  have hnoneCheck : ((summary.knownRiskCount == 0) != summary.meanRiskMilli.isNone) = false := by
    cases hvalue : summary.meanRiskMilli with
    | none => simp [hnone.mpr hvalue]
    | some mean =>
        have hpositive : summary.knownRiskCount ≠ 0 := fun hzero => by
          rw [hnone.mp hzero] at hvalue
          cases hvalue
        simp [hpositive]
  have hmembersCheck : (sortedCoordinates summary.worstArtifacts ++ sortedCoordinates summary.unknownArtifacts ++
      sortedCoordinates summary.staleArtifacts).any (fun item => !summary.artifacts.contains item) = false := by
    rw [List.any_eq_false]
    intro item hitem
    have hmem := hmembers item (by simpa [mem_sortedCoordinates] using hitem)
    simpa using hmem
  have hempty : summary.artifacts.isEmpty = false := by simpa using hne
  have hbelow : decide (summary.artifactCount < summary.knownRiskCount) = false := by simpa using hknown
  unfold BundleSecuritySummary.make
  dsimp only
  rw [hartifacts, hmeanCheck, hnoneCheck, hmembersCheck, hempty, hbelow, hproviders, hfindings, hstatuses, hcount]
  simp

/-- What a summary says of the evidence it was made of. -/
structure Describes (evidence : List ArtifactSecurityEvidence) (summary : BundleSecuritySummary) : Prop where
  artifacts : ∀ coordinate, coordinate ∈ summary.artifacts ↔ ∃ item ∈ evidence, item.coordinate = coordinate
  count : summary.artifactCount = (evidence.map (·.coordinate)).dedup.length
  known : summary.meanRiskMilli = none ↔ ∀ item ∈ evidence, riskScore item.assessment.installationRisk = none
  mean : ∀ mean, summary.meanRiskMilli = some mean → ∃ low high,
    (∃ item ∈ evidence, riskScore item.assessment.installationRisk = some low) ∧
    (∃ item ∈ evidence, riskScore item.assessment.installationRisk = some high) ∧
    (∀ item ∈ evidence, ∀ score, riskScore item.assessment.installationRisk = some score → low ≤ score ∧ score ≤ high) ∧
    1000 * low ≤ mean ∧ mean ≤ 1000 * high
  statuses : (summary.statusCounts.map (·.2)).sum = summary.artifactCount
  findings : (summary.findingCounts.map (·.2)).sum = (evidence.dedup.map fun item => item.assessment.findings.length).sum
  coverage : summary.coverage.complete = true ↔ ∀ item ∈ evidence, item.assessment.coverage.complete = true

theorem scores_empty_iff :
    (knownRisks items).map (·.2) = [] ↔ ∀ item ∈ items, riskScore item.assessment.installationRisk = none := by
  rw [List.map_eq_nil_iff, List.eq_nil_iff_forall_not_mem]
  constructor
  · intro hnone item hitem
    cases hrisk : riskScore item.assessment.installationRisk with
    | none => rfl
    | some score => exact absurd (mem_knownRisks.mpr ⟨hitem, hrisk⟩) (hnone (item, score))
  · intro hnone entry hentry
    obtain ⟨hitem, hrisk⟩ := mem_knownRisks.mp hentry
    rw [hnone entry.1 hitem] at hrisk
    cases hrisk

theorem meanMilli_eq_none :
    meanMilli items = none ↔ (knownRisks items).map (·.2) = [] := by
  unfold meanMilli
  dsimp only
  by_cases hempty : (knownRisks items).map (·.2) = []
  · simp [hempty]
  · rw [if_neg (by simpa using hempty)]
    simp only [reduceCtorEq, false_iff]
    exact hempty

theorem meanMilli_bounds {low high mean : Nat}
    (hbounds : ∀ score ∈ (knownRisks items).map (·.2), low ≤ score ∧ score ≤ high) (h : meanMilli items = some mean) :
    1000 * low ≤ mean ∧ mean ≤ 1000 * high := by
  have hne : (knownRisks items).map (·.2) ≠ [] := fun hempty => by
    rw [meanMilli_eq_none.mpr hempty] at h
    cases h
  unfold meanMilli at h
  dsimp only at h
  rw [if_neg (by simpa using hne)] at h
  rw [← Option.some.inj h]
  exact mean_bounds hne hbounds

theorem worstCoordinates_subset {coordinate : ArtifactCoordinate}
    (h : coordinate ∈ worstCoordinates items) : coordinate ∈ items.map (·.coordinate) := by
  unfold worstCoordinates at h
  split at h
  · obtain ⟨entry, hentry, rfl⟩ := List.mem_map.mp h
    exact List.mem_map_of_mem (mem_knownRisks.mp (List.mem_of_mem_filter hentry)).1
  · exact h

/-- The constructor accepts the facts of a bundle. -/
theorem bundleFacts_make (hne : items ≠ []) (hdedup : Deduplicated items)
    (coverage : AssessmentCoverage) :
    (bundleFacts items coverage).make = .ok { bundleFacts items coverage with
      worstArtifacts := sortedCoordinates (bundleFacts items coverage).worstArtifacts
      unknownArtifacts := sortedCoordinates (bundleFacts items coverage).unknownArtifacts
      staleArtifacts := sortedCoordinates (bundleFacts items coverage).staleArtifacts } := by
  have hscores : ∀ score ∈ (knownRisks items).map (·.2), 1 ≤ score ∧ score ≤ 4 := by
    intro score hscore
    obtain ⟨item, _, hrisk⟩ := known_scores hscore
    exact riskScore_bounds hrisk
  have hsubset (p : ArtifactSecurityEvidence → Bool) {coordinate : ArtifactCoordinate}
      (h : coordinate ∈ (items.filter p).map (·.coordinate)) : coordinate ∈ items.map (·.coordinate) :=
    (List.filter_sublist.map _).subset h
  apply make_summary_eq (sortedCoordinates_of_deduplicated hdedup)
  · simpa [bundleFacts] using hne
  · simp [bundleFacts]
  · intro mean hmean
    exact meanMilli_bounds hscores hmean
  · exact List.length_filterMap_le _ _
  · show (knownRisks items).length = 0 ↔ meanMilli items = none
    rw [meanMilli_eq_none, List.map_eq_nil_iff, List.length_eq_zero_iff]
  · intro coordinate hcoordinate
    rcases List.mem_append.mp hcoordinate with hcoordinate | hcoordinate
    · rcases List.mem_append.mp hcoordinate with hcoordinate | hcoordinate
      · exact worstCoordinates_subset hcoordinate
      · exact hsubset _ hcoordinate
    · exact hsubset _ hcoordinate
  · exact sortedSet_sortedSet _
  · simp [bundleFacts, findingSeverities]
  · simp [bundleFacts, assessmentStatuses]

/-- Where the reasons of a bundle fit, it has a summary that describes it. -/
theorem summarize_ok {evidence : List ArtifactSecurityEvidence} (hne : evidence ≠ []) (hconsistent : Consistent evidence)
    (hfits : FitsCoverage evidence) :
    ∃ items coverage, deduplicate evidence = .ok items ∧ Deduplicated items ∧ (∀ item, item ∈ items ↔ item ∈ evidence) ∧
      bundleCoverage items = .ok coverage ∧ summarizeBundleSecurity evidence = (bundleFacts items coverage).make := by
  obtain ⟨items, hitems, hdedup, hmembers⟩ := deduplicate_ok hne hconsistent
  have hneItems : items ≠ [] := by
    obtain ⟨item, hitem⟩ := List.exists_mem_of_ne_nil evidence hne
    exact List.ne_nil_of_mem ((hmembers item).mpr hitem)
  obtain ⟨coverage, hcoverage⟩ := (coverage_of_items hneItems).mpr ((FitsCoverage.congr hmembers).mpr hfits)
  refine ⟨items, coverage, hitems, hdedup, hmembers, hcoverage, ?_⟩
  simp only [summarizeBundleSecurity, hitems, hcoverage, bind, Except.bind]

theorem fits_of_summary {evidence : List ArtifactSecurityEvidence} (hne : evidence ≠ []) (hconsistent : Consistent evidence)
    {summary : BundleSecuritySummary} (h : summarizeBundleSecurity evidence = .ok summary) : FitsCoverage evidence := by
  obtain ⟨items, hitems, hdedup, hmembers⟩ := deduplicate_ok hne hconsistent
  have hneItems : items ≠ [] := by
    obtain ⟨item, hitem⟩ := List.exists_mem_of_ne_nil evidence hne
    exact List.ne_nil_of_mem ((hmembers item).mpr hitem)
  rw [← FitsCoverage.congr hmembers, ← coverage_of_items hneItems]
  simp only [summarizeBundleSecurity, hitems, bind, Except.bind] at h
  split at h
  · cases h
  · exact ⟨_, ‹_›⟩

/-- What is made of the facts of a bundle describes it. -/
theorem describes_of_items {evidence items : List ArtifactSecurityEvidence} {coverage : AssessmentCoverage}
    (hdedup : Deduplicated items) (hmembers : ∀ item, item ∈ items ↔ item ∈ evidence)
    (hcoverage : bundleCoverage items = .ok coverage) {summary : BundleSecuritySummary} (hne : items ≠ [])
    (h : (bundleFacts items coverage).make = .ok summary) : Describes evidence summary := by
  rw [bundleFacts_make hne hdedup coverage] at h
  obtain rfl := Except.ok.inj h
  have hperm : items.Perm evidence.dedup :=
    (List.perm_ext_iff_of_nodup hdedup.nodup (List.nodup_dedup _)).mpr fun item => by rw [hmembers, List.mem_dedup]
  constructor
  · intro coordinate
    show coordinate ∈ items.map (·.coordinate) ↔ _
    rw [List.mem_map]
    simp only [hmembers]
  · show items.length = _
    have hcoordinates : (items.map (·.coordinate)).Perm (evidence.map (·.coordinate)).dedup := by
      refine (List.perm_ext_iff_of_nodup hdedup.distinct (List.nodup_dedup _)).mpr fun coordinate => ?_
      simp only [List.mem_dedup, List.mem_map, hmembers]
    rw [← hcoordinates.length_eq, List.length_map]
  · show meanMilli items = none ↔ _
    rw [meanMilli_eq_none, scores_empty_iff]
    simp only [hmembers]
  · intro mean hmean
    have hscores : (knownRisks items).map (·.2) ≠ [] := fun hempty => by
      have hnone : meanMilli items = none := meanMilli_eq_none.mpr hempty
      exact absurd (hnone.symm.trans hmean) (by simp)
    obtain ⟨low, hlow⟩ := Option.ne_none_iff_exists'.mp (mt List.min?_eq_none_iff.mp hscores)
    obtain ⟨high, hhigh⟩ := Option.ne_none_iff_exists'.mp (mt List.max?_eq_none_iff.mp hscores)
    obtain ⟨hlowMem, hlowLe⟩ := List.min?_eq_some_iff.mp hlow
    obtain ⟨hhighMem, hhighLe⟩ := List.max?_eq_some_iff.mp hhigh
    obtain ⟨least, hleast, hleastScore⟩ := known_scores hlowMem
    obtain ⟨most, hmost, hmostScore⟩ := known_scores hhighMem
    refine ⟨low, high, ⟨least, (hmembers least).mp hleast, hleastScore⟩, ⟨most, (hmembers most).mp hmost, hmostScore⟩, ?_, ?_⟩
    · intro item hitem score hscore
      have hmem : score ∈ (knownRisks items).map (·.2) :=
        List.mem_map.mpr ⟨(item, score), mem_knownRisks.mpr ⟨(hmembers item).mpr hitem, hscore⟩, rfl⟩
      exact ⟨hlowLe score hmem, hhighLe score hmem⟩
    · exact meanMilli_bounds (fun score hscore => ⟨hlowLe score hscore, hhighLe score hscore⟩) hmean
  · show ((assessmentStatuses.map fun status => (status, items.countP fun item => item.assessment.status == status)).map
      (·.2)).sum = items.length
    rw [List.map_map]
    exact sum_statusCounts items
  · show ((findingSeverities.map fun severity => (severity, (items.map fun item =>
      item.assessment.findings.countP fun finding => finding.severity == severity).sum)).map (·.2)).sum = _
    rw [List.map_map]
    exact (sum_findingCounts items).trans (hperm.map _).sum_eq
  · show coverage.complete = true ↔ _
    rw [complete_of_items hcoverage]
    simp only [hmembers]

/-- A bundle without conflicting evidence has a summary, the same for every order and repetition of
the evidence, exactly when what its artifacts say of skipped parts fits the coverage of one
assessment. -/
theorem summarizeBundleSecurity_iff {evidence : List ArtifactSecurityEvidence} (hne : evidence ≠ [])
    (hconsistent : Consistent evidence) :
    (∃ summary, summarizeBundleSecurity evidence = .ok summary ∧ Describes evidence summary ∧
      ∀ other, (∀ item, item ∈ other ↔ item ∈ evidence) → summarizeBundleSecurity other = .ok summary) ↔
      FitsCoverage evidence := by
  constructor
  · rintro ⟨summary, hsummary, _⟩
    exact fits_of_summary hne hconsistent hsummary
  · intro hfits
    obtain ⟨items, coverage, hitems, hdedup, hmembers, hcoverage, hsummarize⟩ := summarize_ok hne hconsistent hfits
    have hneItems : items ≠ [] := by
      obtain ⟨item, hitem⟩ := List.exists_mem_of_ne_nil evidence hne
      exact List.ne_nil_of_mem ((hmembers item).mpr hitem)
    have hmake := bundleFacts_make hneItems hdedup coverage
    refine ⟨_, hsummarize.trans hmake, describes_of_items hdedup hmembers hcoverage hneItems hmake, fun other hother => ?_⟩
    have hsame := deduplicate_eq hitems hne hconsistent hother
    simp only [summarizeBundleSecurity, hsame, hcoverage, bind, Except.bind]
    exact hmake

theorem consistent_singleton (item : ArtifactSecurityEvidence) : Consistent [item] := by
  intro first hfirst second hsecond _
  rw [List.mem_singleton.mp hfirst, List.mem_singleton.mp hsecond]

end Facts

/-! ## Samples -/

section Samples

attribute [local instance] plainLibrary

def fullCoverage : AssessmentCoverage := ⟨8, 8, [], by decide, by decide, by decide, by decide⟩

theorem oneLineWithin_replicate {length : Nat} (h : 0 < length ∧ length ≤ 512) :
    oneLineWithin 512 (String.ofList (List.replicate length 'r')) = true := by
  have hline : oneLine (String.ofList (List.replicate length 'r')) = true := by
    apply Manifest.oneLine_of_not_space
    · intro hempty
      have hlength := congrArg String.length hempty
      rw [String.length_ofList, List.length_replicate] at hlength
      exact absurd (hlength ▸ h.1) (by decide)
    · intro c hc
      rw [String.toList_ofList] at hc
      rw [List.eq_of_mem_replicate hc]
      decide
  rw [oneLineWithin, hline, String.length_ofList, List.length_replicate]
  simpa using h.2

/-- One part skipped, with a reason of so many letters. -/
def gapCoverage (length : Nat) (h : 0 < length ∧ length ≤ 512) : AssessmentCoverage :=
  ⟨7, 8, [String.ofList (List.replicate length 'r')], by decide, by decide, by simp, fun item hitem => by
    rw [List.mem_singleton.mp hitem]
    exact oneLineWithin_replicate h⟩

def baselineProvider (status : AssessmentStatus) (coverage : AssessmentCoverage)
    (hcomplete : status = .complete → coverage.complete = true) (hpart : status ≠ .notScanned)
    (hgap : status = .partly ∨ status = .failed → coverage.complete = false) : ProviderAssessment where
  id := "aart-baseline"
  version := "1"
  rulesDigest := sampleDigest '0'
  status := status
  coverage := coverage
  detail := "Baseline rules."
  id_valid := by decide
  version_line := by decide
  digest_valid := by decide
  detail_line := by decide
  complete_covers := hcomplete
  notScanned_empty h := absurd h hpart
  gap := hgap

def baselineFinding (severity : FindingSeverity) : SecurityFinding where
  providerId := "aart-baseline"
  ruleId := "rule"
  severity := severity
  message := "A rule fired."
  remediation := "Read the artifact."
  path := none
  line := none
  provider_valid := by decide
  rule_valid := by decide
  line_valid := by decide
  message_line := by decide
  remediation_line := by decide

/-- An assessment with one finding. -/
def assessedWith (status : AssessmentStatus) (coverage : AssessmentCoverage) (severity : FindingSeverity)
    (hcomplete : status = .complete → coverage.complete = true) (hstatus : status = .complete ∨ status = .partly)
    (hgap : status = .partly ∨ status = .failed → coverage.complete = false) : SecurityAssessment where
  objectDigest := sampleDigest '0'
  status := status
  installationRisk := riskFromEvidence status severity
  maxFindingSeverity := severity
  coverage := coverage
  findings := [baselineFinding severity]
  providers := [baselineProvider status coverage hcomplete (by rcases hstatus with rfl | rfl <;> decide) hgap]
  checks := {
    digest := by decide
    providers_nonempty := by simp
    bounded := by simp [maxFindings]
    fingerprints := by simp
    provider_ids := by simp
    known := by simp [baselineFinding, baselineProvider]
    maximum := by cases severity <;> rfl
    risk := rfl
    complete_covers := hcomplete
    gap := hgap
    complete_providers := by
      intro h
      simpa [baselineProvider] using h
    notScanned := by rcases hstatus with rfl | rfl <;> simp
    stale := by rcases hstatus with rfl | rfl <;> simp
    failed := by rcases hstatus with rfl | rfl <;> simp
    single := by simp [baselineProvider] }

def evidenceOf (name : String) (hname : isSlug name = true) (assessment : SecurityAssessment) : ArtifactSecurityEvidence :=
  ⟨⟨⟨"team", Eq.refl true⟩, ⟨.skill, ⟨name, hname⟩⟩, none⟩, assessment, .registryReviewed, none, by simp⟩

/-- A skill with a finding of medium severity and one part skipped. -/
def gapEvidence (length : Nat) (h : 0 < length ∧ length ≤ 512) : ArtifactSecurityEvidence :=
  evidenceOf "notes" (Eq.refl true)
    (assessedWith .partly (gapCoverage length h) .medium (fun h => by cases h) (Or.inr rfl) (fun _ => rfl))

theorem summarizeBundleSecurity_iff_notes :
    ∃ summary, summarizeBundleSecurity [gapEvidence 3 (by decide)] = .ok summary ∧
      Describes [gapEvidence 3 (by decide)] summary ∧
      ∀ other, (∀ item, item ∈ other ↔ item ∈ [gapEvidence 3 (by decide)]) → summarizeBundleSecurity other = .ok summary :=
  (summarizeBundleSecurity_iff (by simp) (consistent_singleton _)).mpr ⟨by decide +kernel, by decide +kernel⟩

/-- A reason of the greatest length does not fit with the coordinate before it. -/
theorem summarizeBundleSecurity_raises :
    ¬ ∃ summary, summarizeBundleSecurity [gapEvidence 512 (by decide)] = .ok summary := by
  rintro ⟨summary, hsummary⟩
  have hfits := fits_of_summary (by simp) (consistent_singleton _) hsummary
  have hmem : (gapEvidence 512 (by decide)).coordinate.str ++ ":" ++ String.ofList (List.replicate 512 'r') ∈
      [gapEvidence 512 (by decide)].flatMap skippedReasons :=
    List.mem_flatMap.mpr ⟨_, List.mem_singleton_self _, List.mem_singleton_self _⟩
  have hlength := of_decide_eq_true (Bool.and_eq_true_iff.mp (hfits.2 _ hmem)).2
  rw [String.length_append, String.length_ofList, List.length_replicate] at hlength
  have hcoordinate : 0 < ((gapEvidence 512 (by decide)).coordinate.str ++ ":").length := by decide +kernel
  omega

end Samples

end AgentArtifacts.Security
