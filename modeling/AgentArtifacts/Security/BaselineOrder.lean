import AgentArtifacts.InstallState.ManifestBytes
import AgentArtifacts.Protocol.Rereading
import AgentArtifacts.Security.BaselineEvidence

/-!
# The order of the findings

The distinct findings come in the order of their sort keys. The limit keeps those that have few
others before them, whatever their severity.
-/

namespace AgentArtifacts.Security

open Registry (sortedBy sortedSet perm_sortedBy mem_sortedBy)
open Schema (pairwise_sortedBy sortedBy_eq_self)

/-! ## The least of a sorted list -/

section Least

variable {κ : Type} [LinearOrder κ]

/-- The first members of a strictly sorted list are those with few members below them. -/
theorem mem_take_iff {items : List κ} (hsorted : items.Pairwise (· < ·)) (count : Nat) (key : κ) :
    key ∈ items.take count ↔ key ∈ items ∧ (items.filter (· < key)).length < count := by
  induction items generalizing count with
  | nil => simp
  | cons item rest ih =>
      obtain ⟨hitem, hrest⟩ := List.pairwise_cons.mp hsorted
      cases count with
      | zero => simp
      | succ count =>
          rw [List.take_succ_cons, List.mem_cons, List.mem_cons, ih hrest, List.filter_cons]
          constructor
          · rintro (rfl | ⟨hmem, hfew⟩)
            · refine ⟨.inl rfl, ?_⟩
              -- Nothing is below the first one.
              have hnone : rest.filter (· < key) = [] := by
                apply List.filter_eq_nil_iff.mpr
                intro other hother
                simpa using (hitem other hother).le
              simp [hnone]
            · refine ⟨.inr hmem, ?_⟩
              rw [if_pos (by simpa using hitem key hmem), List.length_cons]
              omega
          · rintro ⟨rfl | hmem, hfew⟩
            · exact .inl rfl
            · rw [if_pos (by simpa using hitem key hmem), List.length_cons] at hfew
              exact .inr ⟨hmem, by omega⟩

end Least

/-! ## Severities -/

theorem rank_le_foldl (severities : List FindingSeverity) (best : FindingSeverity) {severity : FindingSeverity}
    (h : severity = best ∨ severity ∈ severities) : severity.rank ≤
      (severities.foldl (fun best severity => if best.rank < severity.rank then severity else best) best).rank := by
  induction severities generalizing best severity with
  | nil =>
      rcases h with rfl | h
      · exact Nat.le_refl _
      · cases h
  | cons first rest ih =>
      rw [List.foldl_cons]
      rcases h with rfl | hmem
      · by_cases hless : severity.rank < first.rank
        · rw [if_pos hless]
          exact hless.le.trans (ih first (.inl rfl))
        · rw [if_neg hless]
          exact ih severity (.inl rfl)
      · rcases List.mem_cons.mp hmem with rfl | hrest
        · by_cases hless : best.rank < severity.rank
          · rw [if_pos hless]
            exact ih severity (.inl rfl)
          · rw [if_neg hless]
            exact (Nat.le_of_not_lt hless).trans (ih best (.inl rfl))
        · exact ih _ (.inr hrest)

theorem rank_le_maxSeverity {severities : List FindingSeverity} {severity : FindingSeverity} (h : severity ∈ severities) :
    severity.rank ≤ (maxSeverity severities).rank :=
  rank_le_foldl severities .unknown (.inr h)

theorem foldl_mem (severities : List FindingSeverity) (best : FindingSeverity) :
    severities.foldl (fun best severity => if best.rank < severity.rank then severity else best) best = best ∨
      severities.foldl (fun best severity => if best.rank < severity.rank then severity else best) best ∈ severities := by
  induction severities generalizing best with
  | nil => exact .inl rfl
  | cons first rest ih =>
      rw [List.foldl_cons]
      by_cases hless : best.rank < first.rank
      · rw [if_pos hless]
        rcases ih first with h | h
        · rw [h]
          exact .inr List.mem_cons_self
        · exact .inr (List.mem_cons_of_mem _ h)
      · rw [if_neg hless]
        rcases ih best with h | h
        · exact .inl h
        · exact .inr (List.mem_cons_of_mem _ h)

/-- The greatest severity is that of a member, unless it is the least there is. -/
theorem maxSeverity_mem {severities : List FindingSeverity} (h : 0 < (maxSeverity severities).rank) :
    maxSeverity severities ∈ severities := by
  rcases foldl_mem severities .unknown with hunknown | hmem
  · rw [maxSeverity, hunknown] at h
    exact absurd h (by decide)
  · exact hmem

def InstallationRisk.rank : InstallationRisk → Nat
  | .unknown => 0
  | .low => 1
  | .medium => 2
  | .high => 3
  | .critical => 4

theorem rank_ofSeverity (severity : FindingSeverity) : (InstallationRisk.ofSeverity severity).rank = severity.rank := by
  cases severity <;> rfl

/-- A severe finding is the risk, whatever the status. -/
theorem rank_riskFromEvidence {maximum : FindingSeverity} (h : FindingSeverity.high.rank ≤ maximum.rank)
    (status : AssessmentStatus) : (riskFromEvidence status maximum).rank = maximum.rank := by
  rw [riskFromEvidence, if_pos h, rank_ofSeverity]

/-! ## Findings of hits -/

theorem truncatedHit_placed : truncatedHit.placed = true := rfl

/-- The finding that a hit makes where it stands in a place. -/
def finding (hit : Hit) : SecurityFinding :=
  if h : hit.placed = true then findingOf hit h else findingOf truncatedHit truncatedHit_placed

theorem finding_eq {hit : Hit} (h : hit.placed = true) : finding hit = findingOf hit h := dif_pos h

theorem makeFinding_placed {hit : Hit} (h : hit.placed = true) : makeFinding hit = .ok (finding hit) := by
  rw [makeFinding, dif_pos h, finding_eq h]

theorem mapM_makeFinding {hits : List Hit} (h : ∀ hit ∈ hits, hit.placed = true) :
    hits.mapM makeFinding = .ok (hits.map finding) := by
  induction hits with
  | nil => rfl
  | cons hit rest ih =>
      rw [List.mapM_cons, makeFinding_placed (h hit List.mem_cons_self),
        ih fun other hother => h other (List.mem_cons_of_mem _ hother)]
      rfl

theorem severity_finding {hit : Hit} (h : hit.placed = true) : (finding hit).severity = hit.severity := by
  rw [finding_eq h]
  rfl

/-- A place gives the rule, the path and the line. -/
theorem of_placeJson {first second : Hit} (h : placeJson first = placeJson second) :
    first.rule = second.rule ∧ first.path.map SafeRelativePath.str = second.path.map SafeRelativePath.str ∧
      first.line = second.line := by
  simp only [placeJson, Json.obj.injEq, List.cons.injEq, Prod.mk.injEq, Json.str.injEq, true_and, and_true] at h
  obtain ⟨hline, hpath, hrule⟩ := h
  refine ⟨RuleId.id_injective hrule, ?_, ?_⟩
  · cases hfirst : first.path <;> cases hsecond : second.path <;> simp_all
  · cases hfirst : first.line with
    | none => cases hsecond : second.line <;> simp_all
    | some number =>
        cases hsecond : second.line with
        | none => simp_all
        | some other =>
            simp only [hfirst, hsecond, Json.int.injEq] at hline
            rw [Int.ofNat_inj.mp hline]

section Fingerprints

variable [StandardLibrary]

def Hit.fingerprint (hit : Hit) : ObjectDigest := jsonDigest (placeJson hit)

/-- `sort_key` of the finding that a hit makes. -/
def Hit.sortKey (hit : Hit) : String ×ₗ String ×ₗ String ×ₗ Nat ×ₗ String :=
  toLex (baselineProviderId, toLex (hit.rule.rule.id, toLex ((hit.path.map SafeRelativePath.str).getD "",
    toLex ((hit.line.map (· + 1)).getD 0, hit.fingerprint.str))))

theorem fingerprint_finding {hit : Hit} (h : hit.placed = true) : (finding hit).fingerprint = hit.fingerprint := by
  rw [finding_eq h]
  rfl

theorem sortKey_finding {hit : Hit} (h : hit.placed = true) : (finding hit).sortKey = hit.sortKey := by
  rw [finding_eq h]
  rfl

theorem fingerprint_of_sortKey {first second : SecurityFinding} (h : first.sortKey = second.sortKey) :
    first.fingerprint = second.fingerprint := by
  unfold SecurityFinding.sortKey at h
  simp only [EmbeddingLike.apply_eq_iff_eq, Prod.mk.injEq] at h
  exact Manifest.digest_eq_of_str h.2.2.2.2

/-- The hash tells the places of these hits apart. -/
def Distinguishes (hits : List Hit) : Prop :=
  ∀ first ∈ hits, ∀ second ∈ hits,
    StandardLibrary.sha256 (canonicalJsonBytes (placeJson first)) =
      StandardLibrary.sha256 (canonicalJsonBytes (placeJson second)) →
    canonicalJsonBytes (placeJson first) = canonicalJsonBytes (placeJson second)

theorem placeJson_of_fingerprint [JsonRuntime] {hits : List Hit} (h : Distinguishes hits) {first second : Hit}
    (hfirst : first ∈ hits) (hsecond : second ∈ hits) (hsame : first.fingerprint = second.fingerprint) :
    placeJson first = placeJson second := by
  have hraw : StandardLibrary.sha256 (canonicalJsonBytes (placeJson first)) =
      StandardLibrary.sha256 (canonicalJsonBytes (placeJson second)) := by
    have hoctets := congrArg digestOctets hsame
    rwa [Hit.fingerprint, Hit.fingerprint, jsonDigest, jsonDigest, digestOctets_sha256Bytes,
      digestOctets_sha256Bytes] at hoctets
  exact canonicalJsonBytes_injective (frozen_placeJson first) (frozen_placeJson second) (h first hfirst second hsecond hraw)

theorem sortKey_of_placeJson {first second : Hit} (h : placeJson first = placeJson second) :
    first.sortKey = second.sortKey := by
  obtain ⟨hrule, hpath, hline⟩ := of_placeJson h
  rw [Hit.sortKey, Hit.sortKey, Hit.fingerprint, Hit.fingerprint, hrule, hpath, hline, h]

/-- Hits with one sort key are of one rule. -/
theorem rule_of_sortKey {first second : Hit} (h : first.sortKey = second.sortKey) : first.rule = second.rule := by
  unfold Hit.sortKey at h
  simp only [EmbeddingLike.apply_eq_iff_eq, Prod.mk.injEq] at h
  exact RuleId.id_injective h.2.1

/-! ## The last finding of each fingerprint -/

theorem mem_of_mem_lastOfEach {findings : List SecurityFinding} {item : SecurityFinding} (h : item ∈ lastOfEach findings) :
    item ∈ findings := by
  induction findings with
  | nil => cases h
  | cons first rest ih =>
      rw [lastOfEach] at h
      split at h
      · exact List.mem_cons_of_mem _ (ih h)
      · rcases List.mem_cons.mp h with rfl | hrest
        · exact List.mem_cons_self
        · exact List.mem_cons_of_mem _ (ih hrest)

theorem exists_lastOfEach {findings : List SecurityFinding} {item : SecurityFinding} (h : item ∈ findings) :
    ∃ other ∈ lastOfEach findings, other.fingerprint = item.fingerprint := by
  induction findings generalizing item with
  | nil => cases h
  | cons first rest ih =>
      rw [lastOfEach]
      split
      · rename_i hagain
        rcases List.mem_cons.mp h with rfl | hrest
        · obtain ⟨later, hlater, hsame⟩ := List.mem_map.mp hagain
          obtain ⟨other, hother, hfingerprint⟩ := ih hlater
          exact ⟨other, hother, hfingerprint.trans hsame⟩
        · exact ih hrest
      · rcases List.mem_cons.mp h with rfl | hrest
        · exact ⟨item, List.mem_cons_self, rfl⟩
        · obtain ⟨other, hother, hfingerprint⟩ := ih hrest
          exact ⟨other, List.mem_cons_of_mem _ hother, hfingerprint⟩

theorem nodup_lastOfEach (findings : List SecurityFinding) :
    ((lastOfEach findings).map SecurityFinding.fingerprint).Nodup := by
  induction findings with
  | nil => exact List.nodup_nil
  | cons first rest ih =>
      rw [lastOfEach]
      split
      · exact ih
      · rename_i hnew
        rw [List.map_cons, List.nodup_cons]
        refine ⟨?_, ih⟩
        intro hmem
        obtain ⟨other, hother, hsame⟩ := List.mem_map.mp hmem
        exact hnew (List.mem_map.mpr ⟨other, mem_of_mem_lastOfEach hother, hsame⟩)

/-! ## The order -/

/-- The sort keys of the distinct findings. -/
def distinctKeys (hits : List Hit) : List (String ×ₗ String ×ₗ String ×ₗ Nat ×ₗ String) := (hits.map Hit.sortKey).dedup

def orderedFindings (hits : List Hit) : List SecurityFinding :=
  sortedBy SecurityFinding.sortKey (lastOfEach (hits.map finding))

theorem mem_orderedFindings {hits : List Hit} {item : SecurityFinding} (h : item ∈ orderedFindings hits) :
    ∃ hit ∈ hits, finding hit = item :=
  List.mem_map.mp (mem_of_mem_lastOfEach (mem_sortedBy.mp h))

theorem nodup_orderedFindings (hits : List Hit) : ((orderedFindings hits).map SecurityFinding.fingerprint).Nodup :=
  (((perm_sortedBy _ _).map _).nodup_iff).mpr (nodup_lastOfEach _)

theorem strict_orderedFindings (hits : List Hit) :
    ((orderedFindings hits).map SecurityFinding.sortKey).Pairwise (· < ·) := by
  rw [List.pairwise_map]
  have hle := pairwise_sortedBy SecurityFinding.sortKey (lastOfEach (hits.map finding))
  have hne : (orderedFindings hits).Pairwise fun a b => a.fingerprint ≠ b.fingerprint :=
    List.pairwise_map.mp (nodup_orderedFindings hits)
  refine (hle.and hne).imp ?_
  rintro a b ⟨hkey, hfingerprint⟩
  exact lt_of_le_of_ne hkey fun hsame => hfingerprint (fingerprint_of_sortKey hsame)

section Distinguished

variable [JsonRuntime] {hits : List Hit} (hplaced : ∀ hit ∈ hits, hit.placed = true) (hdistinct : Distinguishes hits)

include hplaced hdistinct

theorem exists_orderedFinding {hit : Hit} (h : hit ∈ hits) :
    ∃ item ∈ orderedFindings hits, item.fingerprint = hit.fingerprint ∧ item.sortKey = hit.sortKey := by
  obtain ⟨item, hitem, hsame⟩ := exists_lastOfEach (List.mem_map_of_mem (f := finding) h)
  obtain ⟨other, hother, rfl⟩ := List.mem_map.mp (mem_of_mem_lastOfEach hitem)
  rw [fingerprint_finding (hplaced hit h), fingerprint_finding (hplaced other hother)] at hsame
  refine ⟨finding other, mem_sortedBy.mpr hitem, ?_, ?_⟩
  · rw [fingerprint_finding (hplaced other hother), hsame]
  · rw [sortKey_finding (hplaced other hother)]
    exact sortKey_of_placeJson (placeJson_of_fingerprint hdistinct hother h hsame)

/-- The findings come in the order of the keys of the hits. -/
theorem perm_distinctKeys : ((orderedFindings hits).map SecurityFinding.sortKey).Perm (distinctKeys hits) := by
  rw [distinctKeys, List.perm_ext_iff_of_nodup ((strict_orderedFindings hits).imp ne_of_lt) (List.nodup_dedup _)]
  intro key
  rw [List.mem_dedup, List.mem_map, List.mem_map]
  constructor
  · rintro ⟨item, hitem, rfl⟩
    obtain ⟨hit, hhit, rfl⟩ := mem_orderedFindings hitem
    exact ⟨hit, hhit, (sortKey_finding (hplaced hit hhit)).symm⟩
  · rintro ⟨hit, hhit, rfl⟩
    obtain ⟨item, hitem, _, hkey⟩ := exists_orderedFinding hplaced hdistinct hhit
    exact ⟨item, hitem, hkey⟩

theorem length_orderedFindings : (orderedFindings hits).length = (distinctKeys hits).length := by
  rw [← (perm_distinctKeys hplaced hdistinct).length_eq, List.length_map]

/-- The findings that a limit keeps are those with few others before them. -/
theorem mem_take_orderedFindings (count : Nat) {severity : FindingSeverity} :
    (∃ item ∈ (orderedFindings hits).take count, item.severity = severity) ↔
      ∃ hit ∈ hits, hit.severity = severity ∧ ((distinctKeys hits).filter (· < hit.sortKey)).length < count := by
  have hperm := perm_distinctKeys hplaced hdistinct
  have hkept (key : String ×ₗ String ×ₗ String ×ₗ Nat ×ₗ String) :
      key ∈ ((orderedFindings hits).take count).map SecurityFinding.sortKey ↔
        key ∈ distinctKeys hits ∧ ((distinctKeys hits).filter (· < key)).length < count := by
    rw [List.map_take, mem_take_iff (strict_orderedFindings hits), hperm.mem_iff, (hperm.filter _).length_eq]
  constructor
  · rintro ⟨item, hitem, rfl⟩
    obtain ⟨hit, hhit, rfl⟩ := mem_orderedFindings (List.mem_of_mem_take hitem)
    have hkey := (hkept (finding hit).sortKey).mp (List.mem_map_of_mem hitem)
    rw [sortKey_finding (hplaced hit hhit)] at hkey
    exact ⟨hit, hhit, (severity_finding (hplaced hit hhit)).symm, hkey.2⟩
  · rintro ⟨hit, hhit, rfl, hfew⟩
    have hmem : hit.sortKey ∈ distinctKeys hits := List.mem_dedup.mpr (List.mem_map_of_mem hhit)
    obtain ⟨item, hitem, hkey⟩ := List.mem_map.mp ((hkept hit.sortKey).mpr ⟨hmem, hfew⟩)
    obtain ⟨other, hother, rfl⟩ := mem_orderedFindings (List.mem_of_mem_take hitem)
    rw [sortKey_finding (hplaced other hother)] at hkey
    refine ⟨finding other, hitem, ?_⟩
    rw [severity_finding (hplaced other hother), Hit.severity, Hit.severity, rule_of_sortKey hkey]

end Distinguished

end Fingerprints

end AgentArtifacts.Security
