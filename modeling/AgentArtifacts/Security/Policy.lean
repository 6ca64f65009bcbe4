import AgentArtifacts.Security.Summaries

/-!
# Installation policy

A policy assigns an action to each fact about a bundle: unknown risk, stale or failed evidence, the
worst risk, trust and providers. The decision is the most severe action of the facts that hold.
-/

namespace AgentArtifacts.Security

open Registry (sortedBy sortedSet perm_sortedBy)
open Schema (mem_sortedSet sortedBy_sortedBy)

inductive SecurityPolicyAction where
  | allow
  | warn
  | confirm
  | block
deriving DecidableEq

def SecurityPolicyAction.rank : SecurityPolicyAction → Nat
  | .allow => 0
  | .warn => 1
  | .confirm => 2
  | .block => 3

structure SecurityInstallPolicy where
  unknownAction : SecurityPolicyAction := .warn
  staleAction : SecurityPolicyAction := .warn
  failedAction : SecurityPolicyAction := .warn
  highAction : SecurityPolicyAction := .confirm
  criticalAction : SecurityPolicyAction := .block
  minimumAttestationTrust : Option AttestationTrust := none
  insufficientTrustAction : SecurityPolicyAction := .warn
  requiredProviderIds : List String := []
  missingProviderAction : SecurityPolicyAction := .warn
  scopes : List String := ["project", "user"]
  providers_sorted : sortedSet requiredProviderIds = requiredProviderIds
  providers_valid : ∀ id ∈ requiredProviderIds, isProviderId id = true
  scopes_sorted : sortedSet scopes = scopes
  scopes_nonempty : scopes ≠ []
  scopes_valid : ∀ scope ∈ scopes, scope = "project" ∨ scope = "user"

structure SecurityPolicyDecision where
  action : SecurityPolicyAction
  reasons : List String
  affectedArtifacts : List ArtifactCoordinate
deriving DecidableEq

def SecurityPolicyDecision.make (action : SecurityPolicyAction) (reasons : List String)
    (affected : List ArtifactCoordinate) : Raising SecurityPolicyDecision :=
  let sorted := sortedSet reasons
  if sorted.isEmpty || sorted.any (fun reason => reason == "" || pyIn "\n" reason || pyIn "\r" reason) ||
      sortedCoordinates affected != affected then .error "security policy decision is invalid"
  else .ok ⟨action, sorted, affected⟩

/-- A fact that holds: the action for it, what is said of it and the artifacts it holds of. -/
structure Triggered where
  action : SecurityPolicyAction
  reason : String
  artifacts : List ArtifactCoordinate

def worstAction (actions : List SecurityPolicyAction) : SecurityPolicyAction :=
  actions.foldl (fun worst action => if worst.rank < action.rank then action else worst) .allow

theorem SecurityPolicyAction.rank_injective {a b : SecurityPolicyAction} (h : a.rank = b.rank) : a = b := by
  cases a <;> cases b <;> first | rfl | exact absurd h (by decide)

theorem worstAction_foldl (actions : List SecurityPolicyAction) (worst : SecurityPolicyAction) :
    let result := actions.foldl (fun worst action => if worst.rank < action.rank then action else worst) worst
    worst.rank ≤ result.rank ∧ (∀ action ∈ actions, action.rank ≤ result.rank) ∧ (result = worst ∨ result ∈ actions) := by
  induction actions generalizing worst with
  | nil => exact ⟨Nat.le_refl _, by simp, Or.inl rfl⟩
  | cons action actions ih =>
      rw [List.foldl_cons]
      obtain ⟨hworst, hall, hmem⟩ := ih (if worst.rank < action.rank then action else worst)
      generalize actions.foldl _ _ = result at hworst hall hmem
      have hboth : worst.rank ≤ result.rank ∧ action.rank ≤ result.rank := by
        split at hworst <;> omega
      refine ⟨hboth.1, List.forall_mem_cons.mpr ⟨hboth.2, hall⟩, ?_⟩
      rcases hmem with hmem | hmem
      · split at hmem
        · exact Or.inr (by rw [hmem]; exact List.mem_cons_self)
        · exact Or.inl hmem
      · exact Or.inr (List.mem_cons_of_mem _ hmem)

theorem rank_le_worstAction {actions : List SecurityPolicyAction} {action : SecurityPolicyAction} (h : action ∈ actions) :
    action.rank ≤ (worstAction actions).rank :=
  (worstAction_foldl actions .allow).2.1 action h

theorem worstAction_mem_le (actions : List SecurityPolicyAction) {bound : Nat} (h : ∀ action ∈ actions, action.rank ≤ bound) :
    (worstAction actions).rank ≤ bound := by
  rcases (worstAction_foldl actions .allow).2.2 with hallow | hmem
  · rw [worstAction, hallow]
    exact Nat.zero_le _
  · exact h _ hmem

theorem worstAction_congr {left right : List SecurityPolicyAction} (h : ∀ action, action ∈ left ↔ action ∈ right) :
    worstAction left = worstAction right := by
  apply SecurityPolicyAction.rank_injective
  apply Nat.le_antisymm
  · exact worstAction_mem_le left fun action haction => rank_le_worstAction ((h action).mp haction)
  · exact worstAction_mem_le right fun action haction => rank_le_worstAction ((h action).mpr haction)

theorem worstAction_mem (actions : List SecurityPolicyAction) :
    worstAction actions = .allow ∨ worstAction actions ∈ actions :=
  (worstAction_foldl actions .allow).2.2

section Facts

variable [StandardLibrary]

def insufficientTrust (policy : SecurityInstallPolicy) (item : ArtifactSecurityEvidence) : Bool :=
  policy.minimumAttestationTrust.any fun minimum => decide (item.attestationTrust.rank < minimum.rank)

def missingProvider (policy : SecurityInstallPolicy) (item : ArtifactSecurityEvidence) : Bool :=
  policy.requiredProviderIds.any fun id => !(item.assessment.providers.map (·.id)).contains id

/-- A fact is recorded where it holds of some artifact. -/
def factOf (action : SecurityPolicyAction) (reason : String) (artifacts : List ArtifactCoordinate) : List Triggered :=
  if artifacts.isEmpty then [] else [⟨action, reason, artifacts⟩]

def triggeredFacts (summary : BundleSecuritySummary) (evidence : List ArtifactSecurityEvidence)
    (policy : SecurityInstallPolicy) : List Triggered :=
  factOf policy.unknownAction "One or more artifacts have unknown installation risk." summary.unknownArtifacts ++
  factOf policy.staleAction "One or more artifacts have stale assessment evidence." summary.staleArtifacts ++
  factOf policy.failedAction "One or more artifact assessments failed."
    ((evidence.filter fun item => item.assessment.status == .failed).map (·.coordinate)) ++
  (if summary.riskMax = .critical then
    [⟨policy.criticalAction, "Worst observed installation risk is critical.", summary.worstArtifacts⟩]
  else if summary.riskMax = .high then
    [⟨policy.highAction, "Worst observed installation risk is high.", summary.worstArtifacts⟩]
  else []) ++
  factOf policy.insufficientTrustAction "One or more artifacts have insufficient locally derived attestation trust."
    ((evidence.filter (insufficientTrust policy)).map (·.coordinate)) ++
  factOf policy.missingProviderAction "One or more artifacts are missing a required assessment provider suite."
    ((evidence.filter (missingProvider policy)).map (·.coordinate))

def evaluateSecurityPolicy (summary : BundleSecuritySummary) (evidence : List ArtifactSecurityEvidence)
    (policy : SecurityInstallPolicy) (scope : String) : Raising SecurityPolicyDecision := do
  if scope ≠ "project" ∧ scope ≠ "user" then .error "security policy scope is invalid"
  else
    let normalized ← summarizeBundleSecurity evidence
    if summary ≠ normalized then .error "security policy summary does not match artifact evidence"
    else if scope ∉ policy.scopes then
      SecurityPolicyDecision.make .allow ["Security installation policy does not apply to " ++ scope ++ " scope."] []
    else
      let triggered := triggeredFacts summary evidence policy
      if triggered.isEmpty then
        SecurityPolicyDecision.make .allow ["Installation-risk evidence satisfies the configured policy."] []
      else
        SecurityPolicyDecision.make (worstAction (triggered.map (·.action))) (triggered.map (·.reason))
          (sortedCoordinates (triggered.flatMap (·.artifacts)))

/-- The decision on a bundle with its own summary. -/
def judgeBundle (policy : SecurityInstallPolicy) (scope : String) (evidence : List ArtifactSecurityEvidence) :
    Raising SecurityPolicyDecision := do
  let summary ← summarizeBundleSecurity evidence
  evaluateSecurityPolicy summary evidence policy scope

/-! ## The facts of a bundle -/

/-- The actions for the facts that hold of some artifact of the evidence; of the known risks only
the worst counts. -/
def factActions (policy : SecurityInstallPolicy) (evidence : List ArtifactSecurityEvidence) : List SecurityPolicyAction :=
  let fact (action : SecurityPolicyAction) (holds : Bool) := if holds then [action] else []
  let risky (risk : InstallationRisk) := evidence.any fun item => item.assessment.installationRisk == risk
  let within (status : AssessmentStatus) := evidence.any fun item => item.assessment.status == status
  fact policy.unknownAction (risky .unknown) ++ fact policy.staleAction (within .stale) ++
    fact policy.failedAction (within .failed) ++ fact policy.criticalAction (risky .critical) ++
    fact policy.highAction (risky .high && !risky .critical) ++
    fact policy.insufficientTrustAction (evidence.any (insufficientTrust policy)) ++
    fact policy.missingProviderAction (evidence.any (missingProvider policy))

theorem mem_factActions {policy : SecurityInstallPolicy} {evidence : List ArtifactSecurityEvidence}
    {action : SecurityPolicyAction} : action ∈ factActions policy evidence ↔
      (action = policy.unknownAction ∧ ∃ item ∈ evidence, item.assessment.installationRisk = .unknown) ∨
      (action = policy.staleAction ∧ ∃ item ∈ evidence, item.assessment.status = .stale) ∨
      (action = policy.failedAction ∧ ∃ item ∈ evidence, item.assessment.status = .failed) ∨
      (action = policy.criticalAction ∧ ∃ item ∈ evidence, item.assessment.installationRisk = .critical) ∨
      (action = policy.highAction ∧ (∃ item ∈ evidence, item.assessment.installationRisk = .high) ∧
        ∀ item ∈ evidence, item.assessment.installationRisk ≠ .critical) ∨
      (action = policy.insufficientTrustAction ∧ ∃ item ∈ evidence, insufficientTrust policy item = true) ∨
      (action = policy.missingProviderAction ∧ ∃ item ∈ evidence, missingProvider policy item = true) := by
  have hfact : ∀ (other : SecurityPolicyAction) (holds : Bool), action ∈ (if holds = true then [other] else []) ↔
      action = other ∧ holds = true := by
    intro other holds
    cases holds <;> simp
  simp only [factActions, List.mem_append, hfact]
  simp only [List.any_eq_true, beq_iff_eq, Bool.and_eq_true, Bool.not_eq_true',
    List.any_eq_false, or_assoc, ne_eq]

omit [StandardLibrary] in
theorem factOf_actions (action : SecurityPolicyAction) (reason : String) (artifacts : List ArtifactCoordinate) :
    (factOf action reason artifacts).map (·.action) = if artifacts = [] then [] else [action] := by
  unfold factOf
  cases artifacts <;> rfl

/-- What the summary of a bundle says of the facts. -/
structure Reports (evidence : List ArtifactSecurityEvidence) (summary : BundleSecuritySummary) : Prop where
  unknown : summary.unknownArtifacts = [] ↔ ∀ item ∈ evidence, item.assessment.installationRisk ≠ .unknown
  stale : summary.staleArtifacts = [] ↔ ∀ item ∈ evidence, item.assessment.status ≠ .stale
  critical : summary.riskMax = .critical ↔ ∃ item ∈ evidence, item.assessment.installationRisk = .critical
  high : summary.riskMax = .high ↔ (∃ item ∈ evidence, item.assessment.installationRisk = .high) ∧
    ∀ item ∈ evidence, item.assessment.installationRisk ≠ .critical

omit [StandardLibrary] in
theorem sortedCoordinates_eq_nil {coordinates : List ArtifactCoordinate} :
    sortedCoordinates coordinates = [] ↔ coordinates = [] := by
  rw [List.eq_nil_iff_forall_not_mem, List.eq_nil_iff_forall_not_mem]
  simp only [mem_sortedCoordinates]

theorem filtered_eq_nil {items : List ArtifactSecurityEvidence} {p : ArtifactSecurityEvidence → Bool} :
    (items.filter p).map (·.coordinate) = [] ↔ ∀ item ∈ items, p item ≠ true := by
  rw [List.map_eq_nil_iff, List.filter_eq_nil_iff]

/-- The greatest known risk of a bundle. -/
theorem riskMax_eq {items : List ArtifactSecurityEvidence} {risk : InstallationRisk} {score : Nat}
    (hscore : riskScore risk = some score) : ((riskRange items).2.map riskByScore).getD .unknown = risk ↔
      (∃ item ∈ items, item.assessment.installationRisk = risk) ∧
        ∀ item ∈ items, ∀ other, riskScore item.assessment.installationRisk = some other → other ≤ score := by
  have hback : ∀ (risk : InstallationRisk) (score : Nat), riskScore risk = some score → riskByScore score = risk := by
    intro risk score h
    cases risk with
    | unknown => cases h
    | low => obtain rfl := Option.some.inj h; rfl
    | medium => obtain rfl := Option.some.inj h; rfl
    | high => obtain rfl := Option.some.inj h; rfl
    | critical => obtain rfl := Option.some.inj h; rfl
  have hknown {item : ArtifactSecurityEvidence} {score : Nat} (hitem : item ∈ items)
      (hscore : riskScore item.assessment.installationRisk = some score) : score ∈ (knownRisks items).map (·.2) :=
    List.mem_map.mpr ⟨(item, score), mem_knownRisks.mpr ⟨hitem, hscore⟩, rfl⟩
  unfold riskRange
  dsimp only
  cases hmax : ((knownRisks items).map (·.2)).max? with
  | none =>
      have hempty := scores_empty_iff.mp (List.max?_eq_none_iff.mp hmax)
      constructor
      · rintro rfl
        cases hscore
      · rintro ⟨⟨item, hitem, rfl⟩, _⟩
        rw [hempty item hitem] at hscore
        cases hscore
  | some highest =>
      obtain ⟨hmem, hle⟩ := List.max?_eq_some_iff.mp hmax
      obtain ⟨worst, hworst, hworstScore⟩ := known_scores hmem
      show riskByScore highest = risk ↔ _
      constructor
      · intro hrisk
        have hsame : worst.assessment.installationRisk = risk := (hback _ _ hworstScore).symm.trans hrisk
        have hhighest : highest = score := by
          rw [hsame, hscore] at hworstScore
          exact (Option.some.inj hworstScore).symm
        exact ⟨⟨worst, hworst, hsame⟩, fun item hitem other hother => hhighest ▸ hle other (hknown hitem hother)⟩
      · rintro ⟨⟨item, hitem, rfl⟩, hall⟩
        have hlow := hle score (hknown hitem hscore)
        have hhigh := hall worst hworst highest hworstScore
        rw [Nat.le_antisymm hhigh hlow]
        exact hback _ _ hscore

theorem reports_of_items {evidence items : List ArtifactSecurityEvidence} {coverage : AssessmentCoverage}
    (hdedup : Deduplicated items) (hmembers : ∀ item, item ∈ items ↔ item ∈ evidence) (hne : items ≠ [])
    {summary : BundleSecuritySummary} (h : (bundleFacts items coverage).make = .ok summary) : Reports evidence summary := by
  rw [bundleFacts_make hne hdedup coverage] at h
  obtain rfl := Except.ok.inj h
  have hbelow : ∀ (risk : InstallationRisk) (score : Nat), riskScore risk = some score → score ≤ 4 :=
    fun _ _ hscore => (riskScore_bounds hscore).2
  constructor
  · show sortedCoordinates ((items.filter _).map _) = [] ↔ _
    rw [sortedCoordinates_eq_nil, filtered_eq_nil]
    simp only [hmembers, beq_iff_eq, ne_eq]
  · show sortedCoordinates ((items.filter _).map _) = [] ↔ _
    rw [sortedCoordinates_eq_nil, filtered_eq_nil]
    simp only [hmembers, beq_iff_eq, ne_eq]
  · show ((riskRange items).2.map riskByScore).getD .unknown = .critical ↔ _
    rw [riskMax_eq (rfl : riskScore .critical = some 4)]
    simp only [hmembers]
    exact and_iff_left fun item _ other hother => hbelow _ other hother
  · show ((riskRange items).2.map riskByScore).getD .unknown = .high ↔ _
    rw [riskMax_eq (rfl : riskScore .high = some 3)]
    simp only [hmembers]
    refine and_congr_right fun _ => forall_congr' fun item => forall_congr' fun _ => ?_
    cases item.assessment.installationRisk with
    | unknown => simp [riskScore]
    | low => simp [riskScore]
    | medium => simp [riskScore]
    | high => simp [riskScore]
    | critical => simp [riskScore]

theorem triggered_actions {evidence : List ArtifactSecurityEvidence} {summary : BundleSecuritySummary}
    (h : Reports evidence summary) (policy : SecurityInstallPolicy) (action : SecurityPolicyAction) :
    action ∈ (triggeredFacts summary evidence policy).map (·.action) ↔ action ∈ factActions policy evidence := by
  have hfact : ∀ (other : SecurityPolicyAction) (reason : String) (artifacts : List ArtifactCoordinate),
      action ∈ (factOf other reason artifacts).map (·.action) ↔ action = other ∧ artifacts ≠ [] := by
    intro other reason artifacts
    rw [factOf_actions]
    by_cases hempty : artifacts = [] <;> simp [hempty]
  have hfiltered : ∀ p : ArtifactSecurityEvidence → Bool, (evidence.filter p).map (·.coordinate) ≠ [] ↔
      ∃ item ∈ evidence, p item = true := by
    intro p
    rw [Ne, filtered_eq_nil]
    simp
  have hworst : action ∈ (if summary.riskMax = .critical then
        [(⟨policy.criticalAction, "Worst observed installation risk is critical.", summary.worstArtifacts⟩ : Triggered)]
      else if summary.riskMax = .high then
        [⟨policy.highAction, "Worst observed installation risk is high.", summary.worstArtifacts⟩]
      else []).map (·.action) ↔ (action = policy.criticalAction ∧ summary.riskMax = .critical) ∨
        (action = policy.highAction ∧ summary.riskMax = .high) := by
    by_cases hcritical : summary.riskMax = .critical
    · simp [hcritical]
    · by_cases hhigh : summary.riskMax = .high <;> simp [hcritical, hhigh]
  have hunknown : summary.unknownArtifacts ≠ [] ↔ ∃ item ∈ evidence, item.assessment.installationRisk = .unknown := by
    rw [Ne, h.unknown]
    simp
  have hstale : summary.staleArtifacts ≠ [] ↔ ∃ item ∈ evidence, item.assessment.status = .stale := by
    rw [Ne, h.stale]
    simp
  rw [mem_factActions, triggeredFacts]
  simp only [List.map_append, List.mem_append, hfact, hfiltered, hworst]
  simp only [hunknown, hstale, h.critical, h.high, beq_iff_eq, or_assoc]

/-! ## The decision -/

omit [StandardLibrary] in
theorem make_decision {action : SecurityPolicyAction} {reasons : List String} {affected : List ArtifactCoordinate}
    (hne : reasons ≠ []) (hlines : ∀ reason ∈ reasons, reason ≠ "" ∧ pyIn "\n" reason = false ∧ pyIn "\r" reason = false)
    (haffected : sortedCoordinates affected = affected) :
    ∃ decision, SecurityPolicyDecision.make action reasons affected = .ok decision ∧ decision.action = action := by
  have hempty : (sortedSet reasons).isEmpty = false := by
    obtain ⟨reason, hreason⟩ := List.exists_mem_of_ne_nil reasons hne
    rw [List.isEmpty_eq_false_iff]
    exact List.ne_nil_of_mem (mem_sortedSet.mpr hreason)
  have hcheck : (sortedSet reasons).any (fun reason => reason == "" || pyIn "\n" reason || pyIn "\r" reason) = false := by
    rw [List.any_eq_false]
    intro reason hreason
    obtain ⟨hblank, hnewline, hreturn⟩ := hlines reason (mem_sortedSet.mp hreason)
    simp [hblank, hnewline, hreturn]
  unfold SecurityPolicyDecision.make
  dsimp only
  rw [hempty, hcheck, haffected]
  exact ⟨_, by simp; rfl, rfl⟩

omit [StandardLibrary] in
theorem sortedCoordinates_twice (coordinates : List ArtifactCoordinate) :
    sortedCoordinates (sortedCoordinates coordinates) = sortedCoordinates coordinates := by
  have hnodup : (sortedCoordinates coordinates).Nodup :=
    (perm_sortedBy ArtifactCoordinate.str _).nodup_iff.mpr (List.nodup_dedup _)
  calc sortedCoordinates (sortedCoordinates coordinates)
      = sortedBy ArtifactCoordinate.str (sortedCoordinates coordinates) := by
        rw [sortedCoordinates, hnodup.dedup]
    _ = sortedCoordinates coordinates := sortedBy_sortedBy _ _

theorem triggered_reasons {summary : BundleSecuritySummary} {evidence : List ArtifactSecurityEvidence}
    {policy : SecurityInstallPolicy} {reason : String}
    (h : reason ∈ (triggeredFacts summary evidence policy).map (·.reason)) :
    reason ≠ "" ∧ pyIn "\n" reason = false ∧ pyIn "\r" reason = false := by
  have hall : ∀ reason ∈ ["One or more artifacts have unknown installation risk.",
      "One or more artifacts have stale assessment evidence.", "One or more artifact assessments failed.",
      "Worst observed installation risk is critical.", "Worst observed installation risk is high.",
      "One or more artifacts have insufficient locally derived attestation trust.",
      "One or more artifacts are missing a required assessment provider suite."],
      reason ≠ "" ∧ pyIn "\n" reason = false ∧ pyIn "\r" reason = false := by decide +kernel
  have hfact : ∀ (action : SecurityPolicyAction) (text : String) (artifacts : List ArtifactCoordinate),
      reason ∈ (factOf action text artifacts).map (·.reason) → reason = text := by
    intro action text artifacts hmem
    unfold factOf at hmem
    cases artifacts with
    | nil => cases hmem
    | cons => exact List.mem_singleton.mp hmem
  apply hall
  simp only [triggeredFacts, List.map_append, List.mem_append] at h
  rcases h with ((((h | h) | h) | h) | h) | h
  · simp [hfact _ _ _ h]
  · simp [hfact _ _ _ h]
  · simp [hfact _ _ _ h]
  · split at h
    · simp [List.mem_singleton.mp h]
    · split at h
      · simp [List.mem_singleton.mp h]
      · cases h
  · simp [hfact _ _ _ h]
  · simp [hfact _ _ _ h]

/-- A bundle is judged by the most severe action for the facts that hold of it. -/
theorem judgeBundle_ok {policy : SecurityInstallPolicy} {scope : String} {evidence : List ArtifactSecurityEvidence}
    (hscope : scope = "project" ∨ scope = "user") (hne : evidence ≠ []) (hconsistent : Consistent evidence)
    (hfits : FitsCoverage evidence) : ∃ decision, judgeBundle policy scope evidence = .ok decision ∧
      decision.action = if scope ∈ policy.scopes then worstAction (factActions policy evidence) else .allow := by
  obtain ⟨items, coverage, hitems, hdedup, hmembers, hcoverage, hsummarize⟩ := summarize_ok hne hconsistent hfits
  have hneItems : items ≠ [] := by
    obtain ⟨item, hitem⟩ := List.exists_mem_of_ne_nil evidence hne
    exact List.ne_nil_of_mem ((hmembers item).mpr hitem)
  obtain ⟨summary, hsummary⟩ : ∃ summary, (bundleFacts items coverage).make = .ok summary :=
    ⟨_, bundleFacts_make hneItems hdedup coverage⟩
  have hreports := reports_of_items hdedup hmembers hneItems hsummary
  rw [hsummary] at hsummarize
  have hknownScope : ¬ (scope ≠ "project" ∧ scope ≠ "user") := by
    rintro ⟨hproject, huser⟩
    exact hscope.elim hproject huser
  have hjudge : judgeBundle policy scope evidence = evaluateSecurityPolicy summary evidence policy scope := by
    simp only [judgeBundle, hsummarize, bind, Except.bind]
  rw [hjudge, evaluateSecurityPolicy, if_neg hknownScope]
  simp only [hsummarize, bind, Except.bind, ne_eq, not_true_eq_false, if_false]
  by_cases hwithin : scope ∈ policy.scopes
  · rw [if_neg (not_not_intro hwithin), if_pos hwithin]
    have hmem := triggered_actions hreports policy
    by_cases hempty : triggeredFacts summary evidence policy = []
    · have hnone : factActions policy evidence = [] := by
        rw [List.eq_nil_iff_forall_not_mem]
        intro action
        rw [← hmem action, hempty]
        exact List.not_mem_nil
      rw [hempty, hnone, if_pos List.isEmpty_nil]
      exact make_decision (by simp) (by decide +kernel) rfl
    · rw [if_neg (by simpa using hempty)]
      have hsame : worstAction ((triggeredFacts summary evidence policy).map (·.action)) =
          worstAction (factActions policy evidence) := worstAction_congr hmem
      rw [hsame]
      exact make_decision (by simpa using hempty) (fun reason hreason => triggered_reasons hreason)
        (sortedCoordinates_twice _)
  · rw [if_pos hwithin, if_neg hwithin]
    refine make_decision (by simp) ?_ rfl
    rcases hscope with rfl | rfl
    · decide +kernel
    · decide +kernel

/-! ## Bundles and their parts -/

/-- Where an artifact of high and one of critical risk come together, the policy is no more severe
on the former. -/
def RanksRisks (policy : SecurityInstallPolicy) (evidence : List ArtifactSecurityEvidence) : Prop :=
  (∃ item ∈ evidence, item.assessment.installationRisk = .critical) →
    (∃ item ∈ evidence, item.assessment.installationRisk = .high) →
      policy.highAction.rank ≤ policy.criticalAction.rank

/-- An artifact alone is judged at least as leniently as another alone. -/
def JudgedBelow (policy : SecurityInstallPolicy) (scope : String) (first second : ArtifactSecurityEvidence) : Prop :=
  ∃ lenient severe, judgeBundle policy scope [first] = .ok lenient ∧ judgeBundle policy scope [second] = .ok severe ∧
    lenient.action.rank ≤ severe.action.rank

theorem FitsCoverage.of_mem {evidence : List ArtifactSecurityEvidence} (h : FitsCoverage evidence)
    {item : ArtifactSecurityEvidence} (hitem : item ∈ evidence) : FitsCoverage [item] := by
  have hsubset : ∀ reason ∈ [item].flatMap skippedReasons, reason ∈ evidence.flatMap skippedReasons := by
    intro reason hreason
    obtain ⟨other, hother, hmem⟩ := List.mem_flatMap.mp hreason
    rw [List.mem_singleton.mp hother] at hmem
    exact List.mem_flatMap.mpr ⟨item, hitem, hmem⟩
  refine ⟨?_, fun reason hreason => h.2 reason (hsubset reason hreason)⟩
  have hsublist : ([item].flatMap skippedReasons).dedup.Subperm (evidence.flatMap skippedReasons).dedup :=
    (List.nodup_dedup _).subperm fun reason hreason => List.mem_dedup.mpr (hsubset reason (List.mem_dedup.mp hreason))
  exact le_trans hsublist.length_le h.1

theorem factActions_below {policy : SecurityInstallPolicy} {evidence : List ArtifactSecurityEvidence}
    (hranks : RanksRisks policy evidence) {item : ArtifactSecurityEvidence} (hitem : item ∈ evidence) :
    (worstAction (factActions policy [item])).rank ≤ (worstAction (factActions policy evidence)).rank := by
  have hone : ∀ p : ArtifactSecurityEvidence → Prop, (∃ other ∈ [item], p other) → ∃ other ∈ evidence, p other := by
    rintro p ⟨other, hother, hp⟩
    exact ⟨item, hitem, List.mem_singleton.mp hother ▸ hp⟩
  rcases worstAction_mem (factActions policy [item]) with hallow | hmem
  · rw [hallow]
    exact Nat.zero_le _
  · generalize worstAction (factActions policy [item]) = action at hmem
    rcases mem_factActions.mp hmem with ⟨rfl, h⟩ | ⟨rfl, h⟩ | ⟨rfl, h⟩ | ⟨rfl, h⟩ | ⟨rfl, h, _⟩ | ⟨rfl, h⟩ | ⟨rfl, h⟩
    · exact rank_le_worstAction (mem_factActions.mpr (Or.inl ⟨rfl, hone _ h⟩))
    · exact rank_le_worstAction (mem_factActions.mpr (Or.inr (Or.inl ⟨rfl, hone _ h⟩)))
    · exact rank_le_worstAction (mem_factActions.mpr (Or.inr (Or.inr (Or.inl ⟨rfl, hone _ h⟩))))
    · exact rank_le_worstAction (mem_factActions.mpr (Or.inr (Or.inr (Or.inr (Or.inl ⟨rfl, hone _ h⟩)))))
    · -- A critical artifact of the bundle takes the place of the high one.
      by_cases hcritical : ∃ other ∈ evidence, other.assessment.installationRisk = .critical
      · refine le_trans (hranks hcritical (hone _ h)) (rank_le_worstAction (mem_factActions.mpr ?_))
        exact Or.inr (Or.inr (Or.inr (Or.inl ⟨rfl, hcritical⟩)))
      · refine rank_le_worstAction (mem_factActions.mpr ?_)
        refine Or.inr (Or.inr (Or.inr (Or.inr (Or.inl ⟨rfl, hone _ h, fun other hother hrisk => ?_⟩))))
        exact hcritical ⟨other, hother, hrisk⟩
    · exact rank_le_worstAction (mem_factActions.mpr (Or.inr (Or.inr (Or.inr (Or.inr (Or.inr (Or.inl ⟨rfl, hone _ h⟩)))))))
    · exact rank_le_worstAction (mem_factActions.mpr (Or.inr (Or.inr (Or.inr (Or.inr (Or.inr (Or.inr ⟨rfl, hone _ h⟩)))))))

/-- Each action for a fact of the bundle is one for the same fact of an artifact. -/
theorem factActions_attained {policy : SecurityInstallPolicy} {evidence : List ArtifactSecurityEvidence}
    {action : SecurityPolicyAction} (h : action ∈ factActions policy evidence) :
    ∃ item ∈ evidence, action ∈ factActions policy [item] := by
  rcases mem_factActions.mp h with ⟨rfl, item, hitem, hp⟩ | ⟨rfl, item, hitem, hp⟩ | ⟨rfl, item, hitem, hp⟩ |
    ⟨rfl, item, hitem, hp⟩ | ⟨rfl, ⟨item, hitem, hp⟩, hnone⟩ | ⟨rfl, item, hitem, hp⟩ | ⟨rfl, item, hitem, hp⟩
  all_goals exact ⟨item, hitem, mem_factActions.mpr (by simp [hp])⟩

/-- A policy that asks for no less than another one, applies wherever it does and takes no milder
action for any fact. -/
structure Stricter (strict lax : SecurityInstallPolicy) : Prop where
  unknown : lax.unknownAction.rank ≤ strict.unknownAction.rank
  stale : lax.staleAction.rank ≤ strict.staleAction.rank
  failed : lax.failedAction.rank ≤ strict.failedAction.rank
  high : lax.highAction.rank ≤ strict.highAction.rank
  critical : lax.criticalAction.rank ≤ strict.criticalAction.rank
  insufficientTrust : lax.insufficientTrustAction.rank ≤ strict.insufficientTrustAction.rank
  missingProvider : lax.missingProviderAction.rank ≤ strict.missingProviderAction.rank
  minimum : ∀ least, lax.minimumAttestationTrust = some least →
    ∃ more, strict.minimumAttestationTrust = some more ∧ least.rank ≤ more.rank
  required : lax.requiredProviderIds ⊆ strict.requiredProviderIds
  scopes : lax.scopes ⊆ strict.scopes

variable {strict lax : SecurityInstallPolicy}

/-- What a policy finds lacking, a stricter one does. -/
theorem lacking_of_stricter (h : Stricter strict lax) (item : ArtifactSecurityEvidence) :
    (insufficientTrust lax item = true → insufficientTrust strict item = true) ∧
      (missingProvider lax item = true → missingProvider strict item = true) := by
  constructor
  · unfold insufficientTrust
    rw [Option.any_eq_true, Option.any_eq_true]
    rintro ⟨least, hleast, hbelow⟩
    obtain ⟨more, hmore, hle⟩ := h.minimum least hleast
    exact ⟨more, hmore, decide_eq_true ((of_decide_eq_true hbelow).trans_le hle)⟩
  · intro hmissing
    obtain ⟨id, hid, hnone⟩ := List.any_eq_true.mp hmissing
    exact List.any_eq_true.mpr ⟨id, h.required hid, hnone⟩

/-- Each action of the laxer policy for a bundle is outdone by one of the stricter policy. -/
theorem Stricter.outdone (h : Stricter strict lax) {evidence : List ArtifactSecurityEvidence} {action : SecurityPolicyAction}
    (haction : action ∈ factActions lax evidence) : ∃ more ∈ factActions strict evidence, action.rank ≤ more.rank := by
  simp only [mem_factActions]
  rcases mem_factActions.mp haction with ⟨rfl, hfact⟩ | ⟨rfl, hfact⟩ | ⟨rfl, hfact⟩ | ⟨rfl, hfact⟩ | ⟨rfl, hfact⟩ |
    ⟨rfl, item, hitem, hfact⟩ | ⟨rfl, item, hitem, hfact⟩
  · exact ⟨_, .inl ⟨rfl, hfact⟩, h.unknown⟩
  · exact ⟨_, .inr (.inl ⟨rfl, hfact⟩), h.stale⟩
  · exact ⟨_, .inr (.inr (.inl ⟨rfl, hfact⟩)), h.failed⟩
  · exact ⟨_, .inr (.inr (.inr (.inl ⟨rfl, hfact⟩))), h.critical⟩
  · exact ⟨_, .inr (.inr (.inr (.inr (.inl ⟨rfl, hfact⟩)))), h.high⟩
  · exact ⟨_, .inr (.inr (.inr (.inr (.inr (.inl ⟨rfl, item, hitem, (lacking_of_stricter h item).1 hfact⟩))))), h.insufficientTrust⟩
  · exact ⟨_, .inr (.inr (.inr (.inr (.inr (.inr ⟨rfl, item, hitem, (lacking_of_stricter h item).2 hfact⟩))))), h.missingProvider⟩

/-- A stricter policy never judges a bundle more leniently. -/
theorem judgeBundle_stricter (h : Stricter strict lax) {scope : String} {evidence : List ArtifactSecurityEvidence}
    (hscope : scope = "project" ∨ scope = "user") (hne : evidence ≠ []) (hconsistent : Consistent evidence)
    (hfits : FitsCoverage evidence) :
    ∃ lenient severe, judgeBundle lax scope evidence = .ok lenient ∧ judgeBundle strict scope evidence = .ok severe ∧
      lenient.action.rank ≤ severe.action.rank := by
  obtain ⟨lenient, hlenient, hlax⟩ := @judgeBundle_ok _ lax scope evidence hscope hne hconsistent hfits
  obtain ⟨severe, hsevere, hstrict⟩ := @judgeBundle_ok _ strict scope evidence hscope hne hconsistent hfits
  refine ⟨lenient, severe, hlenient, hsevere, ?_⟩
  rw [hlax, hstrict]
  by_cases hwithin : scope ∈ lax.scopes
  · rw [if_pos hwithin, if_pos (h.scopes hwithin)]
    refine worstAction_mem_le _ fun action haction => ?_
    obtain ⟨more, hmore, hle⟩ := h.outdone haction
    exact hle.trans (rank_le_worstAction hmore)
  · rw [if_neg hwithin]
    exact Nat.zero_le _

end Facts

/-! ## Samples -/

section Samples

attribute [local instance] plainLibrary

/-- A policy that blocks high risk and lets critical risk pass. -/
def invertedPolicy : SecurityInstallPolicy where
  highAction := .block
  criticalAction := .allow
  providers_sorted := by decide
  providers_valid := by simp
  scopes_sorted := by decide
  scopes_nonempty := by decide
  scopes_valid := by decide

def assessedSkill (name : String) (hname : isSlug name = true) (severity : FindingSeverity) : ArtifactSecurityEvidence :=
  evidenceOf name hname (assessedWith .complete fullCoverage severity (fun _ => rfl) (Or.inl rfl) (by decide))

theorem judgeBundle_stricter_notes :
    ∃ lenient severe, judgeBundle invertedPolicy "user" [assessedSkill "notes" (by decide) .critical] = .ok lenient ∧
      judgeBundle { invertedPolicy with criticalAction := .confirm } "user" [assessedSkill "notes" (by decide) .critical] =
        .ok severe ∧ lenient.action.rank ≤ severe.action.rank := by
  have hstricter : Stricter { invertedPolicy with criticalAction := .confirm } invertedPolicy :=
    ⟨by decide, by decide, by decide, by decide, by decide, by decide, by decide, fun _ h => ⟨_, h, Nat.le_refl _⟩,
      fun _ h => h, fun _ h => h⟩
  exact @judgeBundle_stricter _ _ _ hstricter "user" [assessedSkill "notes" (by decide) .critical] (Or.inr rfl) (by simp)
    (consistent_singleton _) ⟨by decide +kernel, by decide +kernel⟩

end Samples

end AgentArtifacts.Security
