import AgentArtifacts.Wizard.Model
import Mathlib.Data.List.TakeWhile
import Mathlib.Data.List.Induction

/-!
# What the wizard finalises

A stage that returns to the path was unconfirmed by the choice that brought it back, since
every fork stands before the stages that it decides. So a confirmation on the path is as
recent as the values it stands for.
-/

namespace AgentArtifacts.Wizard

variable {Selection : Type}

/-! ## Values -/

/-- Whether two sessions have one value for a stage. -/
def SameValue (a b : WizardSession Selection) : WizardStage → Prop
  | .role => a.role = b.role
  | .maintainerAction => a.maintainerAction = b.maintainerAction
  | .profiles => a.profiles = b.profiles
  | .action => a.action = b.action
  | .scope => a.scope = b.scope
  | .source => a.sourceSelection = b.sourceSelection
  | .mode => a.installMode = b.installMode
  | .artifacts => a.basket = b.basket
  | _ => True

theorem SameValue.refl (a : WizardSession Selection) (stage : WizardStage) : SameValue a a stage := by
  cases stage <;> simp [SameValue]

variable {stage : WizardStage}

theorem SameValue.trans {a b c : WizardSession Selection} (hab : SameValue a b stage)
    (hbc : SameValue b c stage) : SameValue a c stage := by
  cases stage <;> simp only [SameValue] at * <;> exact hab.trans hbc

variable {a b : WizardSession Selection}

theorem stageReady_congr (h : SameValue a b stage) :
    stageReady a stage = stageReady b stage := by
  cases stage <;> simp only [SameValue, stageReady] at * <;> rw [h]

/-- Everything that is chosen in a session. -/
structure Choices (Selection : Type) where
  role : Option WizardRole
  maintainerAction : Option String
  profiles : List String
  action : Option String
  scope : String
  installMode : String
  sourceSelection : Option Selection
  maintainerCheckout : Bool
  basket : List BasketItem

def choices (session : WizardSession Selection) : Choices Selection where
  role := session.role
  maintainerAction := session.maintainerAction
  profiles := session.profiles
  action := session.action
  scope := session.scope
  installMode := session.installMode
  sourceSelection := session.sourceSelection
  maintainerCheckout := session.maintainerCheckout
  basket := session.basket

theorem stagesFor_congr (h : choices a = choices b) : stagesFor a = stagesFor b := by
  simp only [choices, Choices.mk.injEq] at h
  obtain ⟨hrole, hmaintainer, _, haction, _, _, _, hcheckout, _⟩ := h
  unfold stagesFor maintainerStages userStages
  rw [hrole, hmaintainer, haction, hcheckout]

theorem sameValue_of_choices (h : choices a = choices b) (stage : WizardStage) :
    SameValue a b stage := by
  simp only [choices, Choices.mk.injEq] at h
  obtain ⟨hrole, hmaintainer, hprofiles, haction, hscope, hmode, hsource, _, hbasket⟩ := h
  cases stage <;> simp only [SameValue] <;> assumption

/-! ## Stages before another -/

/-- The stages of the path before a stage. -/
def stagesBefore (session : WizardSession Selection) (stage : WizardStage) : List WizardStage :=
  (stagesFor session).takeWhile fun other => other ≠ stage

theorem mem_stagesFor_role (session : WizardSession Selection) :
    ∃ rest, stagesFor session = .onboarding :: .role :: rest := by
  unfold stagesFor maintainerStages userStages
  repeat' split
  all_goals exact ⟨_, rfl⟩

/-- A stage of a path is before another one or among what follows from it. -/
theorem mem_takeWhile_of_not_mem_drop {stages : List WizardStage} {stage other : WizardStage} (hmem : other ∈ stages)
    (h : other ∉ stages.drop (stages.idxOf stage)) : other ∈ stages.takeWhile fun item => item ≠ stage := by
  induction stages with
  | nil => cases hmem
  | cons first rest ih =>
      by_cases hfirst : first = stage
      · subst hfirst
        rw [List.idxOf_cons_self, List.drop_zero] at h
        exact absurd hmem h
      · rw [List.idxOf_cons_ne _ hfirst, List.drop_succ_cons] at h
        rw [List.takeWhile_cons_of_pos (by simpa using hfirst)]
        rcases List.mem_cons.mp hmem with rfl | hrest
        · exact List.mem_cons_self
        · exact List.mem_cons_of_mem _ (ih hrest h)

theorem mem_unconfirmFrom {confirmed stages : List WizardStage} {stage other : WizardStage} (hstage : stage ∈ stages)
    (hother : other ∈ stages) (h : other ∈ unconfirmFrom confirmed stages stage) :
    other ∈ confirmed ∧ other ∈ stages.takeWhile fun item => item ≠ stage := by
  rw [unconfirmFrom, if_pos hstage, List.mem_filter] at h
  exact ⟨h.1, mem_takeWhile_of_not_mem_drop hother (by simpa using h.2)⟩

theorem takeWhile_of_prefix {before rest : List WizardStage} (h : stage ∈ before) :
    (before ++ rest).takeWhile (fun other => other ≠ stage) = before.takeWhile fun other => other ≠ stage := by
  induction before with
  | nil => cases h
  | cons first others ih =>
      rw [List.cons_append]
      by_cases hfirst : first = stage
      · rw [List.takeWhile_cons_of_neg (by simpa using hfirst), List.takeWhile_cons_of_neg (by simpa using hfirst)]
      · rw [List.takeWhile_cons_of_pos (by simpa using hfirst), List.takeWhile_cons_of_pos (by simpa using hfirst)]
        rcases List.mem_cons.mp h with hsame | hrest
        · exact absurd hsame.symm hfirst
        · rw [ih hrest]

/-! ## Steps that confirm nothing -/

/-- The confirmations that a step leaves on the path: those of a common beginning of both
paths, on which no value has changed. -/
structure Keeps (a b : WizardSession Selection) (before : List WizardStage) : Prop where
  left : ∃ rest, stagesFor a = before ++ rest
  right : ∃ rest, stagesFor b = before ++ rest
  confirmed : ∀ stage ∈ stagesFor b, stage ∈ b.confirmed → stage ∈ before ∧ stage ∈ a.confirmed
  values : ∀ stage ∈ before, SameValue a b stage

theorem Keeps.stagesBefore {before : List WizardStage} (h : Keeps a b before) (hstage : stage ∈ before) :
    stagesBefore a stage = stagesBefore b stage := by
  obtain ⟨_, hleft⟩ := h.left
  obtain ⟨_, hright⟩ := h.right
  rw [Wizard.stagesBefore, Wizard.stagesBefore, hleft, hright, takeWhile_of_prefix hstage, takeWhile_of_prefix hstage]

theorem keeps_of_choices (hchoices : choices a = choices b)
    (hconfirmed : ∀ stage ∈ b.confirmed, stage ∈ a.confirmed) : Keeps a b (stagesFor b) where
  left := ⟨[], by rw [List.append_nil, stagesFor_congr hchoices]⟩
  right := ⟨[], (List.append_nil _).symm⟩
  confirmed stage hstage h := ⟨hstage, hconfirmed stage h⟩
  values stage _ := sameValue_of_choices hchoices stage

theorem keeps_refl (a : WizardSession Selection) : Keeps a a (stagesFor a) := keeps_of_choices rfl fun _ h => h

/-- The changed session before it is settled: one stage has another value, and the path up to
that stage is the same. -/
structure Changed (a b : WizardSession Selection) (stage : WizardStage) : Prop where
  confirmed : b.confirmed = a.confirmed
  current : b.current = a.current
  revision : b.revision = a.revision
  before : stage ∈ stagesFor b → Wizard.stagesBefore a stage = Wizard.stagesBefore b stage
  elsewhere : stage ∉ stagesFor b → stagesFor a = stagesFor b
  values : ∀ other, other ≠ stage → SameValue a b other

/-- The path of a user goes on after the action. -/
theorem userStages_eq (session : WizardSession Selection) (before : List WizardStage) :
    ∃ rest, userStages session before = before ++ [.profiles, .action] ++ rest := by
  unfold userStages
  cases session.action with
  | none => exact ⟨[], (List.append_nil _).symm⟩
  | some action =>
      dsimp only
      repeat' split
      all_goals
        simp only [List.append_assoc]
        exact ⟨_, rfl⟩

theorem stagesFor_maintainer {session : WizardSession Selection} (h : session.role = some .maintainer) :
    ∃ rest, stagesFor session = maintainerStages session ++ rest := by
  unfold stagesFor
  rw [h]
  dsimp only
  split
  · exact ⟨[], (List.append_nil _).symm⟩
  · split
    · exact ⟨_, rfl⟩
    · split
      · exact ⟨_, rfl⟩
      · split
        · obtain ⟨rest, hrest⟩ := userStages_eq session (maintainerStages session)
          exact ⟨_, by rw [hrest, List.append_assoc]⟩
        · exact ⟨[], (List.append_nil _).symm⟩

/-- The action decides about the path from its own stage on, or not at all. -/
theorem stagesFor_action (session : WizardSession Selection) (action : Option String) :
    (∃ before, stagesFor session = userStages session before ∧
      stagesFor { session with action := action } = userStages { session with action := action } before) ∨
      stagesFor session = stagesFor { session with action := action } := by
  unfold stagesFor
  cases session.role with
  | none => exact Or.inr rfl
  | some role =>
      cases role with
      | user => exact Or.inl ⟨_, rfl, rfl⟩
      | maintainer =>
          cases session.maintainerAction with
          | none => exact Or.inr rfl
          | some chosen =>
              dsimp only
              by_cases hreviewed : chosen ∈ reviewedActions
              · rw [if_pos hreviewed, if_pos hreviewed]
                exact Or.inr rfl
              · rw [if_neg hreviewed, if_neg hreviewed]
                by_cases hdetailed : chosen ∈ detailedActions
                · rw [if_pos hdetailed, if_pos hdetailed]
                  exact Or.inr rfl
                · rw [if_neg hdetailed, if_neg hdetailed]
                  by_cases huser : chosen = "user"
                  · rw [if_pos huser, if_pos huser]
                    exact Or.inl ⟨_, rfl, rfl⟩
                  · rw [if_neg huser, if_neg huser]
                    exact Or.inr rfl

/-- Paths with a common beginning that includes a stage agree before it. -/
theorem stagesBefore_of_prefix {before : List WizardStage}
    (hleft : ∃ rest, stagesFor a = before ++ rest) (hright : ∃ rest, stagesFor b = before ++ rest)
    (hstage : stage ∈ before) : stagesBefore a stage = stagesBefore b stage := by
  obtain ⟨_, hleft⟩ := hleft
  obtain ⟨_, hright⟩ := hright
  rw [stagesBefore, stagesBefore, hleft, hright, takeWhile_of_prefix hstage, takeWhile_of_prefix hstage]

/-- A value that the path does not depend on. -/
theorem changed_of_same_path (hconfirmed : b.confirmed = a.confirmed)
    (hcurrent : b.current = a.current) (hrevision : b.revision = a.revision) (hpath : stagesFor a = stagesFor b)
    (hvalues : ∀ other, other ≠ stage → SameValue a b other) : Changed a b stage where
  confirmed := hconfirmed
  current := hcurrent
  revision := hrevision
  before _ := by rw [stagesBefore, stagesBefore, hpath]
  elsewhere _ := hpath
  values := hvalues

theorem changed_role (session : WizardSession Selection) (role : WizardRole) :
    Changed session { session with role := some role, maintainerCheckout := false } .role where
  confirmed := rfl
  current := rfl
  revision := rfl
  before _ := by
    obtain ⟨_, hleft⟩ := mem_stagesFor_role session
    obtain ⟨_, hright⟩ :=
      mem_stagesFor_role { session with role := some role, maintainerCheckout := false }
    have hmem : WizardStage.role ∈ [WizardStage.onboarding, .role] := by decide
    exact stagesBefore_of_prefix ⟨_, hleft⟩ ⟨_, hright⟩ hmem
  elsewhere hnot := by
    obtain ⟨rest, hright⟩ :=
      mem_stagesFor_role { session with role := some role, maintainerCheckout := false }
    rw [hright] at hnot
    exact absurd (List.mem_cons_of_mem _ List.mem_cons_self) hnot
  values other hother := by
    cases other <;> simp only [SameValue]
    exact absurd rfl hother

theorem changed_maintainerAction (session : WizardSession Selection) (action : String) :
    Changed session { session with maintainerAction := some action } .maintainerAction := by
  have hvalues (other : WizardStage) (hother : other ≠ .maintainerAction) :
      SameValue session { session with maintainerAction := some action } other := by
    cases other <;> simp only [SameValue]
    exact absurd rfl hother
  by_cases hrole : session.role = some .maintainer
  · have hmem : WizardStage.maintainerAction ∈ maintainerStages session := by simp [maintainerStages]
    have hright : ∃ rest, stagesFor { session with maintainerAction := some action } = maintainerStages session ++ rest :=
      @stagesFor_maintainer _ { session with maintainerAction := some action } hrole
    refine ⟨rfl, rfl, rfl, fun _ => ?_, fun hnot => ?_, hvalues⟩
    · exact stagesBefore_of_prefix (stagesFor_maintainer hrole) hright hmem
    · obtain ⟨rest, hright⟩ := hright
      rw [hright] at hnot
      exact absurd (List.mem_append_left _ hmem) hnot
  · refine changed_of_same_path rfl rfl rfl ?_ hvalues
    unfold stagesFor
    dsimp only
    split
    · rfl
    · rfl
    · rename_i hmaintainer
      exact absurd hmaintainer hrole

theorem changed_action (session : WizardSession Selection) (action : String) :
    Changed session { session with action := some action } .action := by
  have hvalues (other : WizardStage) (hother : other ≠ .action) :
      SameValue session { session with action := some action } other := by
    cases other <;> simp only [SameValue]
    exact absurd rfl hother
  rcases stagesFor_action session (some action) with ⟨before, hleft, hright⟩ | hsame
  · obtain ⟨rest, hrest⟩ := userStages_eq session before
    obtain ⟨rest', hrest'⟩ := userStages_eq { session with action := some action } before
    rw [hrest] at hleft
    rw [hrest'] at hright
    have hmem : WizardStage.action ∈ before ++ [.profiles, .action] := by simp
    refine ⟨rfl, rfl, rfl, fun _ => ?_, fun hnot => ?_, hvalues⟩
    · exact stagesBefore_of_prefix ⟨_, hleft⟩ ⟨_, hright⟩ hmem
    · rw [hright] at hnot
      exact absurd (List.mem_append_left _ hmem) hnot
  · exact changed_of_same_path rfl rfl rfl hsame hvalues

theorem changed_of_withValue {session changed : WizardSession Selection}
    {value : StageValue Selection} (h : withValue session stage value = some changed) : Changed session changed stage := by
  cases stage with
  | role =>
      obtain ⟨role, _, rfl⟩ := Option.map_eq_some_iff.mp h
      exact changed_role session role
  | maintainerAction =>
      obtain rfl := Option.some.inj h
      exact changed_maintainerAction session value.text
  | action =>
      obtain rfl := Option.some.inj h
      exact changed_action session value.text
  | profiles =>
      obtain ⟨texts, _, rfl⟩ := Option.map_eq_some_iff.mp h
      refine changed_of_same_path rfl rfl rfl rfl fun other hother => ?_
      cases other <;> simp only [SameValue]
      exact absurd rfl hother
  | scope =>
      obtain rfl := Option.some.inj h
      refine changed_of_same_path rfl rfl rfl rfl fun other hother => ?_
      cases other <;> simp only [SameValue]
      exact absurd rfl hother
  | mode =>
      obtain rfl := Option.some.inj h
      refine changed_of_same_path rfl rfl rfl rfl fun other hother => ?_
      cases other <;> simp only [SameValue]
      exact absurd rfl hother
  | artifacts =>
      obtain ⟨items, _, rfl⟩ := Option.map_eq_some_iff.mp h
      refine changed_of_same_path rfl rfl rfl rfl fun other hother => ?_
      cases other <;> simp only [SameValue]
      exact absurd rfl hother
  | source =>
      obtain ⟨selection, _, rfl⟩ := Option.map_eq_some_iff.mp h
      refine changed_of_same_path rfl rfl rfl rfl fun other hother => ?_
      cases other <;> simp only [SameValue]
      exact absurd rfl hother
  | onboarding => cases h
  | nativeDetails => cases h
  | review => cases h

/-! ## Steps -/

theorem mem_of_unconfirmFrom {confirmed stages : List WizardStage} {stage other : WizardStage}
    (h : other ∈ unconfirmFrom confirmed stages stage) : other ∈ confirmed := by
  unfold unconfirmFrom at h
  split at h
  · exact (List.mem_filter.mp h).1
  · exact h

theorem keeps_of_unconfirmed (hbefore : stage ∈ stagesFor b → stagesBefore a stage = stagesBefore b stage)
    (helsewhere : stage ∉ stagesFor b → stagesFor a = stagesFor b)
    (hvalues : ∀ other, other ≠ stage → SameValue a b other)
    (hconfirmed : b.confirmed = unconfirmFrom a.confirmed (stagesFor b) stage) : ∃ before, Keeps a b before := by
  by_cases hmem : stage ∈ stagesFor b
  · refine ⟨stagesBefore b stage, ⟨(stagesFor a).dropWhile fun other => other ≠ stage, ?_⟩,
      ⟨_, (List.takeWhile_append_dropWhile).symm⟩, fun other hother h => ?_, fun other hother => hvalues other ?_⟩
    · rw [← hbefore hmem]
      exact (List.takeWhile_append_dropWhile).symm
    · rw [hconfirmed] at h
      exact (mem_unconfirmFrom hmem hother h).symm
    · simpa using List.mem_takeWhile_imp hother
  · refine ⟨stagesFor b, ⟨[], by rw [List.append_nil, helsewhere hmem]⟩, ⟨[], (List.append_nil _).symm⟩,
      fun other hother h => ⟨hother, ?_⟩, fun other hother => hvalues other ?_⟩
    · rw [hconfirmed] at h
      exact mem_of_unconfirmFrom h
    · rintro rfl
      exact hmem hother

theorem keeps_settle {session changed : WizardSession Selection}
    (h : Changed session changed stage) : ∃ before, Keeps session (settle changed stage) before := by
  refine keeps_of_unconfirmed h.before h.elsewhere (fun other hother => ?_) ?_
  · have hvalue := h.values other hother
    cases other <;> exact hvalue
  · rw [← h.confirmed]
    rfl

theorem keeps_useCurrentCheckout (session : WizardSession Selection) :
    ∃ before, Keeps session (useCurrentCheckout session) before := by
  unfold useCurrentCheckout
  split
  · exact ⟨_, keeps_refl session⟩
  · rename_i hopen
    obtain ⟨hrole, _⟩ := not_or.mp hopen
    let changed : WizardSession Selection := { session with maintainerCheckout := true, sourceSelection := none }
    obtain ⟨rest, hrest⟩ := @stagesFor_maintainer _ changed (not_not.mp hrole)
    have hstages : stagesFor (settle changed .maintainerAction) =
        [.onboarding, .role] ++ (.maintainerAction :: rest) := hrest
    obtain ⟨_, hleft⟩ := mem_stagesFor_role session
    refine ⟨[.onboarding, .role], ⟨_, hleft⟩, ⟨_, hstages⟩, fun stage hstage h => ?_, fun stage hstage => ?_⟩
    · rw [hstages] at hstage
      have hconfirmed : stage ∈ unconfirmFrom session.confirmed ([.onboarding, .role] ++ (.maintainerAction :: rest))
          .maintainerAction := by
        rw [← hstages]
        exact h
      exact (mem_unconfirmFrom (by simp) hstage hconfirmed).symm
    · simp only [List.mem_cons, List.not_mem_nil, or_false] at hstage
      rcases hstage with rfl | rfl
      · trivial
      · rfl

theorem keeps_back (session : WizardSession Selection) : ∃ before, Keeps session (back session) before := by
  unfold back
  dsimp only
  split
  · exact ⟨_, keeps_of_choices rfl fun _ h => h⟩
  · split
    · exact ⟨_, keeps_refl session⟩
    · exact ⟨_, keeps_of_choices rfl fun _ h => mem_of_unconfirmFrom h⟩

theorem keeps_reconcileBasket (session : WizardSession Selection) (availability : List (String × String)) :
    ∃ before, Keeps session (reconcileBasket session availability) before := by
  unfold reconcileBasket
  dsimp only
  split
  · exact ⟨_, keeps_refl session⟩
  · refine @keeps_of_unconfirmed _ .artifacts _ _ (fun _ => rfl) (fun _ => rfl) (fun other hother => ?_) rfl
    cases other <;> simp only [SameValue]
    exact absurd rfl hother

/-- What leaving a stage forwards confirms. -/
theorem advance_confirms (session : WizardSession Selection) :
    choices (advance session) = choices session ∧ ∀ stage ∈ (advance session).confirmed, stage ∈ session.confirmed ∨
      stage = session.current ∧ session.current ∈ stagesFor session ∧ stageReady session session.current = true := by
  unfold advance
  dsimp only
  split
  · exact ⟨rfl, fun stage h => Or.inl h⟩
  · rename_i hopen
    simp only [not_or, not_not, Bool.not_eq_false] at hopen
    have hadded (stage : WizardStage) (h : stage ∈ appendOnce session.confirmed session.current) :
        stage ∈ session.confirmed ∨ stage = session.current ∧ session.current ∈ stagesFor session ∧
          stageReady session session.current = true := by
      unfold appendOnce at h
      split at h
      · exact Or.inl h
      · rcases List.mem_append.mp h with h | h
        · exact Or.inl h
        · exact Or.inr ⟨List.mem_singleton.mp h, hopen⟩
    split
    · exact ⟨rfl, hadded⟩
    · exact ⟨rfl, hadded⟩

section Runs

variable [DecidableEq Selection]

theorem keeps_select (session : WizardSession Selection) (stage : WizardStage) (value : StageValue Selection) :
    ∃ before, Keeps session (select session stage value) before := by
  unfold select
  split
  · exact ⟨_, keeps_refl session⟩
  · rename_i changed hchanged
    split
    · exact ⟨_, keeps_refl session⟩
    · exact keeps_settle (changed_of_withValue hchanged)

/-- Every operation but one keeps the confirmations that it leaves on the path. -/
theorem step_keeps (session : WizardSession Selection) (operation : WizardOperation Selection) :
    operation = .advance ∨ ∃ before, Keeps session (step session operation) before := by
  cases operation with
  | select stage value => exact Or.inr (keeps_select session stage value)
  | advance => exact Or.inl rfl
  | back => exact Or.inr (keeps_back session)
  | rememberPosition stage cursor scroll => exact Or.inr ⟨_, keeps_of_choices rfl fun _ h => h⟩
  | reconcileBasket availability => exact Or.inr (keeps_reconcileBasket session availability)
  | useCurrentCheckout => exact Or.inr (keeps_useCurrentCheckout session)

/-! ## The current stage -/

omit [DecidableEq Selection] in
theorem settle_current {session changed : WizardSession Selection} {stage : WizardStage}
    (hcurrent : session.current ∈ stagesFor session) (h : Changed session changed stage) :
    (settle changed stage).current ∈ stagesFor (settle changed stage) := by
  show (if changed.current ∈ stagesFor changed then changed.current else stage) ∈ stagesFor changed
  split
  · assumption
  · rename_i hnot
    by_contra hstage
    rw [h.current, ← h.elsewhere hstage] at hnot
    exact hnot hcurrent

theorem step_current {session : WizardSession Selection} (operation : WizardOperation Selection)
    (h : session.current ∈ stagesFor session) : (step session operation).current ∈ stagesFor (step session operation) := by
  cases operation with
  | select stage value =>
      show (select session stage value).current ∈ stagesFor (select session stage value)
      unfold select
      split
      · exact h
      · rename_i changed hchanged
        split
        · exact h
        · exact settle_current h (changed_of_withValue hchanged)
  | advance =>
      show (advance session).current ∈ stagesFor (advance session)
      unfold advance
      dsimp only
      split
      · exact h
      · split
        · exact h
        · rename_i next hnext
          exact List.mem_of_getElem? hnext
  | back =>
      show (back session).current ∈ stagesFor (back session)
      unfold back
      dsimp only
      split
      · rename_i hnot
        exact absurd h hnot
      · split
        · exact h
        · rename_i index hindex
          have hlt : index < (stagesFor session).length := by
            have hbound := List.idxOf_lt_length_iff.mpr h
            omega
          show (stagesFor session).getD index .onboarding ∈ stagesFor session
          rw [List.getD_eq_getElem?_getD, List.getElem?_eq_getElem hlt]
          exact List.getElem_mem hlt
  | rememberPosition stage cursor scroll => exact h
  | reconcileBasket availability =>
      show (reconcileBasket session availability).current ∈ stagesFor (reconcileBasket session availability)
      unfold reconcileBasket
      dsimp only
      split
      · exact h
      · exact h
  | useCurrentCheckout =>
      show (useCurrentCheckout session).current ∈ stagesFor (useCurrentCheckout session)
      unfold useCurrentCheckout
      split
      · exact h
      · rename_i hopen
        have hrole := not_not.mp (not_or.mp hopen).1
        let changed : WizardSession Selection := { session with maintainerCheckout := true, sourceSelection := none }
        show (if changed.current ∈ stagesFor changed then changed.current else .maintainerAction) ∈ stagesFor changed
        split
        · assumption
        · obtain ⟨rest, hrest⟩ := @stagesFor_maintainer _ changed hrole
          rw [hrest]
          exact List.mem_append_left _ (by simp [maintainerStages])

/-! ## Revisions -/

/-- A step that changes a choice counts as a revision. -/
theorem step_revision (session : WizardSession Selection) (operation : WizardOperation Selection) :
    choices (step session operation) = choices session ∧ session.revision ≤ (step session operation).revision ∨
      session.revision < (step session operation).revision := by
  cases operation with
  | select stage value =>
      show choices (select session stage value) = choices session ∧ session.revision ≤ (select session stage value).revision ∨
        session.revision < (select session stage value).revision
      unfold select
      split
      · exact Or.inl ⟨rfl, le_refl _⟩
      · rename_i changed hchanged
        split
        · exact Or.inl ⟨rfl, le_refl _⟩
        · refine Or.inr ?_
          show session.revision < changed.revision + 1
          rw [(changed_of_withValue hchanged).revision]
          omega
  | advance =>
      refine Or.inl ⟨(advance_confirms session).1, ?_⟩
      show session.revision ≤ (advance session).revision
      unfold advance
      dsimp only
      split
      · exact le_refl _
      · split <;> exact le_refl _
  | back =>
      show choices (back session) = choices session ∧ session.revision ≤ (back session).revision ∨
        session.revision < (back session).revision
      unfold back
      dsimp only
      split
      · exact Or.inl ⟨rfl, le_refl _⟩
      · split
        · exact Or.inl ⟨rfl, le_refl _⟩
        · exact Or.inr (Nat.lt_succ_self _)
  | rememberPosition stage cursor scroll => exact Or.inl ⟨rfl, le_refl _⟩
  | reconcileBasket availability =>
      show choices (reconcileBasket session availability) = choices session ∧
          session.revision ≤ (reconcileBasket session availability).revision ∨
        session.revision < (reconcileBasket session availability).revision
      unfold reconcileBasket
      dsimp only
      split
      · exact Or.inl ⟨rfl, le_refl _⟩
      · exact Or.inr (Nat.lt_succ_self _)
  | useCurrentCheckout =>
      show choices (useCurrentCheckout session) = choices session ∧
          session.revision ≤ (useCurrentCheckout session).revision ∨
        session.revision < (useCurrentCheckout session).revision
      unfold useCurrentCheckout
      split
      · exact Or.inl ⟨rfl, le_refl _⟩
      · exact Or.inr (Nat.lt_succ_self _)

theorem foldl_revision (session : WizardSession Selection) (operations : List (WizardOperation Selection)) :
    choices (operations.foldl step session) = choices session ∧
        session.revision ≤ (operations.foldl step session).revision ∨
      session.revision < (operations.foldl step session).revision := by
  induction operations generalizing session with
  | nil => exact Or.inl ⟨rfl, le_refl _⟩
  | cons operation rest ih =>
      rw [List.foldl_cons]
      rcases step_revision session operation with ⟨hsame, hle⟩ | hlt
      · rcases ih (step session operation) with ⟨hrest, hle'⟩ | hlt'
        · exact Or.inl ⟨hrest.trans hsame, hle.trans hle'⟩
        · exact Or.inr (by omega)
      · rcases ih (step session operation) with ⟨_, hle'⟩ | hlt' <;> exact Or.inr (by omega)

/-! ## Confirmations -/

theorem run_append (operations more : List (WizardOperation Selection)) :
    run (operations ++ more) = more.foldl step (run operations) := List.foldl_append

theorem run_current (operations : List (WizardOperation Selection)) :
    (run operations).current ∈ stagesFor (run operations) := by
  induction operations using List.reverseRecOn with
  | nil => exact List.mem_cons_self
  | append_singleton operations operation ih =>
      rw [run_append]
      exact step_current operation ih

/-- A stage was left forwards while it was ready, and since then neither the stages before it
on the path nor their values or its own have changed. -/
def ConfirmedBy (operations : List (WizardOperation Selection)) (stage : WizardStage) : Prop :=
  ∃ before after, operations = before ++ .advance :: after ∧ (run before).current = stage ∧
    stage ∈ stagesFor (run before) ∧ stageReady (run before) stage = true ∧
    ∀ since, since <+: after →
      stagesBefore (run (before ++ .advance :: since)) stage = stagesBefore (run operations) stage ∧
        ∀ other, other = stage ∨ other ∈ stagesBefore (run operations) stage →
          SameValue (run (before ++ .advance :: since)) (run operations) other

/-- One more operation that leaves the path up to the stage and its values as they are. -/
theorem ConfirmedBy.snoc {operations : List (WizardOperation Selection)} {stage : WizardStage}
    (h : ConfirmedBy operations stage) {operation : WizardOperation Selection}
    (hpath : stagesBefore (run operations) stage = stagesBefore (run (operations ++ [operation])) stage)
    (hvalues : ∀ other, other = stage ∨ other ∈ stagesBefore (run operations) stage →
      SameValue (run operations) (run (operations ++ [operation])) other) :
    ConfirmedBy (operations ++ [operation]) stage := by
  obtain ⟨before, after, rfl, hcurrent, hstage, hready, hsince⟩ := h
  refine ⟨before, after ++ [operation], by simp, hcurrent, hstage, hready, fun since hprefix => ?_⟩
  rcases List.prefix_concat_iff.mp hprefix with rfl | hshort
  · have hwhole : before ++ .advance :: (after ++ [operation]) = before ++ .advance :: after ++ [operation] := by simp
    rw [hwhole]
    exact ⟨rfl, fun other _ => SameValue.refl _ other⟩
  · obtain ⟨hsame, hkept⟩ := hsince since hshort
    refine ⟨hsame.trans hpath, fun other hother => ?_⟩
    rw [← hpath] at hother
    exact (hkept other hother).trans (hvalues other hother)

/-- By induction over the run: every confirmation on the path has its step. -/
theorem confirmedBy_of_confirmed (operations : List (WizardOperation Selection)) :
    ∀ stage ∈ stagesFor (run operations), stage ∈ (run operations).confirmed → ConfirmedBy operations stage := by
  induction operations using List.reverseRecOn with
  | nil =>
      intro stage _ h
      cases h
  | append_singleton operations operation ih =>
      have hrun : run (operations ++ [operation]) = step (run operations) operation := run_append operations [operation]
      intro stage hstage hconfirmed
      rcases step_keeps (run operations) operation with rfl | ⟨before, hkeeps⟩
      · obtain ⟨hchoices, hadded⟩ := advance_confirms (run operations)
        have hsame : choices (run operations) = choices (run (operations ++ [.advance])) := by
          rw [hrun]
          exact hchoices.symm
        have hpath := stagesFor_congr hsame
        rw [hrun] at hconfirmed
        rcases hadded stage hconfirmed with hold | ⟨rfl, hmem, hready⟩
        · refine (ih stage (hpath ▸ hstage) hold).snoc ?_ fun other _ => sameValue_of_choices hsame other
          rw [stagesBefore, stagesBefore, hpath]
        · refine ⟨operations, [], rfl, rfl, hmem, hready, fun since hprefix => ?_⟩
          rw [List.prefix_nil.mp hprefix]
          exact ⟨rfl, fun other _ => SameValue.refl _ other⟩
      · rw [← hrun] at hkeeps
        obtain ⟨hbefore, hold⟩ := hkeeps.confirmed stage hstage hconfirmed
        obtain ⟨rest, hleft⟩ := hkeeps.left
        have hold' := ih stage (by rw [hleft]; exact List.mem_append_left _ hbefore) hold
        refine hold'.snoc (hkeeps.stagesBefore hbefore) fun other hother => hkeeps.values other ?_
        rcases hother with rfl | hother
        · exact hbefore
        · rw [Wizard.stagesBefore, hleft, takeWhile_of_prefix hbefore] at hother
          exact (List.takeWhile_prefix _).subset hother

/-- The wizard finalises only what was confirmed: the cursor stays on the path; where a session
can be finalised every stage before the review is ready and was confirmed after the last
change up to it; and one revision stands for one set of choices. -/
theorem wizard_finalises_confirmed (operations : List (WizardOperation Selection)) :
    (run operations).current ∈ stagesFor (run operations) ∧
      (canFinalize (run operations) none = true → ∀ stage ∈ stagesFor (run operations), stage ≠ .review →
        ConfirmedBy operations stage ∧ stageReady (run operations) stage = true) ∧
      ∀ more, (run operations).revision ≤ (run (operations ++ more)).revision ∧
        ((run (operations ++ more)).revision = (run operations).revision →
          choices (run (operations ++ more)) = choices (run operations)) ∧
        (canFinalize (run (operations ++ more)) (some (run operations).revision) = true →
          choices (run (operations ++ more)) = choices (run operations)) := by
  refine ⟨run_current operations, fun hfinal stage hstage hreview => ?_, fun more => ?_⟩
  · simp only [canFinalize, Bool.and_eq_true, List.all_eq_true, decide_eq_true_eq] at hfinal
    have hconfirmed := hfinal.2 stage (List.mem_filter.mpr ⟨hstage, by simpa using hreview⟩)
    have hby := confirmedBy_of_confirmed operations stage hstage hconfirmed
    refine ⟨hby, ?_⟩
    obtain ⟨before, after, hsplit, hcurrent, hmem, hready, hsince⟩ := hby
    have hadvance : run (before ++ [.advance]) = advance (run before) := run_append before [.advance]
    have hleft : SameValue (run before) (run (before ++ [.advance])) stage := by
      rw [hadvance]
      exact sameValue_of_choices (advance_confirms (run before)).1.symm stage
    have hnow := (hsince [] (List.nil_prefix)).2 stage (Or.inl rfl)
    rw [← stageReady_congr (hleft.trans hnow)]
    exact hready
  · have hrevision := foldl_revision (run operations) more
    rw [← run_append] at hrevision
    have hsame (h : (run (operations ++ more)).revision = (run operations).revision) :
        choices (run (operations ++ more)) = choices (run operations) := by
      rcases hrevision with ⟨hchoices, _⟩ | hlt
      · exact hchoices
      · omega
    refine ⟨by rcases hrevision with ⟨_, hle⟩ | hlt <;> omega, hsame, fun hfinal => hsame ?_⟩
    simp only [canFinalize, Bool.and_eq_true, Option.all_some, beq_iff_eq] at hfinal
    exact hfinal.1.1.1.symm

end Runs

end AgentArtifacts.Wizard
