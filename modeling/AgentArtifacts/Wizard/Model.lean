import AgentArtifacts.Domain

/-!
# The wizard session

The stages of a session depend on the values that are chosen in it. A stage is confirmed
when it is left forwards, and a change of its value takes the confirmation back, along with
those of the stages after it.
-/

namespace AgentArtifacts.Wizard

/-! ## Sessions -/

inductive WizardStage where
  | onboarding
  | role
  | maintainerAction
  | profiles
  | action
  | scope
  | source
  | mode
  | artifacts
  | nativeDetails
  | review
deriving DecidableEq

inductive WizardRole where
  | user
  | maintainer
deriving DecidableEq

structure WizardPosition where
  stage : WizardStage
  cursor : Int := 0
  scroll : Int := 0
deriving DecidableEq

inductive BasketKind where
  | artifact
  | collection
  | reference
deriving DecidableEq

structure BasketItem where
  kind : BasketKind
  key : String
  label : String
  description : String := ""
deriving DecidableEq

structure WizardNotice where
  stage : WizardStage
  value : String
  reason : String
deriving DecidableEq

/-- A session; what a selection of sources holds is left to its screen. -/
structure WizardSession (Selection : Type) where
  current : WizardStage := .onboarding
  visited : List WizardStage := []
  confirmed : List WizardStage := []
  role : Option WizardRole := none
  maintainerAction : Option String := none
  profiles : List String := []
  action : Option String := none
  scope : String := "project"
  installMode : String := "copy"
  sourceSelection : Option Selection := none
  maintainerCheckout : Bool := false
  basket : List BasketItem := []
  positions : List WizardPosition := []
  notices : List WizardNotice := []
  revision : Nat := 0
deriving DecidableEq

variable {Selection : Type}

def initialSession : WizardSession Selection := {}

/-! ## Stages -/

/-- `_user_stages`. -/
def userStages (session : WizardSession Selection) (before : List WizardStage) : List WizardStage :=
  let stages := before ++ [.profiles, .action]
  match session.action with
  | none => stages
  | some action =>
      let stages := stages ++ [.scope]
      if action = "install" then stages ++ [.mode, .artifacts, .review]
      else if action = "update" then stages ++ [.artifacts, .review]
      else if action = "uninstall" then stages ++ [.artifacts, .review]
      else if action = "status" then stages ++ [.review]
      else stages

def reviewedActions : List String := ["health", "validate", "audit", "diff", "lock", "build"]

def detailedActions : List String :=
  ["init", "scaffold", "collection", "promote-native", "refresh-native", "vendor", "revendor"]

/-- The stages up to the one where a maintainer chooses what to do. -/
def maintainerStages (session : WizardSession Selection) : List WizardStage :=
  [.onboarding, .role] ++ (if session.maintainerCheckout then [] else [.source]) ++ [.maintainerAction]

/-- `stages_for`. -/
def stagesFor (session : WizardSession Selection) : List WizardStage :=
  match session.role with
  | none => [.onboarding, .role]
  | some .user => userStages session [.onboarding, .role, .source]
  | some .maintainer =>
      match session.maintainerAction with
      | none => maintainerStages session
      | some action =>
          if action ∈ reviewedActions then maintainerStages session ++ [.review]
          else if action ∈ detailedActions then maintainerStages session ++ [.nativeDetails, .review]
          else if action = "user" then userStages session (maintainerStages session)
          else maintainerStages session

/-- `_append_once`. -/
def appendOnce (values : List WizardStage) (stage : WizardStage) : List WizardStage :=
  if stage ∈ values then values else values ++ [stage]

/-- `_stage_ready`. -/
def stageReady (session : WizardSession Selection) : WizardStage → Bool
  | .role => session.role.isSome
  | .maintainerAction => session.maintainerAction.isSome
  | .source => session.sourceSelection.isSome
  | .profiles => !session.profiles.isEmpty
  | .action => session.action.isSome
  | .artifacts => !session.basket.isEmpty
  | _ => true

/-- `_unconfirm_from`. -/
def unconfirmFrom (confirmed stages : List WizardStage) (stage : WizardStage) : List WizardStage :=
  if stage ∈ stages then confirmed.filter fun item => item ∉ stages.drop (stages.idxOf stage) else confirmed

/-! ## Operations -/

/-- What `select` asks of a value: the role that it equals, its text, the texts of its members
where it is a sequence, its members where all of them are basket items, and whether it is a
selection of sources. -/
structure StageValue (Selection : Type) where
  role : Option WizardRole := none
  text : String := ""
  texts : Option (List String) := none
  items : Option (List BasketItem) := none
  selection : Option Selection := none

/-- The session with the value of one stage, unless the value is not one for the stage. -/
def withValue (session : WizardSession Selection) (stage : WizardStage) (value : StageValue Selection) :
    Option (WizardSession Selection) :=
  match stage with
  | .role => value.role.map fun role => { session with role := some role, maintainerCheckout := false }
  | .maintainerAction => some { session with maintainerAction := some value.text }
  | .profiles => value.texts.map fun texts => { session with profiles := texts }
  | .action => some { session with action := some value.text }
  | .scope => some { session with scope := value.text }
  | .mode => some { session with installMode := value.text }
  | .artifacts => value.items.map fun items => { session with basket := items }
  | .source => value.selection.map fun selection => { session with sourceSelection := some selection }
  | _ => none

/-- What follows a change of the value of a stage. -/
def settle (changed : WizardSession Selection) (stage : WizardStage) : WizardSession Selection :=
  let stages := stagesFor changed
  { changed with
    current := if changed.current ∈ stages then changed.current else stage
    confirmed := unconfirmFrom changed.confirmed stages stage
    notices := []
    revision := changed.revision + 1 }

def select [DecidableEq Selection] (session : WizardSession Selection) (stage : WizardStage)
    (value : StageValue Selection) : WizardSession Selection :=
  match withValue session stage value with
  | none => session
  | some changed => if changed = session then session else settle changed stage

def useCurrentCheckout (session : WizardSession Selection) : WizardSession Selection :=
  if session.role ≠ some .maintainer ∨ session.maintainerCheckout = true then session
  else settle { session with maintainerCheckout := true, sourceSelection := none } .maintainerAction

def advance (session : WizardSession Selection) : WizardSession Selection :=
  let stages := stagesFor session
  if session.current ∉ stages ∨ stageReady session session.current = false then session
  else
    let left := { session with
      visited := appendOnce session.visited session.current
      confirmed := appendOnce session.confirmed session.current }
    match stages[stages.idxOf session.current + 1]? with
    | none => left
    | some next => { left with current := next }

def back (session : WizardSession Selection) : WizardSession Selection :=
  let stages := stagesFor session
  if session.current ∉ stages then { session with current := stages.getLast?.getD .onboarding }
  else
    match stages.idxOf session.current with
    | 0 => session
    | index + 1 =>
        let target := stages.getD index .onboarding
        { session with
          current := target
          visited := appendOnce session.visited session.current
          confirmed := unconfirmFrom session.confirmed stages target
          revision := session.revision + 1 }

def rememberPosition (session : WizardSession Selection) (stage : WizardStage) (cursor scroll : Int) :
    WizardSession Selection :=
  { session with
    positions := session.positions.filter (fun item => item.stage ≠ stage) ++ [⟨stage, max cursor 0, max scroll 0⟩] }

/-- The notice about an item that is no longer offered. -/
def removalNotice (availability : List (String × String)) (item : BasketItem) : WizardNotice :=
  ⟨.artifacts, item.key,
    match availability.lookup item.key with
    | none => "no longer available for the selected choices"
    | some reason => if reason = "" then "no longer available for the selected choices" else reason⟩

/-- The reason of an available item is empty. -/
def reconcileBasket (session : WizardSession Selection) (availability : List (String × String)) : WizardSession Selection :=
  let isAvailable (item : BasketItem) : Bool := availability.lookup item.key == some ""
  let basket := session.basket.filter isAvailable
  let notices := (session.basket.filter fun item => !isAvailable item).map (removalNotice availability)
  let lastIndex : Int := max ((availability.length : Int) - 1) 0
  let positions := session.positions.map fun position =>
    if position.stage = .artifacts then
      { position with cursor := min position.cursor lastIndex, scroll := min position.scroll lastIndex }
    else position
  if basket = session.basket ∧ notices = session.notices ∧ positions = session.positions then session
  else
    { session with
      basket, notices, positions
      confirmed := unconfirmFrom session.confirmed (stagesFor session) .artifacts
      revision := session.revision + 1 }

/-- `can_finalize`; the revision is the one that was reviewed, where one is given. -/
def canFinalize (session : WizardSession Selection) (revision : Option Nat) : Bool :=
  let stages := stagesFor session
  revision.all (· == session.revision) && session.current == .review && stages.getLast? == some .review &&
    (stages.filter (· ≠ .review)).all fun stage => decide (stage ∈ session.confirmed)

inductive WizardOperation (Selection : Type) where
  | select (stage : WizardStage) (value : StageValue Selection)
  | advance
  | back
  | rememberPosition (stage : WizardStage) (cursor scroll : Int)
  | reconcileBasket (availability : List (String × String))
  | useCurrentCheckout

variable [DecidableEq Selection]

def step (session : WizardSession Selection) : WizardOperation Selection → WizardSession Selection
  | .select stage value => select session stage value
  | .advance => advance session
  | .back => back session
  | .rememberPosition stage cursor scroll => rememberPosition session stage cursor scroll
  | .reconcileBasket availability => reconcileBasket session availability
  | .useCurrentCheckout => useCurrentCheckout session

/-- The session after some operations from the start. -/
def run (operations : List (WizardOperation Selection)) : WizardSession Selection :=
  operations.foldl step initialSession

end AgentArtifacts.Wizard
