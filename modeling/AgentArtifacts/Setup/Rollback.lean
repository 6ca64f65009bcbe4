import AgentArtifacts.Redaction
import AgentArtifacts.Setup.Undo

/-!
# Applying a plan and rolling it back

A plan is applied effect by effect, each after consent, and every effect leaves a receipt. What
fails on the way, and a later rollback, compensate the receipts in reverse order. What the
effects and the compensations find in the world, and what they make of it, is the runtime's.
-/

namespace AgentArtifacts.Setup

/-! ## The runtime -/

/-- How a compensation ends. The errors that a rollback catches are failures. -/
inductive Performed where
  | succeeded
  | failed
  /-- Any other error ends the call. -/
  | raised
deriving DecidableEq

/-- How the application of an effect ends. -/
inductive Applied where
  | applied (receipt : Receipt) (changed : Bool)
  | failed (detail : String)
  /-- `RollbackIncompleteError`. -/
  | incomplete (detail : String) (receipt : Option Receipt)
  | raised

/-- What a call uses of the machine it runs on, whose states are `ω`. -/
structure SetupRuntime (ω : Type) where
  platform : String
  enforceSourceHash : Bool
  clock : ω → String
  descriptorMatches : SetupPlan → ω → Bool
  toolExists : String → ω → Bool
  managedFilePreflight : SetupPlan → ω → String
  /-- The values read, and why reading them failed if it did. -/
  textInputValues : SetupPlan → ω → (Dict × String) × ω
  applyEffect : SetupPlan → Dict → SetupEffect → ω → Applied × ω
  perform : Receipt → Compensation → ω → Performed × ω
  /-- The state file is written, or the write is an error. -/
  writeState : SetupStateRecord → ω → Bool × ω

/-- An answer to a question before an effect; no answer is a refusal. -/
abbrev Consent (ω : Type) := SetupEffect → ω → Bool × ω

/-! ## Compensations -/

/-- What `_rollback_receipt` returns for a receipt it takes no action for. -/
def Receipt.idle (receipt : Receipt) : Bool :=
  if receipt.compensated then true
  else if receipt.isModule keychainModule && receipt.is "replaced" then false
  else if receipt.isModule mergeModule && receipt.is "changed" && receipt.is "replaced" then false
  else if receipt.isModule customModule then false
  else if receipt.isModule pullModule then receipt.is "preexisting"
  else if receipt.isModule buildModule then true
  else inertModules.any receipt.isModule || !receipt.holds "changed"

section Rollback

variable [UnicodeTable] {ω : Type}

/-- The rollback of a receipt runs a compensation. -/
def Receipt.performs (receipt : Receipt) : Bool :=
  match receipt.rollbackStep with
  | .performs _ => true
  | _ => false

/-- `_rollback_receipt`. -/
def SetupRuntime.rollbackReceipt (runtime : SetupRuntime ω) (receipt : Receipt) (world : ω) : Performed × ω :=
  match receipt.rollbackStep with
  | .leaves => (if receipt.idle then .succeeded else .failed, world)
  | .raises => (.raised, world)
  | .performs compensation => runtime.perform receipt compensation world

/-- How a rollback went. Receipts are named by their place in the record. -/
structure Rollback (ω : Type) where
  /-- Nothing when an error ended it. -/
  complete : Option Bool
  attempted : List Nat
  succeeded : List Nat
  world : ω

/-- The place of a receipt, if its rollback runs a compensation. -/
def attempt (receipt : Receipt) (place : Nat) : List Nat := if receipt.performs then [place] else []

/-- The place of a receipt whose compensation succeeded. -/
def success (receipt : Receipt) (performed : Performed) (place : Nat) : List Nat :=
  if performed = .succeeded then attempt receipt place else []

/-- The rollback of receipts that are already in reverse order. -/
def SetupRuntime.rollbackReversed (runtime : SetupRuntime ω) : List Receipt → ω → Rollback ω
  | [], world => ⟨some true, [], [], world⟩
  | receipt :: earlier, world =>
      match runtime.rollbackReceipt receipt world with
      | (.raised, next) => ⟨none, attempt receipt earlier.length, [], next⟩
      -- One failure does not keep the earlier receipts from being compensated.
      | (performed, next) =>
          let rest := runtime.rollbackReversed earlier next
          ⟨rest.complete.map fun complete => complete && performed == .succeeded,
            attempt receipt earlier.length ++ rest.attempted,
            success receipt performed earlier.length ++ rest.succeeded, rest.world⟩

/-- `_rollback_all`. -/
def SetupRuntime.rollbackAll (runtime : SetupRuntime ω) (receipts : List Receipt) (world : ω) : Rollback ω :=
  runtime.rollbackReversed receipts.reverse world

/-! ## Records -/

/-- A character that `shlex.quote` leaves as it is. -/
def isShellSafe (c : Char) : Bool := c.isAlphanum || "_@%+=:,./-".toList.contains c

/-- `shlex.quote`. -/
def shellQuote (text : String) : String :=
  if text = "" then "''"
  else if text.toList.all isShellSafe then text
  else "'" ++ String.ofList (text.toList.flatMap fun c => if c = '\'' then "'\"'\"'".toList else [c]) ++ "'"

def SetupQueueItem.label (item : SetupQueueItem) : String := item.artifactType.value ++ "/" ++ item.artifactName

def retryCommand (item : SetupQueueItem) : String :=
  "aart marketplace setup " ++ shellQuote item.label ++ " --profile " ++ shellQuote item.profile ++ " --scope " ++
    item.scope.value ++ " --yes --approve-setup-effects"

def rollbackCommand (item : SetupQueueItem) : String :=
  "aart marketplace receipt undo " ++ shellQuote item.label ++ " --profile " ++ shellQuote item.profile ++
    " --scope " ++ item.scope.value ++ " --yes"

/-- `_record`. -/
def recordOf [Redaction] (plan : SetupPlan) (status : SetupTerminalStatus) (detail started finished : String)
    (receipts : List Receipt) (exitStatus : Json) : SetupStateRecord where
  artifactType := plan.item.artifactType
  artifactName := plan.item.artifactName
  profile := plan.item.profile
  scope := plan.item.scope
  status := status
  detail := Redaction.redactText detail
  sourceLabel := plan.item.sourceLabel
  installerPath := plan.item.installer.descriptorPath
  installerHash := plan.item.installer.descriptorHash
  customHash := plan.item.installer.customHash.getD ""
  schemaVersion := plan.item.installer.schemaVersion
  protocolVersion := plan.item.installer.protocolVersion
  planHash := plan.planHash
  startedAt := started
  finishedAt := finished
  exitStatus := exitStatus
  retryCommand := if status = .configured ∨ status = .alreadyConfigured then "" else retryCommand plan.item
  rollbackCommand := if receipts = [] then "" else rollbackCommand plan.item
  receipt := receipts

/-! ## Calls -/

/-- A call that returned or ended with an error, and the compensations it ran. -/
structure Ended (ω : Type) where
  record : Option SetupStateRecord
  attempted : List Nat
  succeeded : List Nat
  world : ω

/-- A call that compensates nothing. -/
def Ended.quiet (record : Option SetupStateRecord) (world : ω) : Ended ω := ⟨record, [], [], world⟩

/-- A call that ends with the rollback of its receipts. -/
def Rollback.ended (rollback : Rollback ω) (record : Bool → SetupStateRecord) : Ended ω :=
  ⟨rollback.complete.map record, rollback.attempted, rollback.succeeded, rollback.world⟩

/-- `{"step_id": step_id, **receipt}`. -/
def withStepId (stepId : String) (receipt : Receipt) : Receipt :=
  ("step_id", (Dict.get? receipt "step_id").getD (.str stepId)) :: receipt.filter fun field => field.1 != "step_id"

section Applying

variable [Redaction]

/-- The record of a run that an effect failed. -/
def failedRecord (plan : SetupPlan) (effect : SetupEffect) (detail : String) (incomplete : Option (Option Receipt))
    (started finished : String) (receipts : List Receipt) (rolledBack : Bool) : SetupStateRecord :=
  let uncompensated := incomplete == some none
  let status : SetupTerminalStatus :=
    if effect.module = "command.verify@1" ∧ rolledBack = true then .verificationFailed
    else if rolledBack && !uncompensated then .applyFailedRolledBack
    else .rollbackIncomplete
  let retried := rolledBack && effect.module == customModule && incomplete.any (·.isSome)
  recordOf plan status
    (if retried then "custom setup failed; rollback completed after retry" else Redaction.redactText detail)
    started finished (if rolledBack then [] else receipts) (.int 1)

/-- A failed effect is followed by the rollback of the receipts, its own included. -/
def SetupRuntime.abandon (runtime : SetupRuntime ω) (plan : SetupPlan) (effect : SetupEffect) (detail : String)
    (incomplete : Option (Option Receipt)) (started : String) (receipts : List Receipt) (world : ω) : Ended ω :=
  let kept := receipts ++ (incomplete.join.map (withStepId effect.stepId)).toList
  let rollback := runtime.rollbackAll kept world
  rollback.ended (failedRecord plan effect detail incomplete started (runtime.clock rollback.world) kept)

/-- A refusal is followed by the rollback of the receipts. -/
def SetupRuntime.cancel (runtime : SetupRuntime ω) (plan : SetupPlan) (started : String) (receipts : List Receipt)
    (world : ω) : Ended ω :=
  let rollback := runtime.rollbackAll receipts world
  rollback.ended fun rolledBack =>
    recordOf plan (if rolledBack then .cancelled else .rollbackIncomplete)
      "Setup cancelled before applying the next reviewed effect" started (runtime.clock rollback.world)
      (if rolledBack then [] else receipts) .null

/-- The record of a run whose effects all ended well. -/
def finishedRecord (plan : SetupPlan) (started finished : String) (receipts : List Receipt) (changed : Bool) :
    SetupStateRecord :=
  recordOf plan (if changed then .configured else .alreadyConfigured)
    (if changed then "Setup configured" else "Setup was already configured") started finished
    (if changed then receipts else []) (.int 0)

/-- `_apply_effects`. -/
def SetupRuntime.applyEffects (runtime : SetupRuntime ω) (plan : SetupPlan) (consent : Consent ω) (started : String)
    (inputs : Dict) : List SetupEffect → List Receipt → Bool → ω → Ended ω
  | [], receipts, changed, world =>
      .quiet (some (finishedRecord plan started (runtime.clock world) receipts changed)) world
  | effect :: rest, receipts, changed, world =>
      match consent effect world with
      | (false, asked) => runtime.cancel plan started receipts asked
      | (true, asked) =>
          match runtime.applyEffect plan inputs effect asked with
          | (.applied receipt effectChanged, next) =>
              runtime.applyEffects plan consent started inputs rest (receipts ++ [withStepId effect.stepId receipt])
                (changed || effectChanged) next
          | (.failed detail, next) => runtime.abandon plan effect detail none started receipts next
          | (.incomplete detail receipt, next) =>
              runtime.abandon plan effect detail (some receipt) started receipts next
          | (.raised, next) => .quiet none next

/-- The status and detail of a plan that is not started, and its exit status. -/
def SetupRuntime.refusal (runtime : SetupRuntime ω) (plan : SetupPlan) (world : ω) :
    Option (SetupTerminalStatus × String × Json) :=
  if runtime.enforceSourceHash && !runtime.descriptorMatches plan world then
    some (.applyFailedRolledBack, "setup installer hash changed after review", .int 1)
  else match plan.preflightStatus with
  | some status => some (status, plan.preflightDetail, .null)
  | none =>
      let missing := plan.item.installer.requiredTools.filter fun tool => !runtime.toolExists tool world
      if runtime.platform ∉ plan.item.installer.platforms then
        some (.unsupported, "current platform " ++ runtime.platform ++ " is unsupported", .null)
      else if missing ≠ [] then
        some (.prerequisiteMissing, "missing required tool(s): " ++ String.intercalate ", " missing, .null)
      else if runtime.managedFilePreflight plan world ≠ "" then
        some (.prerequisiteMissing, runtime.managedFilePreflight plan world, .int 1)
      else none

/-- `apply_setup_plan`. -/
def SetupRuntime.applySetupPlan (runtime : SetupRuntime ω) (plan : SetupPlan) (consent : Consent ω) (world : ω) :
    Ended ω :=
  let started := runtime.clock world
  match runtime.refusal plan world with
  | some (status, detail, exitStatus) =>
      .quiet (some (recordOf plan status detail started (runtime.clock world) [] exitStatus)) world
  | none =>
      match runtime.textInputValues plan world with
      | ((inputs, failure), next) =>
          if failure ≠ "" then
            .quiet (some (recordOf plan .cancelled failure started (runtime.clock next) [] (.int 1))) next
          else runtime.applyEffects plan consent started inputs plan.effects [] false next

end Applying

/-- What `rollback_record` makes of the record. -/
def SetupStateRecord.rolledBack (record : SetupStateRecord) (finished : String) (ok : Bool) : SetupStateRecord :=
  { record with
    status := if ok then .skipped else .rollbackIncomplete
    detail := if ok then "Setup rollback completed" else "Setup rollback was incomplete"
    finishedAt := finished
    exitStatus := .int (if ok then 0 else 1)
    rollbackCommand := if ok then "" else record.rollbackCommand
    receipt := if ok then [] else record.receipt }

/-- `rollback_record`. -/
def SetupRuntime.rollbackRecord (runtime : SetupRuntime ω) (record : SetupStateRecord) (world : ω) : Ended ω :=
  let rollback := runtime.rollbackAll record.receipt world
  rollback.ended (record.rolledBack (runtime.clock rollback.world))

/-- The record of a call is written, or the call ends with an error. -/
def Ended.written (ended : Ended ω) (runtime : SetupRuntime ω) : Ended ω :=
  match ended.record with
  | none => ended
  | some rolled =>
      match runtime.writeState rolled ended.world with
      | (true, next) => { ended with world := next }
      | (false, next) => { ended with record := none, world := next }

/-- `apply_undo`: the record that the rollback leaves is written over the one it came from. -/
def SetupRuntime.applyUndo (runtime : SetupRuntime ω) (record : SetupStateRecord) (world : ω) : Ended ω :=
  (runtime.rollbackRecord record world).written runtime

/-! ## What a rollback attempts -/

variable {runtime : SetupRuntime ω} {receipt : Receipt} {receipts : List Receipt} {world : ω} {place : Nat}

variable {i : Nat}

@[simp] theorem mem_attempt : i ∈ attempt receipt place ↔ receipt.performs = true ∧ i = place := by
  unfold attempt
  split <;> simp_all

theorem success_subset {performed : Performed} : success receipt performed place ⊆ attempt receipt place := by
  unfold success
  split
  · exact List.Subset.refl _
  · exact List.nil_subset _

theorem nodup_success {performed : Performed} : (success receipt performed place).Nodup := by
  unfold success attempt
  split
  · split
    · exact List.nodup_singleton _
    · exact List.nodup_nil
  · exact List.nodup_nil

omit [UnicodeTable] in
/-- The receipt at a place of reversed receipts. -/
theorem getElem?_reverse_cons {earlier : List Receipt} (h : i < earlier.length) :
    (receipt :: earlier).reverse[i]? = earlier.reverse[i]? := by
  rw [List.reverse_cons]
  exact List.getElem?_append_left (by simpa using h)

omit [UnicodeTable] in
theorem getElem?_reverse_self {earlier : List Receipt} :
    (receipt :: earlier).reverse[earlier.length]? = some receipt := by
  rw [List.reverse_cons]
  simp

/-- Every compensation attempted is that of a receipt that has one. -/
theorem performs_of_attempted (h : i ∈ (runtime.rollbackReversed receipts world).attempted) :
    ∃ receipt, receipts.reverse[i]? = some receipt ∧ receipt.performs = true := by
  induction receipts generalizing world with
  | nil => cases h
  | cons receipt earlier ih =>
      have hself {j : Nat} (hj : j ∈ attempt receipt earlier.length) :
          ∃ found, (receipt :: earlier).reverse[j]? = some found ∧ found.performs = true := by
        obtain ⟨hperforms, rfl⟩ := mem_attempt.mp hj
        exact ⟨receipt, getElem?_reverse_self, hperforms⟩
      rw [SetupRuntime.rollbackReversed] at h
      split at h
      · exact hself h
      · rename_i next _
        rcases List.mem_append.mp h with h | h
        · exact hself h
        · obtain ⟨found, hfound, hperforms⟩ := ih h
          have hlt : i < earlier.length := by
            simpa using (List.getElem?_eq_some_iff.mp hfound).1
          exact ⟨found, (getElem?_reverse_cons hlt).trans hfound, hperforms⟩

theorem lt_of_attempted (h : i ∈ (runtime.rollbackReversed receipts world).attempted) :
    i < receipts.length := by
  obtain ⟨_, hfound, _⟩ := performs_of_attempted h
  simpa using (List.getElem?_eq_some_iff.mp hfound).1

/-- A rollback that no error ends attempts every compensation there is. -/
theorem attempted_of_performs (hreturns : (runtime.rollbackReversed receipts world).complete.isSome = true)
    (hfound : receipts.reverse[i]? = some receipt) (hperforms : receipt.performs = true) :
    i ∈ (runtime.rollbackReversed receipts world).attempted := by
  induction receipts generalizing world with
  | nil => simp at hfound
  | cons last earlier ih =>
      rw [SetupRuntime.rollbackReversed] at hreturns ⊢
      split at hreturns
      · cases hreturns
      · rename_i performed next hraised hperformed
        rw [Option.isSome_map] at hreturns
        have hplace : i < (last :: earlier).reverse.length := (List.getElem?_eq_some_iff.mp hfound).1
        rw [List.length_reverse, List.length_cons] at hplace
        rcases Nat.lt_succ_iff_lt_or_eq.mp hplace with hlt | rfl
        · rw [getElem?_reverse_cons hlt] at hfound
          exact List.mem_append_right _ (ih hreturns hfound)
        · rw [getElem?_reverse_self] at hfound
          cases hfound
          exact List.mem_append_left _ (mem_attempt.mpr ⟨hperforms, rfl⟩)

theorem succeeded_subset : (runtime.rollbackReversed receipts world).succeeded ⊆
    (runtime.rollbackReversed receipts world).attempted := by
  induction receipts generalizing world with
  | nil => exact List.Subset.refl _
  | cons receipt earlier ih =>
      rw [SetupRuntime.rollbackReversed]
      split
      · exact List.nil_subset _
      · intro i h
        rcases List.mem_append.mp h with h | h
        · exact List.mem_append_left _ (success_subset h)
        · exact List.mem_append_right _ (ih h)

/-- One rollback compensates no receipt twice. -/
theorem nodup_succeeded : (runtime.rollbackReversed receipts world).succeeded.Nodup := by
  induction receipts generalizing world with
  | nil => exact List.nodup_nil
  | cons receipt earlier ih =>
      rw [SetupRuntime.rollbackReversed]
      split
      · exact List.nodup_nil
      · refine List.Nodup.append nodup_success ih ?_
        intro i hfirst hrest
        have hlt := lt_of_attempted (succeeded_subset hrest)
        have hplace := (mem_attempt.mp (success_subset hfirst)).2
        omega

end Rollback

end AgentArtifacts.Setup
