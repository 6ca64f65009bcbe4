import AgentArtifacts.Installation.Consent
import AgentArtifacts.InstallState.ManifestBytes
import AgentArtifacts.Setup.Undo

/-!
# What the digest of an undo binds

Equal digests are equal lists of steps, and a step says which module ran, one subject and
what becomes of it. What a compensation reads beyond that may differ: the truth of
`changed`, the keys that are missing, and every target that is not the subject.
-/

namespace AgentArtifacts.Setup

open JsonText (Legible LegibleItems LegibleEntries sortKeys sortKeysItems sortKeysEntries)
open Manifest (Fields jsonObject jsonObject_injective present)

section Consent

variable [UnicodeTable]

/-! ## Modules -/

/-- The modules that a compensation is known for. -/
def actingModules : List String :=
  [keychainModule, "shell.env-from-keychain@1", "shell.env-from-input@1", "file.managed-block@1", directoryModule,
    mergeModule, customModule, buildModule]

omit [UnicodeTable] in
theorem toString_int_head (value : Int) :
    ∃ c rest, (toString value).toList = c :: rest ∧ (c.isDigit = true ∨ c = '-') := by
  have hnat (n : Nat) : ∃ c rest, (toString n).toList = c :: rest ∧ c.isDigit = true := by
    rw [Nat.toString_eq_ofList_toDigits, String.toList_ofList]
    cases hform : Nat.toDigits 10 n with
    | nil => exact absurd hform Nat.toDigits_ne_nil
    | cons c rest =>
        exact ⟨c, rest, rfl, Nat.isDigit_of_mem_toDigits (by decide) (by decide)
          (hform ▸ List.mem_cons_self : c ∈ Nat.toDigits 10 n)⟩
  cases value with
  | ofNat n =>
      obtain ⟨c, rest, hform, hdigit⟩ := hnat n
      exact ⟨c, rest, hform, Or.inl hdigit⟩
  | negSucc n =>
      refine ⟨'-', (toString (n + 1)).toList, ?_, Or.inr rfl⟩
      change ("-" ++ toString (n + 1)).toList = _
      rw [String.toList_append]
      rfl

/-- Only a text has the text of such a module. -/
theorem eq_str_of_strFrozen {name : String} (hname : name ∈ actingModules) {value : Json}
    (h : strFrozen value = name) : value = .str name := by
  have hnames : ∀ known ∈ actingModules, ∃ a b c rest, known.toList = a :: b :: c :: rest ∧ a.isDigit = false ∧
      a ≠ '-' ∧ a ≠ '(' ∧ a ≠ 'N' ∧ a ≠ 'T' ∧ a ≠ 'F' ∧ c ≠ 'p' := by
    simp only [actingModules, List.forall_mem_cons]
    refine ⟨?_, ?_, ?_, ?_, ?_, ?_, ?_, ?_, by simp⟩ <;> exact ⟨_, _, _, _, rfl, by decide⟩
  obtain ⟨a, b, c, rest, hform, hdigit, hminus, hparen, hnone, htrue, hfalse, hproxy⟩ := hnames name hname
  rw [← h] at hform
  cases value with
  | str text => rw [strFrozen] at h; rw [h]
  | null =>
      rw [strFrozen, reprFrozen] at hform
      · exact absurd (List.cons.inj hform).1.symm hnone
      · simp
  | bool flag =>
      rw [strFrozen, reprFrozen] at hform
      · cases flag with
        | true => exact absurd (List.cons.inj hform).1.symm htrue
        | false => exact absurd (List.cons.inj hform).1.symm hfalse
      · simp
  | int number =>
      rw [strFrozen, reprFrozen] at hform
      · obtain ⟨d, tail, hnumber, hd⟩ := toString_int_head number
        rw [hnumber] at hform
        obtain rfl := (List.cons.inj hform).1
        rcases hd with hd | rfl
        · exact absurd (hdigit.symm.trans hd) (by decide)
        · exact absurd rfl hminus
      · simp
  | arr items =>
      have hopen : ∃ tail, (strFrozen (.arr items)).toList = '(' :: tail := by
        rw [strFrozen]
        · match items with
          | [] => exact ⟨_, by rw [reprFrozen] <;> simp; rfl⟩
          | [item] => exact ⟨_, by rw [reprFrozen]; simp; rfl⟩
          | first :: second :: others => exact ⟨_, by rw [reprFrozen] <;> simp; rfl⟩
        · simp
      obtain ⟨tail, hopen⟩ := hopen
      rw [hopen] at hform
      exact absurd (List.cons.inj hform).1.symm hparen
  | obj entries =>
      have hopen : ∃ tail, (strFrozen (.obj entries)).toList = 'm' :: 'a' :: 'p' :: tail := by
        rw [strFrozen, reprFrozen]
        · exact ⟨_, by simp only [String.toList_append, List.append_assoc]; rfl⟩
        · simp
      obtain ⟨tail, hopen⟩ := hopen
      rw [hopen] at hform
      exact absurd (List.cons.inj (List.cons.inj (List.cons.inj hform).2).2).1.symm hproxy

variable {receipt : Receipt}

theorem isModule_iff {name : String} (hname : name ∈ actingModules) :
    receipt.isModule name = true ↔ receipt.module = name := by
  unfold Receipt.isModule Receipt.module Receipt.at
  rw [beq_iff_eq]
  cases hfound : Dict.get? receipt "module" with
  | none =>
      refine iff_of_false (by simp) fun h => ?_
      rw [Option.getD_none, strFrozen] at h
      rw [← h] at hname
      exact absurd hname (by decide)
  | some value =>
      rw [Option.getD_some, Option.getD_some]
      exact ⟨fun h => by rw [h, strFrozen], fun h => eq_str_of_strFrozen hname h⟩

/-! ## Actions -/

theorem block_iff : blockModules.any receipt.isModule = true ↔ receipt.module ∈ blockModules := by
  rw [List.any_eq_true]
  constructor
  · rintro ⟨name, hname, hmodule⟩
    rw [(isModule_iff (List.mem_cons_of_mem _ (List.mem_append_left [directoryModule, mergeModule, customModule, buildModule]
      hname))).mp hmodule]
    exact hname
  · intro hmodule
    exact ⟨_, hmodule, (isModule_iff (List.mem_cons_of_mem _ (List.mem_append_left
      [directoryModule, mergeModule, customModule, buildModule] hmodule))).mpr rfl⟩

/-- The action of a module whose step is reversed. -/
def moduleAction (name : String) : Option Action :=
  if name = keychainModule then some .deleteItem
  else if name = directoryModule then some .removeDirectory
  else if name = mergeModule then some .removeKey
  else if name = customModule then some .runRollback
  else if name = buildModule then some .removeTag
  else none

/-- Apart from managed blocks a step acts exactly where its review says that it reverses. -/
theorem action_of_not_block (h : receipt.module ∉ blockModules) :
    receipt.action = if receipt.disposition.1 = .reverses then moduleAction receipt.module else none := by
  have hblock : blockModules.any receipt.isModule = false := by
    rw [← Bool.not_eq_true, block_iff]
    exact h
  have hknown {name : String} (hname : name ∈ actingModules) : receipt.isModule name = decide (receipt.module = name) := by
    rw [Bool.eq_iff_iff, isModule_iff hname, decide_eq_true_iff]
  unfold Receipt.action Receipt.disposition
  rw [hblock, hknown (by decide), hknown (by decide), hknown (by decide), hknown (by decide), hknown (by decide)]
  simp only [decide_eq_true_eq, Bool.false_eq_true, if_false, if_neg h]
  by_cases hdone : receipt.compensated = true
  · simp [hdone]
  by_cases hkeychain : receipt.module = keychainModule
  · rw [hkeychain]
    cases receipt.is "replaced" <;> cases receipt.is "created" <;> simp [hdone, moduleAction]
  by_cases hdirectory : receipt.module = directoryModule
  · rw [hdirectory]
    cases receipt.is "created" <;> simp [hdone, moduleAction, keychainModule, directoryModule]
  by_cases hmerge : receipt.module = mergeModule
  · rw [hmerge]
    cases receipt.is "replaced" <;> cases receipt.is "changed" <;>
      simp [hdone, moduleAction, keychainModule, directoryModule, mergeModule]
  by_cases hcustom : receipt.module = customModule
  · rw [hcustom]
    cases receipt.is "reversible" <;>
      simp [hdone, moduleAction, keychainModule, directoryModule, mergeModule, customModule]
  by_cases hbuild : receipt.module = buildModule
  · rw [hbuild]
    cases receipt.is "preexisting" <;>
      simp [hdone, moduleAction, keychainModule, directoryModule, mergeModule, customModule, pullModule, buildModule]
  · simp only [hdone, hkeychain, hdirectory, hmerge, hcustom, hbuild, moduleAction, Bool.false_eq_true, if_false,
      ite_self]

/-- A managed block is restored where `changed` is true in any sense. -/
theorem action_of_block (h : receipt.module ∈ blockModules) :
    receipt.action = if receipt.compensated = false ∧ receipt.holds "changed" = true then some .restoreBlock else none := by
  have hblock : blockModules.any receipt.isModule = true := block_iff.mpr h
  have hkeychain : receipt.isModule keychainModule = false := by
    rw [← Bool.not_eq_true, isModule_iff (by decide)]
    rintro hmodule
    rw [hmodule] at h
    exact absurd h (by decide)
  unfold Receipt.action
  rw [hblock, hkeychain]
  cases receipt.compensated <;> cases receipt.holds "changed" <;> simp

/-- Within the managed blocks the reason tells the steps that a failed run already undid. -/
theorem compensated_iff_of_block (h : receipt.module ∈ blockModules) :
    receipt.compensated = true ↔ receipt.disposition.2 = "the failed setup already compensated this step" := by
  have hkeychain : receipt.module ≠ keychainModule := by
    intro hmodule
    rw [hmodule] at h
    exact absurd h (by decide)
  unfold Receipt.disposition
  rw [if_neg hkeychain, if_pos h]
  cases receipt.compensated with
  | true => simp
  | false =>
      cases receipt.is "changed" <;> cases receipt.at "file_existed" == .bool false <;> simp

/-! ## What the review hides -/

/-- The subject of a receipt is what stands at a key. -/
def Receipt.names (receipt : Receipt) (key : String) : Prop :=
  receipt.subjectKey = some key ∨
    receipt.subjectKey = none ∧ (key = "service" ∨ key = "account") ∧ receipt.holds "service" = true ∧
      receipt.holds "account" = true

/-- The parts of two receipts that their reviews do not show agree: whether `changed` holds
of a managed block, whether what the action needs is there, and every target that is not
the subject of both. -/
structure HiddenAgree (a b : Receipt) : Prop where
  changed : a.compensated = false → a.module ∈ blockModules → a.holds "changed" = b.holds "changed"
  starts : ∀ action, a.action = some action → action.starts a = action.starts b
  targets : ∀ action, a.action = some action → action.starts a = true → ∀ key ∈ action.targets,
    ¬ (a.names key ∧ b.names key) → a.target key = b.target key

/-- Receipts agree one by one, as far as the rollback comes. -/
def HiddenAgreeAll : List Receipt → List Receipt → Prop
  | a :: as, b :: bs => HiddenAgree a b ∧ (a.rollbackStep ≠ .raises → HiddenAgreeAll as bs)
  | _, _ => True

omit [UnicodeTable] in
theorem holds_of_subjectKey {key : String} (h : receipt.subjectKey = some key) :
    key ∈ subjectKeys ∧ receipt.holds key = true :=
  ⟨List.mem_of_find?_eq_some h, List.find?_some h⟩

omit [UnicodeTable] in
/-- What is true is there. -/
theorem get?_of_holds {key : String} (h : receipt.holds key = true) :
    Dict.get? receipt key = some (receipt.at key) := by
  unfold Receipt.holds at h
  unfold Receipt.at at h ⊢
  cases hfound : Dict.get? receipt key with
  | none =>
      rw [hfound] at h
      exact absurd h (by decide)
  | some value => rfl

/-- A target that is the subject of both receipts is the same. -/
theorem target_of_names {a b : Receipt} {key : String} (hsubject : a.subject = b.subject) (ha : a.names key)
    (hb : b.names key) : a.target key = b.target key := by
  have hplain {receipt : Receipt} (hkey : key ≠ "json_path" ∧ key ≠ "marker") (h : receipt.holds key = true) :
      receipt.target key = some [strFrozen (receipt.at key)] := by
    unfold Receipt.target
    rw [if_neg hkey.1, if_neg (fun h => hkey.2 h.1), get?_of_holds h]
    rfl
  have hnot (h : key ∈ subjectKeys) : key ≠ "service" ∧ key ≠ "account" := by
    constructor <;> rintro rfl <;> exact absurd h (by decide)
  unfold Receipt.subject at hsubject
  rcases ha with ha | ⟨ha, hkey, hservice, haccount⟩
  · obtain ⟨hmem, hholds⟩ := holds_of_subjectKey ha
    have hkey : key ≠ "json_path" ∧ key ≠ "marker" := by
      constructor <;> rintro rfl <;> exact absurd hmem (by decide)
    rcases hb with hb | ⟨_, hother, _⟩
    · rw [ha, hb] at hsubject
      have htext : strFrozen (a.at key) = strFrozen (b.at key) := hsubject
      rw [hplain hkey hholds, hplain hkey (holds_of_subjectKey hb).2, htext]
    · exact absurd hother (by simpa using hnot hmem)
  · rcases hb with hb | ⟨hb, _, hservice', haccount'⟩
    · exact absurd hkey (by simpa using hnot (holds_of_subjectKey hb).1)
    · rw [ha, hb, hservice, haccount, hservice', haccount'] at hsubject
      have htext := String.ofList_injective hsubject
      rw [List.append_assoc, List.append_assoc] at htext
      obtain ⟨hsame, hrest⟩ := quoted_append_inj (List.append_cancel_left htext)
      have hrest' := List.append_cancel_left hrest
      rw [← List.append_nil (quoted _), ← List.append_nil (quoted (strFrozen (b.at "account")))] at hrest'
      have hsame' := (quoted_append_inj hrest').1
      rcases hkey with rfl | rfl
      · rw [hplain (by decide) hservice, hplain (by decide) hservice', hsame]
      · rw [hplain (by decide) haccount, hplain (by decide) haccount', hsame']

theorem rollbackStep_eq_leaves_iff : receipt.rollbackStep = .leaves ↔ receipt.action = none := by
  unfold Receipt.rollbackStep
  cases receipt.action with
  | none => exact iff_of_true rfl rfl
  | some action =>
      refine iff_of_false ?_ (by simp)
      dsimp only
      split
      · simp
      · simp

/-- Receipts that are reviewed alike act alike, but for the truth of `changed`. -/
theorem action_eq_iff {a b : Receipt} (hmodule : a.module = b.module) (hdisposition : a.disposition = b.disposition) :
    a.action = b.action ↔ (a.compensated = false → a.module ∈ blockModules → a.holds "changed" = b.holds "changed") := by
  by_cases hblock : a.module ∈ blockModules
  · have hcompensated : a.compensated = b.compensated := by
      rw [Bool.eq_iff_iff, compensated_iff_of_block hblock, compensated_iff_of_block (hmodule ▸ hblock), hdisposition]
    rw [action_of_block hblock, action_of_block (hmodule ▸ hblock), ← hcompensated]
    cases a.compensated <;> cases a.holds "changed" <;> cases b.holds "changed" <;> simp [hblock]
  · rw [action_of_not_block hblock, action_of_not_block (hmodule ▸ hblock), hmodule, hdisposition]
    exact iff_of_true rfl fun _ h => absurd (hmodule ▸ h) hblock

/-- Two receipts with one review are rolled back alike exactly where what it hides agrees. -/
theorem rollbackStep_eq_iff {a b : Receipt} {i j : Nat} (h : a.undoStep i = b.undoStep j) :
    a.rollbackStep = b.rollbackStep ↔ HiddenAgree a b := by
  have hmodule : a.module = b.module := congrArg UndoStep.module h
  have hsubject : a.subject = b.subject := congrArg UndoStep.subject h
  have hdisposition : a.disposition = b.disposition :=
    Prod.ext (congrArg UndoStep.disposition h) (congrArg UndoStep.reason h)
  have hactions := action_eq_iff hmodule hdisposition
  constructor
  · intro hsteps
    have hnone : a.action = none ↔ b.action = none := by
      rw [← rollbackStep_eq_leaves_iff, ← rollbackStep_eq_leaves_iff, hsteps]
    have haction : a.action = b.action := by
      by_cases hblock : a.module ∈ blockModules
      · -- A block has no other action, so both are restored or neither is.
        rw [action_of_block hblock, action_of_block (hmodule ▸ hblock)] at hnone ⊢
        split
        · rw [if_pos ‹_›] at hnone
          split
          · rfl
          · rw [if_neg ‹_›] at hnone
            exact absurd (hnone.mpr rfl) (by simp)
        · rw [if_neg ‹_›] at hnone
          exact (hnone.mp rfl).symm
      · exact hactions.mpr fun _ h => absurd h hblock
    refine ⟨hactions.mp haction, ?_, ?_⟩
    · intro action hsome
      unfold Receipt.rollbackStep at hsteps
      rw [← haction, hsome] at hsteps
      dsimp only at hsteps
      cases hstart : action.starts a <;> cases hother : action.starts b <;> simp [hstart, hother] at hsteps ⊢
    · intro action hsome hstart key hkey _
      unfold Receipt.rollbackStep at hsteps
      rw [← haction, hsome] at hsteps
      dsimp only at hsteps
      rw [if_pos hstart] at hsteps
      split at hsteps
      · have htargets := Compensation.mk.inj (RollbackStep.performs.inj hsteps)
        exact List.map_inj_left.mp htargets.2 key hkey
      · cases hsteps
  · intro hhidden
    have haction := hactions.mpr hhidden.changed
    unfold Receipt.rollbackStep
    rw [← haction]
    cases hsome : a.action with
    | none => rfl
    | some action =>
        dsimp only
        rw [← hhidden.starts action hsome]
        split
        · rename_i hstart
          have htargets : action.targets.map a.target = action.targets.map b.target := by
            refine List.map_inj_left.mpr fun key hkey => ?_
            by_cases hnamed : a.names key ∧ b.names key
            · exact target_of_names hsubject hnamed.1 hnamed.2
            · exact hhidden.targets action hsome hstart key hkey hnamed
          rw [htargets]
        · rfl

/-! ## Whole rollbacks -/

/-- A rollback begins with the step of its first receipt. -/
theorem rollbackSteps_head (receipt : Receipt) (earlier : List Receipt) :
    (rollbackSteps (receipt :: earlier)).head? = some receipt.rollbackStep := by
  unfold rollbackSteps
  cases receipt.rollbackStep <;> rfl

/-- By the receipts in the order of the rollback, which two equal reviews go through
together. -/
theorem rollbackSteps_eq_iff {as bs : List Receipt} (h : undoSteps as = undoSteps bs) :
    rollbackSteps as = rollbackSteps bs ↔ HiddenAgreeAll as bs := by
  induction as generalizing bs with
  | nil =>
      cases bs with
      | nil => exact iff_of_true rfl trivial
      | cons b bs => cases h
  | cons a as ih =>
      cases bs with
      | nil => cases h
      | cons b bs =>
          obtain ⟨hstep, hrest⟩ := List.cons.inj h
          have hpair := rollbackStep_eq_iff hstep
          rw [HiddenAgreeAll, ← hpair]
          constructor
          · intro hsteps
            have hsame : a.rollbackStep = b.rollbackStep := by
              have hhead := congrArg List.head? hsteps
              rw [rollbackSteps_head, rollbackSteps_head] at hhead
              exact Option.some.inj hhead
            refine ⟨hsame, fun hgoes => (ih hrest).mp ?_⟩
            rw [rollbackSteps, rollbackSteps, ← hsame] at hsteps
            cases hform : a.rollbackStep with
            | raises => exact absurd hform hgoes
            | leaves =>
                rw [hform] at hsteps
                exact (List.cons.inj hsteps).2
            | performs compensation =>
                rw [hform] at hsteps
                exact (List.cons.inj hsteps).2
          · rintro ⟨hsame, hgoes⟩
            rw [rollbackSteps, rollbackSteps, ← hsame]
            cases hform : a.rollbackStep with
            | raises => rfl
            | leaves => exact congrArg (List.cons _) ((ih hrest).mpr (hgoes (by rw [hform]; simp)))
            | performs compensation =>
                exact congrArg (List.cons _) ((ih hrest).mpr (hgoes (by rw [hform]; simp)))

end Consent

/-! ## The digest -/

section Digest

variable [UnicodeTable]

omit [UnicodeTable] in
theorem legible_payload (steps : List UndoStep) (coordinate profile scope : String) :
    Legible (fun _ => True) (undoPayload steps coordinate profile scope) := by
  have hstep (step : UndoStep) : Legible (fun _ => True) step.payload := by
    unfold UndoStep.payload
    simp only [Legible, LegibleEntries, and_true, List.map_cons, List.map_nil]
    decide
  have hsteps : LegibleItems (fun _ => True) (steps.map UndoStep.payload) := by
    induction steps with
    | nil => rw [List.map_nil, LegibleItems]; trivial
    | cons step rest ih =>
        rw [List.map_cons, LegibleItems]
        exact ⟨hstep step, ih⟩
  unfold undoPayload
  simp only [Legible, LegibleEntries, hsteps, and_true, List.map_cons, List.map_nil]
  decide

omit [UnicodeTable] in
theorem disposition_value_injective {a b : Disposition} (h : a.value = b.value) : a = b := by
  cases a <;> cases b <;> first | rfl | exact absurd h (by decide)

def stepTable (step : UndoStep) : Fields :=
  [("step", some (.int step.index)), ("module", some (.str step.module)), ("subject", some (.str step.subject)),
    ("disposition", some (.str step.disposition.value)), ("reason", some (.str step.reason))]

def payloadTable (steps : List UndoStep) (coordinate profile scope : String) : Fields :=
  [("coordinate", some (.str coordinate)), ("profile", some (.str profile)), ("scope", some (.str scope)),
    ("steps", some (.arr (sortKeysItems (steps.map UndoStep.payload)))),
    ("reverses", some (.int (steps.countP fun step => step.disposition == .reverses))),
    ("keeps", some (.int (steps.countP fun step => step.disposition == .keeps)))]

omit [UnicodeTable] in
/-- The canonical form of a step determines it. -/
theorem step_of_payload {a b : UndoStep} (h : sortKeys a.payload = sortKeys b.payload) : a = b := by
  have hform (step : UndoStep) : sortKeys step.payload = jsonObject (stepTable step) := by
    simp [UndoStep.payload, sortKeys, sortKeysEntries, jsonObject, present, stepTable]
  have hnodup : ((stepTable a).map Prod.fst).Nodup := by
    simp only [stepTable, List.map_cons, List.map_nil]
    decide
  rw [hform, hform] at h
  have htable : stepTable a = stepTable b := jsonObject_injective rfl hnodup h
  simp only [stepTable, List.cons.injEq, Prod.mk.injEq, Option.some.injEq, Json.int.injEq, Json.str.injEq, true_and,
    and_true, Int.ofNat_inj] at htable
  obtain ⟨hindex, hmodule, hsubject, hdisposition, hreason⟩ := htable
  rw [UndoStep.mk.injEq]
  exact ⟨hindex, hmodule, hsubject, disposition_value_injective hdisposition, hreason⟩

omit [UnicodeTable] in
theorem steps_of_payloads {as bs : List UndoStep}
    (h : sortKeysItems (as.map UndoStep.payload) = sortKeysItems (bs.map UndoStep.payload)) : as = bs := by
  induction as generalizing bs with
  | nil =>
      cases bs with
      | nil => rfl
      | cons b bs => simp [sortKeysItems] at h
  | cons a as ih =>
      cases bs with
      | nil => simp [sortKeysItems] at h
      | cons b bs =>
          simp only [List.map_cons, sortKeysItems, List.cons.injEq] at h
          rw [step_of_payload h.1, ih h.2]

omit [UnicodeTable] in
theorem steps_of_payload {as bs : List UndoStep} {coordinate profile scope : String}
    (h : sortKeys (undoPayload as coordinate profile scope) = sortKeys (undoPayload bs coordinate profile scope)) :
    as = bs := by
  have hform (steps : List UndoStep) : sortKeys (undoPayload steps coordinate profile scope) =
      jsonObject (payloadTable steps coordinate profile scope) := by
    simp [undoPayload, sortKeys, sortKeysEntries, jsonObject, present, payloadTable]
  have hnodup : ((payloadTable as coordinate profile scope).map Prod.fst).Nodup := by
    simp only [payloadTable, List.map_cons, List.map_nil]
    decide
  rw [hform, hform] at h
  have htable : payloadTable as coordinate profile scope = payloadTable bs coordinate profile scope :=
    jsonObject_injective rfl hnodup h
  simp only [payloadTable, List.cons.injEq, Prod.mk.injEq, Option.some.injEq, Json.arr.injEq, true_and, and_true]
    at htable
  exact steps_of_payloads htable.1

variable [StandardLibrary] [JsonRuntime]

omit [JsonRuntime] in
theorem viewedDigest_of_parsed {record : SetupStateRecord} {coordinate profile scope : String} {parsed : Json}
    (h : parseJson (encodeUtf8 (JsonText.dumps (undoPayload (planUndo record) coordinate profile scope))) = .ok parsed) :
    viewedDigest record coordinate profile scope = some (jsonDigest parsed) := by
  unfold viewedDigest undoDigest
  rw [h]

/-- Records that are reviewed under one digest have one list of steps. -/
theorem steps_of_viewedDigest (hfree : CollisionFree) {left right : SetupStateRecord} {coordinate profile scope : String}
    {digest : ObjectDigest} (hleft : viewedDigest left coordinate profile scope = some digest)
    (hright : viewedDigest right coordinate profile scope = some digest) : planUndo left = planUndo right := by
  have hparsed {record : SetupStateRecord} (h : viewedDigest record coordinate profile scope = some digest) :
      Frozen (sortKeys (undoPayload (planUndo record) coordinate profile scope)) ∧
        jsonDigest (sortKeys (undoPayload (planUndo record) coordinate profile scope)) = digest := by
    unfold viewedDigest undoDigest at h
    split at h
    · rename_i parsed hparse
      have hsorted := JsonText.eq_sortKeys_of_parseJson_dumps (legible_payload _ _ _ _) hparse
      rw [← hsorted]
      exact ⟨frozen_of_fits (fits_of_parseJson hparse), Option.some.inj h⟩
    · cases h
  obtain ⟨hfrozen, hdigest⟩ := hparsed hleft
  obtain ⟨hfrozen', hdigest'⟩ := hparsed hright
  exact steps_of_payload (jsonDigest_injective hfree hfrozen hfrozen' (hdigest.trans hdigest'.symm))

end Digest

/-! ## Two blocks of one file -/

section Sample

local instance : UnicodeTable := ⟨fun _ => true⟩

attribute [local instance] reviewLibrary

local instance : JsonRuntime := pythonLibrary_jsonRuntime _ _

/-- What writing a block into a file that was there leaves. -/
def blockReceipt (marker : String) : Receipt :=
  [("step_id", .str "shell"), ("module", .str "file.managed-block@1"), ("path", .str "/home/dev/.zshrc"),
    ("marker", .str marker), ("changed", .bool true), ("file_existed", .bool true), ("mode", .int 420),
    ("prior_block", .null), ("installed_block", .str ("export STYLE=" ++ marker))]

def blockRecord (marker finishedAt : String) : SetupStateRecord where
  artifactType := .guideline
  artifactName := "style"
  profile := "claude"
  scope := .project
  status := .configured
  detail := "Setup configured"
  finishedAt := finishedAt
  receipt := [blockReceipt marker]

def blockPayload : Json :=
  undoPayload (planUndo (blockRecord "alpha" "")) "team/guideline/style" "claude" "project"

theorem blockPayload_integers : Legible JsonText.InRange blockPayload := by
  simp only [blockPayload, undoPayload, planUndo, blockRecord, List.reverse_singleton, undoSteps, List.map_cons,
    List.map_nil, UndoStep.payload, Receipt.undoStep, Legible, LegibleEntries, LegibleItems, JsonText.InRange,
    and_true, true_and]
  decide

theorem blockRecord_viewed {marker finishedAt : String}
    (h : planUndo (blockRecord marker finishedAt) = planUndo (blockRecord "alpha" "")) :
    viewedDigest (blockRecord marker finishedAt) "team/guideline/style" "claude" "project" =
      some (jsonDigest (sortKeys blockPayload)) := by
  have hfrozen : freeze 0 blockPayload = .ok (sortKeys blockPayload) := by rfl
  refine viewedDigest_of_parsed ?_
  rw [h]
  exact JsonText.parseJson_dumps blockPayload_integers hfrozen

end Sample

end AgentArtifacts.Setup
