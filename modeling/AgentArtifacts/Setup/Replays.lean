import AgentArtifacts.Library.Runs
import AgentArtifacts.Setup.Rollback
import Mathlib.Data.List.Nodup
import Mathlib.Data.List.Pairwise

/-!
# Compensations that are replayed

Calls on one setup record follow each other, each from the record that the last one returned.
An incomplete rollback returns the receipts of the whole run, the compensated ones included:
the next rollback replays what succeeded, so it must not be called when something did.
-/

namespace AgentArtifacts.Setup

open Runs

section Sessions

variable [UnicodeTable] {ω : Type}

/-! ## One call -/

/-- A call compensates no receipt twice, and only receipts that have a compensation. -/
structure Ended.Once (ended : Ended ω) : Prop where
  nodup : ended.succeeded.Nodup
  performs : ∀ record, ended.record = some record → ∀ place ∈ ended.succeeded, ∀ receipt,
    record.receipt[place]? = some receipt → receipt.performs = true

variable {runtime : SetupRuntime ω} {world : ω} {receipts : List Receipt}

theorem Ended.once_quiet (record : Option SetupStateRecord) : (Ended.quiet record world).Once where
  nodup := List.nodup_nil
  performs := by
    intro _ _ place hplace
    cases hplace

theorem performs_of_rollbackAll {place : Nat} (h : place ∈ (runtime.rollbackAll receipts world).succeeded) :
    ∃ receipt, receipts[place]? = some receipt ∧ receipt.performs = true := by
  have hfound := performs_of_attempted (succeeded_subset h)
  rwa [List.reverse_reverse] at hfound

/-- A call that ends with a rollback keeps the receipts or none of them. -/
theorem Ended.once_rollback {record : Bool → SetupStateRecord}
    (hreceipt : ∀ ok, (record ok).receipt = if ok then [] else receipts) :
    ((runtime.rollbackAll receipts world).ended record).Once where
  nodup := nodup_succeeded
  performs := by
    intro returned hreturned place hplace receipt hfound
    obtain ⟨ok, _, rfl⟩ := Option.map_eq_some_iff.mp hreturned
    rw [hreceipt] at hfound
    cases ok with
    | true => cases hfound
    | false =>
        obtain ⟨found, hsame, hperforms⟩ := performs_of_rollbackAll hplace
        rw [if_neg Bool.false_ne_true, hsame] at hfound
        cases hfound
        exact hperforms

variable {record : SetupStateRecord}

theorem once_rollbackRecord : (runtime.rollbackRecord record world).Once :=
  Ended.once_rollback fun _ => rfl

/-- A rollback returns the receipts it was given or none. -/
theorem receipt_rollbackRecord {rolled : SetupStateRecord} (h : (runtime.rollbackRecord record world).record = some rolled) :
    rolled.receipt = record.receipt ∨ rolled.receipt = [] := by
  obtain ⟨ok, _, rfl⟩ := Option.map_eq_some_iff.mp h
  cases ok with
  | true => exact Or.inr rfl
  | false => exact Or.inl rfl

omit [UnicodeTable] in
theorem Ended.succeeded_written (ended : Ended ω) : (ended.written runtime).succeeded = ended.succeeded := by
  unfold Ended.written
  split
  · rfl
  · split <;> rfl

omit [UnicodeTable] in
/-- What is written is what the call returned. -/
theorem Ended.record_of_written {ended : Ended ω} {rolled : SetupStateRecord}
    (h : (ended.written runtime).record = some rolled) : ended.record = some rolled := by
  unfold Ended.written at h
  split at h
  · rename_i hnone
    rw [hnone] at h
    cases h
  · split at h
    · exact h
    · cases h

/-! ## Sessions -/

/-- The record that the next call starts from, and what the calls before it compensated. -/
structure Session where
  record : Option SetupStateRecord
  /-- How many plans were applied. Receipts of different runs are different. -/
  run : Nat
  /-- The compensations that succeeded, by run and place. -/
  succeeded : List (Nat × Nat)

def Session.begin (record : Option SetupStateRecord) : Session := ⟨record, 0, []⟩

/-- What a call leaves of a session. -/
def Session.after (session : Session) (run : Nat) (ended : Ended ω) : Session :=
  ⟨ended.record, run, session.succeeded ++ ended.succeeded.map fun place => (run, place)⟩

/-- No compensation of the record has succeeded. -/
def Session.Untouched (session : Session) : Prop :=
  ∀ record, session.record = some record → ∀ place < record.receipt.length, (session.run, place) ∉ session.succeeded

/-- What holds between the calls of a session. -/
structure Session.Sound (session : Session) : Prop where
  recent : ∀ done ∈ session.succeeded, done.1 ≤ session.run
  performs : ∀ record, session.record = some record → ∀ place receipt, (session.run, place) ∈ session.succeeded →
    record.receipt[place]? = some receipt → receipt.performs = true
  nodup : session.succeeded.Nodup

variable {session next : Session}

theorem lt_of_succeeded {place : Nat} (h : place ∈ (runtime.rollbackRecord record world).succeeded) :
    place < record.receipt.length := by
  have hlt := lt_of_attempted (succeeded_subset h)
  rwa [List.length_reverse] at hlt

theorem Session.sound_begin (record : Option SetupStateRecord) : (Session.begin record).Sound where
  recent := by
    intro done hdone
    cases hdone
  performs := by
    intro _ _ _ _ hdone
    cases hdone
  nodup := List.nodup_nil

theorem nodup_places {ended : Ended ω} (honce : ended.Once) (run : Nat) :
    (ended.succeeded.map fun place => (run, place)).Nodup :=
  honce.nodup.map fun _ _ h => (Prod.mk.inj h).2

/-- A plan is applied in a run of its own. -/
theorem Session.Sound.apply (hsound : session.Sound) {ended : Ended ω} (honce : ended.Once) :
    (session.after (session.run + 1) ended).Sound := by
  have hnew {place : Nat} : (session.run + 1, place) ∉ session.succeeded := by
    intro hold
    have hrecent := hsound.recent _ hold
    omega
  refine ⟨?_, ?_, ?_⟩
  · intro done hdone
    rcases List.mem_append.mp hdone with hold | hdone
    · exact Nat.le_succ_of_le (hsound.recent done hold)
    · obtain ⟨place, _, rfl⟩ := List.mem_map.mp hdone
      exact Nat.le_refl _
  · intro record hrecord place receipt hdone hfound
    rcases List.mem_append.mp hdone with hold | hdone
    · exact absurd hold hnew
    · obtain ⟨_, hplace, hsame⟩ := List.mem_map.mp hdone
      cases hsame
      exact honce.performs record hrecord place hplace receipt hfound
  · refine List.Nodup.append hsound.nodup (nodup_places honce _) ?_
    intro done hold hdone
    obtain ⟨place, _, rfl⟩ := List.mem_map.mp hdone
    exact hnew hold

/-- A rollback of a record nothing of which is compensated repeats nothing. -/
theorem Session.Sound.rollback (hsound : session.Sound) {ended : Ended ω} (hrecord : session.record = some record)
    (huntouched : session.Untouched) (hsame : ended.succeeded = (runtime.rollbackRecord record world).succeeded)
    (hreturns : ∀ rolled, ended.record = some rolled → (runtime.rollbackRecord record world).record = some rolled) :
    (session.after session.run ended).Sound := by
  have hfresh {place : Nat} (hplace : place ∈ ended.succeeded) : (session.run, place) ∉ session.succeeded := by
    rw [hsame] at hplace
    exact huntouched record hrecord place (lt_of_succeeded hplace)
  have honce : (runtime.rollbackRecord record world).Once := once_rollbackRecord
  refine ⟨?_, ?_, ?_⟩
  · intro done hdone
    rcases List.mem_append.mp hdone with hold | hdone
    · exact hsound.recent done hold
    · obtain ⟨place, _, rfl⟩ := List.mem_map.mp hdone
      exact Nat.le_refl _
  · intro rolled hrolled place receipt hdone hfound
    rcases List.mem_append.mp hdone with hold | hdone
    · rcases receipt_rollbackRecord (hreturns rolled hrolled) with hkept | hempty
      · rw [hkept] at hfound
        exact hsound.performs record hrecord place receipt hold hfound
      · rw [hempty] at hfound
        cases hfound
    · obtain ⟨_, hplace, hequal⟩ := List.mem_map.mp hdone
      cases hequal
      rw [hsame] at hplace
      exact honce.performs rolled (hreturns rolled hrolled) place hplace receipt hfound
  · refine List.Nodup.append hsound.nodup ?_ ?_
    · rw [hsame]
      exact nodup_places honce _
    · intro done hold hdone
      obtain ⟨place, hplace, rfl⟩ := List.mem_map.mp hdone
      exact hfresh hplace hold

/-- What the rollback of the record would attempt again. -/
theorem Session.Sound.fresh_iff (hsound : session.Sound) (hrecord : session.record = some record)
    (hreturns : (runtime.rollbackAll record.receipt world).complete.isSome = true) :
    (∀ place ∈ (runtime.rollbackAll record.receipt world).attempted, (session.run, place) ∉ session.succeeded) ↔
      session.Untouched := by
  constructor
  · intro hfresh other hother place hplace hdone
    cases hrecord.symm.trans hother
    have hfound : record.receipt[place]? = some record.receipt[place] := List.getElem?_eq_getElem hplace
    have hperforms := hsound.performs record hrecord place _ hdone hfound
    refine hfresh place (attempted_of_performs hreturns ?_ hperforms) hdone
    rw [List.reverse_reverse]
    exact hfound
  · intro huntouched place hplace
    have hlt := lt_of_attempted hplace
    rw [List.length_reverse] at hlt
    exact huntouched record hrecord place hlt

/-! ## The calls -/

/-- A call, and the world as it stands when the call is made. -/
inductive Call (ω : Type) where
  | apply (plan : SetupPlan) (runtime : SetupRuntime ω) (consent : Consent ω) (world : ω)
  | rollback (runtime : SetupRuntime ω) (world : ω)
  | undo (runtime : SetupRuntime ω) (world : ω)

variable [Redaction] {plan : SetupPlan} {consent : Consent ω}

theorem once_cancel {started : String} : (runtime.cancel plan started receipts world).Once :=
  Ended.once_rollback fun _ => rfl

theorem once_abandon {effect : SetupEffect} {detail started : String} {incomplete : Option (Option Receipt)} :
    (runtime.abandon plan effect detail incomplete started receipts world).Once :=
  Ended.once_rollback fun _ => rfl

theorem once_applyEffects {started : String} {inputs : Dict} {effects : List SetupEffect} {changed : Bool} :
    (runtime.applyEffects plan consent started inputs effects receipts changed world).Once := by
  induction effects generalizing receipts changed world with
  | nil => exact Ended.once_quiet _
  | cons effect rest ih =>
      rw [SetupRuntime.applyEffects]
      split
      · exact once_cancel
      · split
        · exact ih
        · exact once_abandon
        · exact once_abandon
        · exact Ended.once_quiet _

theorem once_applySetupPlan : (runtime.applySetupPlan plan consent world).Once := by
  unfold SetupRuntime.applySetupPlan
  split
  · exact Ended.once_quiet _
  · split
    split
    · exact Ended.once_quiet _
    · exact once_applyEffects

def Session.step (session : Session) : Call ω → Option Session
  | .apply plan runtime consent world => some (session.after (session.run + 1) (runtime.applySetupPlan plan consent world))
  | .rollback runtime world => session.record.map fun record =>
      session.after session.run (runtime.rollbackRecord record world)
  | .undo runtime world => session.record.map fun record =>
      session.after session.run (runtime.applyUndo record world)

/-- A call does not roll back a record of which something is compensated. -/
def Session.Careful (session : Session) : Call ω → Prop
  | .apply .. => True
  | .rollback .. => session.Untouched
  | .undo .. => session.Untouched

theorem Session.Sound.step {call : Call ω} (hsound : session.Sound) (hcareful : session.Careful call)
    (hstep : session.step call = some next) : next.Sound := by
  cases call with
  | apply plan runtime consent world =>
      cases hstep
      exact hsound.apply once_applySetupPlan
  | rollback runtime world =>
      obtain ⟨record, hrecord, rfl⟩ := Option.map_eq_some_iff.mp hstep
      exact hsound.rollback hrecord hcareful rfl fun _ h => h
  | undo runtime world =>
      obtain ⟨record, hrecord, rfl⟩ := Option.map_eq_some_iff.mp hstep
      exact hsound.rollback hrecord hcareful (Ended.succeeded_written _) fun _ h => Ended.record_of_written h

/-- The sessions that careful calls lead to. -/
abbrev CarefullyReached (ω : Type) (start : Option SetupStateRecord) (session : Session) : Prop :=
  Reach Session.step (fun session (call : Call ω) => session.Careful call) (Session.begin start) session

theorem Session.sound_of_reach {start : Option SetupStateRecord} (h : CarefullyReached ω start session) :
    session.Sound :=
  h.invariant (Session.sound_begin start) fun _ _ _ hsound hcareful hstep => hsound.step hcareful hstep

end Sessions

/-! ## Two images -/

section Sample

local instance everyPrintable : UnicodeTable := ⟨fun _ => true⟩

local instance noRedaction : Redaction := ⟨id⟩

/-- The tags of a machine, each with whether a container uses it. -/
abbrev Images := List (String × Bool)

/-- `docker image rm` removes a tag that no container uses. -/
def removeImage (compensation : Compensation) (images : Images) : Performed × Images :=
  match compensation.targets with
  | [some [tag]] => if (tag, false) ∈ images then (.succeeded, images.filter fun image => image.1 != tag) else (.failed, images)
  | _ => (.failed, images)

def buildImage (effect : SetupEffect) (images : Images) : Applied × Images :=
  (.applied [("module", .str effect.module), ("tag", .str effect.target),
      ("preexisting", .bool (images.any fun image => image.1 == effect.target)), ("changed", .bool true)] true,
    (effect.target, false) :: images.filter fun image => image.1 != effect.target)

def docker : SetupRuntime Images where
  platform := "darwin"
  enforceSourceHash := true
  clock _ := "2026-01-02T03:04:05Z"
  descriptorMatches _ _ := true
  toolExists _ _ := true
  managedFilePreflight _ _ := ""
  textInputValues _ images := (([], ""), images)
  applyEffect _ _ effect images := buildImage effect images
  perform _ compensation images := removeImage compensation images
  writeState _ images := (true, images)

def buildEffect (tag : String) : SetupEffect where
  stepId := tag
  module := buildModule
  capability := some "process"
  summary := "build " ++ tag
  target := tag
  reversible := true

def imagesInstaller : SetupInstaller where
  artifact := "mcp/servers"
  platforms := ["darwin"]
  requiredTools := ["docker"]
  inputs := []
  steps := [⟨"first", buildModule, []⟩, ⟨"second", buildModule, []⟩]
  descriptorPath := "setup/installer.toml"
  descriptorHash := "a1"

def imagesPlan : SetupPlan where
  item := ⟨.mcp, "servers", "claude", .project, "team", "/srv/team", imagesInstaller, "1.0.0"⟩
  effects := [buildEffect "first", buildEffect "second"]
  planHash := "b2"

def imagesConsent : Consent Images := fun _ images => (true, images)

def builtReceipt (tag : String) : Receipt :=
  [("step_id", .str tag), ("module", .str buildModule), ("tag", .str tag), ("preexisting", .bool false),
    ("changed", .bool true)]

/-- The record of a run that built both images. -/
def builtRecord : SetupStateRecord :=
  finishedRecord imagesPlan "2026-01-02T03:04:05Z" "2026-01-02T03:04:05Z" [builtReceipt "first", builtReceipt "second"] true

def builtSession : Session := ⟨some builtRecord, 1, []⟩

/-- A container uses the second image when the record is rolled back: only the first is removed. -/
def halfSession : Session := ⟨some (builtRecord.rolledBack "2026-01-02T03:04:05Z" false), 1, [(1, 0)]⟩

/-- The second image is in use, and someone has built the first one. -/
def rebuiltImages : Images := [("second", true), ("first", false)]

theorem built_session :
    Session.step (Session.begin none) (.apply imagesPlan docker imagesConsent []) = some builtSession := by
  rfl

theorem half_session : Session.step builtSession (.rollback docker rebuiltImages) = some halfSession := by
  rfl

end Sample

end AgentArtifacts.Setup
