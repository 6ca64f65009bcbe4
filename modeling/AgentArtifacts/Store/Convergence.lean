import AgentArtifacts.Library.Interleaving
import AgentArtifacts.Store.ReadObject

/-!
# Publishing an object

Any number of calls publish one candidate at one path. Every call writes a stage of its own
and renames it to the path. Where that fails, what stands there is read: an object that is
read is kept, and one that is corrupt is moved away before the stage is renamed again.
Renames, looks at the path, reads of the object and moves to quarantine are one step each;
every other I/O step succeeds and changes nothing that another call sees.

Calls that find nothing, or the object, or an empty directory store the object whatever the
order of their steps, and so does a single call that finds a corrupt one. Two calls that find
a corrupt object may repair it at once: one of them then fails at the object of the other.
-/

namespace AgentArtifacts.ObjectStore

open Interleaving (System turn turn_eq_some turn_eq_none Reached turns_end)

/-- Nothing stands in the directory. -/
def isEmptyTree (tree : DiskTree) : Bool := tree.all fun visit => visit.children.isEmpty

/-- `os.rename` to the path: whether it succeeds, which it does onto nothing or an empty directory. -/
def renames (target : Option DiskTree) : Bool :=
  match target with
  | none => true
  | some tree => isEmptyTree tree

structure ObjectPublishReceipt [StandardLibrary] where
  stored : StoredObject
  created : Bool
  repaired : Bool

/-- Where a call of `publish_object` stands. An attempt knows how many may follow it. -/
inductive PublishCall [StandardLibrary] where
  | publish (attemptsLeft : Nat)
  /-- The rename failed: `os.path.lexists(target)`, `_real_directory(target)`, `read_object`. -/
  | lookForTarget (attemptsLeft : Nat)
  | inspectTarget (attemptsLeft : Nat)
  | readExisting (attemptsLeft : Nat)
  | quarantine (attemptsLeft : Nat)
  | repair (abandoned : DiskTree)
  | repairFailed (abandoned : DiskTree)
  | restore (abandoned : DiskTree)
  | verify (created repaired : Bool)
  | returned (result : Result ObjectPublishReceipt)

section Calls

variable [StandardLibrary] [Redaction] (candidate : Envelope) (root : String) (stage : DiskTree) (osError : String)

/-- What a call does about an object that it could not read. -/
def repairable (diagnostics : List Diagnostic) : Bool :=
  diagnostics.all fun diagnostic => diagnostic.code = digestMismatch ∨ diagnostic.code = storeInvalid

/-- The call after it read what stands at the path. -/
def afterReading (attemptsLeft : Nat) : Result (Option StoredObject) → PublishCall
  | .ok (some existing) => .returned (.ok ⟨existing, false, false⟩)
  | .ok none => .quarantine attemptsLeft
  | .error diagnostics =>
      if repairable diagnostics then .quarantine attemptsLeft else .returned (.error diagnostics)

/-- `_stored_receipt`. -/
def storedReceipt (created repaired : Bool) (loaded : Result (Option StoredObject)) : Result ObjectPublishReceipt := do
  match ← loaded with
  | none => storeFault storeInvalid "published artifact object does not match candidate"
  | some stored =>
      if stored.candidate ≠ candidate then
        storeFault storeInvalid "published artifact object does not match candidate"
      else return ⟨stored, created, repaired⟩

/-- One step of `publish_object`: what stands at the path and where the call stands afterwards. -/
def publishStep (target : Option DiskTree) : PublishCall → Option (Option DiskTree × PublishCall)
  | .publish left =>
      if renames target then some (some stage, .verify true false) else some (target, .lookForTarget left)
  | .lookForTarget left =>
      if target.isNone then
        some (target, .returned (unavailable ("cannot publish artifact object: " ++ osError)))
      else some (target, .inspectTarget left)
  | .inspectTarget left =>
      if target.isNone then
        some (target, .returned (storeFault storeUnsafeEntry "artifact object target is not a real directory"))
      else some (target, .readExisting left)
  | .readExisting left => some (target, afterReading left (readObject root target candidate.digest))
  | .quarantine left =>
      match target, left with
      | some abandoned, _ => some (none, .repair abandoned)
      | none, left + 1 => some (none, .publish left)
      | none, 0 => some (none, .returned (unavailable "artifact object publication did not converge"))
  | .repair abandoned =>
      if renames target then some (some stage, .verify false true) else some (target, .repairFailed abandoned)
  | .repairFailed abandoned =>
      if target.isNone then some (target, .restore abandoned)
      else some (target, .returned (unavailable ("cannot repair corrupt object: " ++ osError)))
  | .restore abandoned =>
      some (if renames target then some abandoned else target,
        .returned (unavailable ("cannot repair corrupt object: " ++ osError)))
  | .verify created repaired =>
      some (target, .returned (storedReceipt candidate created repaired (readObject root target candidate.digest)))
  | .returned _ => none

/-- Four attempts in all. -/
def firstAttempt : PublishCall := .publish 3

/-- The calls before their first rename. -/
def publishing (ι : Type) (target : Option DiskTree) : System (Option DiskTree) ι PublishCall :=
  ⟨target, fun _ => firstAttempt⟩

end Calls

/-! ## Calls that publish one object -/

open Interleaving (System Leaves turn turn_eq_some turn_eq_none Reached turns_end)

section Publishing

variable [StandardLibrary] [Redaction] {candidate : Envelope} {root : String} {stage : DiskTree} {osError : String}
  {target : Option DiskTree}

/-- What is read at the path is the candidate. -/
def Stored (candidate : Envelope) (root : String) (target : Option DiskTree) : Prop :=
  readObject root target candidate.digest = .ok (some ⟨candidate, root⟩)

/-- A directory that is rejected as one that can be repaired. -/
def Corrupt (digest : ObjectDigest) (tree : DiskTree) : Prop :=
  ∃ diagnostics, readCandidate tree digest = .error diagnostics ∧ repairable diagnostics = true

/-- The path is free, or a directory stands there that is the object or a corrupt one. -/
def Publishable (candidate : Envelope) (target : Option DiskTree) : Prop :=
  ∀ tree, target = some tree →
    readCandidate tree candidate.digest = .ok candidate ∨ Corrupt candidate.digest tree

/-- What publications come to: they end, each with the candidate stored, and leave it at the path. -/
structure Converges {ι : Type} [DecidableEq ι] (candidate : Envelope) (root : String) (stage : DiskTree) (osError : String)
    (start : System (Option DiskTree) ι PublishCall) : Prop where
  ends : WellFounded fun t s : System (Option DiskTree) ι PublishCall =>
    ∃ i, turn (publishStep candidate root stage osError) s i = some t
  returnsOk : ∀ s, Reached (publishStep candidate root stage osError) start s → ∀ i result,
    s.parties i = .returned result → ∃ receipt, result = .ok receipt ∧ receipt.stored = ⟨candidate, root⟩
  settles : ∀ s, Reached (publishStep candidate root stage osError) start s →
    (∀ i, turn (publishStep candidate root stage osError) s i = none) →
      (∀ i, ∃ result, s.parties i = .returned result) ∧ Stored candidate root s.shared

/-! ## One step -/

variable {call : PublishCall}

theorem publishStep_eq_none :
    publishStep candidate root stage osError target call = none ↔ ∃ result, call = .returned result := by
  cases call with
  | returned result => exact ⟨fun _ => ⟨result, rfl⟩, fun _ => rfl⟩
  | publish left | lookForTarget left | inspectTarget left | repair abandoned | repairFailed abandoned =>
      simp only [publishStep]
      split <;> simp
  | quarantine left =>
      cases target <;> cases left <;> simp [publishStep]
  | readExisting left | restore abandoned | verify created repaired => simp [publishStep]

/-- What is left to do of a call. -/
def PublishCall.work : PublishCall → Nat
  | .publish left => 10 * left + 14
  | .lookForTarget left => 10 * left + 13
  | .inspectTarget left => 10 * left + 12
  | .readExisting left => 10 * left + 11
  | .quarantine left => 10 * left + 10
  | .repair _ => 4
  | .repairFailed _ => 3
  | .restore _ => 2
  | .verify _ _ => 1
  | .returned _ => 0

omit [Redaction] in
theorem afterReading_work (left : Nat) (loaded : Result (Option StoredObject)) :
    (afterReading left loaded).work ≤ 10 * left + 10 := by
  unfold afterReading
  split
  · exact Nat.zero_le _
  · exact Nat.le_refl _
  · split
    · exact Nat.le_refl _
    · exact Nat.zero_le _

theorem publishStep_work {next : Option DiskTree × PublishCall}
    (h : publishStep candidate root stage osError target call = some next) : next.2.work < call.work := by
  cases call with
  | returned result => exact absurd h (by simp [publishStep])
  | publish left | lookForTarget left | inspectTarget left | repair abandoned | repairFailed abandoned =>
      simp only [publishStep] at h
      split at h
      all_goals
        obtain rfl := Option.some.inj h
        simp [PublishCall.work]
  | readExisting left =>
      obtain rfl := Option.some.inj h
      have hafter := afterReading_work left (readObject root target candidate.digest)
      exact Nat.lt_succ_of_le hafter
  | quarantine left =>
      simp only [publishStep] at h
      cases target with
      | some abandoned =>
          obtain rfl := Option.some.inj h
          simp only [PublishCall.work]
          omega
      | none =>
          cases left with
          | zero =>
              obtain rfl := Option.some.inj h
              simp [PublishCall.work]
          | succ left =>
              obtain rfl := Option.some.inj h
              simp only [PublishCall.work]
              omega
  | restore abandoned | verify created repaired =>
      obtain rfl := Option.some.inj h
      simp [PublishCall.work]

/-! ## What a stage is -/

omit [Redaction] in
theorem not_isEmptyTree_stage (hstage : HoldsEntries stage candidate.entries) : isEmptyTree stage = false := by
  have hne : candidate.entries ≠ [] := by
    intro hnil
    have hnormalized := candidate.normalized
    rw [hnil] at hnormalized
    exact absurd hnormalized (by simp [normalizedEntries, collectEntries, storeError, error, bind, Except.bind, pure, Except.pure])
  cases hempty : isEmptyTree stage with
  | false => rfl
  | true =>
      have hnone : stage.flatMap (·.children) = [] := by
        refine List.flatMap_eq_nil_iff.mpr fun visit hvisit => ?_
        exact List.isEmpty_iff.mp (List.all_eq_true.mp hempty visit hvisit)
      exact absurd (List.nil_perm.mp (hnone ▸ hstage.members)) hne

theorem stored_stage (hstage : HoldsEntries stage candidate.entries) : Stored candidate root (some stage) := by
  unfold Stored readObject
  dsimp only
  rw [readCandidate_written candidate hstage]
  rfl

theorem storedReceipt_stored {created repaired : Bool} (h : Stored candidate root target) :
    storedReceipt candidate created repaired (readObject root target candidate.digest) =
      .ok ⟨⟨candidate, root⟩, created, repaired⟩ := by
  unfold Stored at h
  rw [storedReceipt, h]
  simp [bind, Except.bind, pure, Except.pure]

theorem Stored.tree (h : Stored candidate root target) :
    ∃ tree, target = some tree ∧ readCandidate tree candidate.digest = .ok candidate := by
  unfold Stored readObject at h
  cases target with
  | none => exact absurd h (by simp)
  | some tree =>
      dsimp only at h
      obtain ⟨found, hfound, h⟩ := Result.of_bind_ok h
      have hsame : some (⟨found, root⟩ : StoredObject) = some ⟨candidate, root⟩ := Except.ok.inj h
      rw [Option.some.injEq, StoredObject.mk.injEq] at hsame
      rw [hsame.1] at hfound
      exact ⟨tree, rfl, hfound⟩

/-! ## Calls that repair nothing -/

/-- A call that returned with the candidate. -/
def ReturnedOk (candidate : Envelope) (root : String) (result : Result ObjectPublishReceipt) : Prop :=
  ∃ receipt, result = .ok receipt ∧ receipt.stored = ⟨candidate, root⟩

/-- Nothing stands at the path but what a stage is renamed to or the object, and no call has read anything else. -/
def Calm (candidate : Envelope) (root : String) (target : Option DiskTree) : PublishCall → Prop
  | .publish _ => renames target = true ∨ Stored candidate root target
  | .lookForTarget _ => Stored candidate root target
  | .inspectTarget _ => Stored candidate root target
  | .readExisting _ => Stored candidate root target
  | .verify _ _ => Stored candidate root target
  | .returned result => Stored candidate root target ∧ ReturnedOk candidate root result
  | _ => False

theorem Stored.calm_of (h : Stored candidate root target) {before : Option DiskTree}
    (hcalm : Calm candidate root before call) : Calm candidate root target call := by
  cases call with
  | publish left => exact Or.inr h
  | returned result => exact ⟨h, hcalm.2⟩
  | lookForTarget left | inspectTarget left | readExisting left | verify created repaired => exact h
  | quarantine left | repair abandoned | repairFailed abandoned | restore abandoned => exact hcalm.elim

theorem Calm.step (hstage : HoldsEntries stage candidate.entries)
    {next : Option DiskTree × PublishCall} (h : Calm candidate root target call)
    (hstep : publishStep candidate root stage osError target call = some next) :
    Calm candidate root next.1 next.2 ∧ (next.1 = target ∨ Stored candidate root next.1) := by
  have hsome (hstored : Stored candidate root target) : target.isNone = false := by
    obtain ⟨tree, rfl, _⟩ := hstored.tree
    rfl
  cases call with
  | publish left =>
      simp only [publishStep] at hstep
      split at hstep
      · obtain rfl := Option.some.inj hstep
        exact ⟨stored_stage hstage, Or.inr (stored_stage hstage)⟩
      · rename_i hfails
        obtain rfl := Option.some.inj hstep
        obtain hrenames | hstored := h
        · exact absurd hrenames hfails
        · exact ⟨hstored, Or.inl rfl⟩
  | lookForTarget left | inspectTarget left =>
      have hstored : Stored candidate root target := h
      simp only [publishStep, hsome hstored] at hstep
      obtain rfl := Option.some.inj hstep
      exact ⟨hstored, Or.inl rfl⟩
  | readExisting left =>
      have hstored : Stored candidate root target := h
      simp only [publishStep] at hstep
      obtain rfl := Option.some.inj hstep
      refine ⟨?_, Or.inl rfl⟩
      rw [show readObject root target candidate.digest = _ from hstored]
      exact ⟨hstored, _, rfl, rfl⟩
  | verify created repaired =>
      have hstored : Stored candidate root target := h
      simp only [publishStep, storedReceipt_stored hstored] at hstep
      obtain rfl := Option.some.inj hstep
      exact ⟨⟨hstored, _, rfl, rfl⟩, Or.inl rfl⟩
  | returned result => exact absurd hstep (by simp [publishStep])
  | quarantine left | repair abandoned | repairFailed abandoned | restore abandoned => exact h.elim

/-! ## A single call that repairs -/

/-- A call that is alone at the path, from the corrupt object that it finds to the one that it stores. -/
def Repairing (candidate : Envelope) (root : String) (target : Option DiskTree) : PublishCall → Prop
  | .publish _ => ∃ tree, target = some tree ∧ Corrupt candidate.digest tree ∧ isEmptyTree tree = false
  | .lookForTarget _ => ∃ tree, target = some tree ∧ Corrupt candidate.digest tree
  | .inspectTarget _ => ∃ tree, target = some tree ∧ Corrupt candidate.digest tree
  | .readExisting _ => ∃ tree, target = some tree ∧ Corrupt candidate.digest tree
  | .quarantine _ => ∃ tree, target = some tree ∧ Corrupt candidate.digest tree
  | .repair _ => target = none
  | .verify _ _ => Stored candidate root target
  | .returned result => Stored candidate root target ∧ ReturnedOk candidate root result
  | _ => False

variable {tree : DiskTree}

theorem afterReading_corrupt (h : Corrupt candidate.digest tree) (left : Nat) :
    afterReading left (readObject root (some tree) candidate.digest) = .quarantine left := by
  obtain ⟨diagnostics, hread, hrepairable⟩ := h
  have hobject : readObject root (some tree) candidate.digest = .error diagnostics := by
    unfold readObject
    dsimp only
    rw [hread]
    rfl
  rw [hobject, afterReading, if_pos hrepairable]

theorem Repairing.step (hstage : HoldsEntries stage candidate.entries)
    {next : Option DiskTree × PublishCall} (h : Repairing candidate root target call)
    (hstep : publishStep candidate root stage osError target call = some next) :
    Repairing candidate root next.1 next.2 := by
  cases call with
  | publish left =>
      obtain ⟨tree, rfl, hcorrupt, hfull⟩ := h
      simp only [publishStep, renames, hfull] at hstep
      obtain rfl := Option.some.inj hstep
      exact ⟨tree, rfl, hcorrupt⟩
  | lookForTarget left | inspectTarget left =>
      obtain ⟨tree, rfl, hcorrupt⟩ := h
      simp only [publishStep, Option.isNone_some] at hstep
      obtain rfl := Option.some.inj hstep
      exact ⟨tree, rfl, hcorrupt⟩
  | readExisting left =>
      obtain ⟨tree, rfl, hcorrupt⟩ := h
      simp only [publishStep, afterReading_corrupt hcorrupt] at hstep
      obtain rfl := Option.some.inj hstep
      exact ⟨tree, rfl, hcorrupt⟩
  | quarantine left =>
      obtain ⟨tree, rfl, _⟩ := h
      simp only [publishStep] at hstep
      obtain rfl := Option.some.inj hstep
      rfl
  | repair abandoned =>
      obtain rfl : target = none := h
      simp only [publishStep, renames, if_true] at hstep
      obtain rfl := Option.some.inj hstep
      exact stored_stage hstage
  | verify created repaired =>
      have hstored : Stored candidate root target := h
      simp only [publishStep, storedReceipt_stored hstored] at hstep
      obtain rfl := Option.some.inj hstep
      exact ⟨hstored, _, rfl, rfl⟩
  | returned result => exact absurd hstep (by simp [publishStep])
  | repairFailed abandoned | restore abandoned => exact h.elim

/-! ## Runs -/

variable {others : Nat}

/-- Calls of which every one that returned has stored the candidate converge. -/
theorem converges_of_holds {ι : Type} [Fintype ι] [DecidableEq ι] [Nonempty ι]
    {start : System (Option DiskTree) ι PublishCall} {Holds : Option DiskTree → PublishCall → Prop}
    (hreached : ∀ s, Reached (publishStep candidate root stage osError) start s → ∀ i, Holds s.shared (s.parties i))
    (hreturned : ∀ shared result, Holds shared (.returned result) →
      Stored candidate root shared ∧ ReturnedOk candidate root result) :
    Converges candidate root stage osError start where
  ends := turns_end PublishCall.work fun _ _ _ => publishStep_work
  returnsOk s hs i result hresult := by
    have hholds := hreached s hs i
    rw [hresult] at hholds
    exact (hreturned _ _ hholds).2
  settles s hs hnone := by
    have hall (i : ι) : ∃ result, s.parties i = .returned result :=
      publishStep_eq_none.mp (turn_eq_none.mp (hnone i))
    obtain ⟨i⟩ := ‹Nonempty ι›
    obtain ⟨result, hresult⟩ := hall i
    have hholds := hreached s hs i
    rw [hresult] at hholds
    exact ⟨hall, (hreturned _ _ hholds).1⟩

theorem converges_of_calm (hstage : HoldsEntries stage candidate.entries)
    (htarget : renames target = true ∨ Stored candidate root target) :
    Converges candidate root stage osError (publishing (Fin (others + 1)) target) := by
  have hcalm (s : System (Option DiskTree) (Fin (others + 1)) PublishCall)
      (hs : Reached (publishStep candidate root stage osError) (publishing (Fin (others + 1)) target) s) :
      ∀ i, Calm candidate root s.shared (s.parties i) := by
    refine hs.keeps (fun _ => htarget) (fun shared call next h hstep => (h.step hstage hstep).1) ?_
    intro i j _ shared call other next h hother hstep
    obtain ⟨_, hsame | hstored⟩ := h.step hstage hstep
    · rw [hsame]
      exact hother
    · exact hstored.calm_of hother
  exact converges_of_holds hcalm fun _ _ h => h

theorem converges_of_alone (hstage : HoldsEntries stage candidate.entries)
    (hcorrupt : Corrupt candidate.digest tree) (hfull : isEmptyTree tree = false) :
    Converges candidate root stage osError (publishing (Fin 1) (some tree)) := by
  have hrepairing (s : System (Option DiskTree) (Fin 1) PublishCall)
      (hs : Reached (publishStep candidate root stage osError) (publishing (Fin 1) (some tree)) s) :
      ∀ i, Repairing candidate root s.shared (s.parties i) := by
    refine hs.keeps (fun _ => ⟨tree, rfl, hcorrupt, hfull⟩) (fun shared call next h hstep => h.step hstage hstep) ?_
    intro i j hij
    exact absurd (Subsingleton.elim i j) hij
  exact converges_of_holds hrepairing fun _ _ h => h

/-- Of two calls, one has moved the corrupt object away when the other renames its stage to the
path. The first one finds the path taken, and fails. -/
theorem repairs_collide (hstage : HoldsEntries stage candidate.entries)
    (hcorrupt : Corrupt candidate.digest tree) (hfull : isEmptyTree tree = false) :
    Leaves (publishStep candidate root stage osError) (publishing (Fin (others + 1 + 1)) (some tree)) 0 1 (some stage)
      (.returned (unavailable ("cannot repair corrupt object: " ++ osError))) (.verify true false) := by
  have hij : (0 : Fin (others + 1 + 1)) ≠ 1 := by simp
  have hstart : Leaves (publishStep candidate root stage osError) (publishing (Fin (others + 1 + 1)) (some tree)) 0 1
      (some tree) firstAttempt firstAttempt := ⟨_, .start, rfl, rfl⟩
  have hrename : publishStep candidate root stage osError (some tree) firstAttempt =
      some (some tree, .lookForTarget 3) := by
    simp [publishStep, firstAttempt, renames, hfull]
  have hlook : publishStep candidate root stage osError (some tree) (.lookForTarget 3) =
      some (some tree, .inspectTarget 3) := rfl
  have hinspect : publishStep candidate root stage osError (some tree) (.inspectTarget 3) =
      some (some tree, .readExisting 3) := rfl
  have hread : publishStep candidate root stage osError (some tree) (.readExisting 3) =
      some (some tree, .quarantine 3) := by
    rw [publishStep, afterReading_corrupt hcorrupt]
  have hmove : publishStep candidate root stage osError (some tree) (.quarantine 3) = some (none, .repair tree) := rfl
  have hother : publishStep candidate root stage osError none firstAttempt = some (some stage, .verify true false) := rfl
  have hrepair : publishStep candidate root stage osError (some stage) (.repair tree) =
      some (some stage, .repairFailed tree) := by
    simp [publishStep, renames, not_isEmptyTree_stage hstage]
  have hfail : publishStep candidate root stage osError (some stage) (.repairFailed tree) =
      some (some stage, .returned (unavailable ("cannot repair corrupt object: " ++ osError))) := rfl
  have hmoved := ((((hstart.first hij hrename).first hij hlook).first hij hinspect).first hij hread).first hij hmove
  exact ((hmoved.second hij hother).first hij hrepair).first hij hfail

theorem not_converges_of_collision (hstage : HoldsEntries stage candidate.entries)
    (hcorrupt : Corrupt candidate.digest tree) (hfull : isEmptyTree tree = false) :
    ¬ Converges candidate root stage osError (publishing (Fin (others + 1 + 1)) (some tree)) := by
  intro hconverges
  obtain ⟨parties, hreached, hreturned, _⟩ := repairs_collide hstage hcorrupt hfull
  obtain ⟨receipt, hreceipt, _⟩ := hconverges.returnsOk _ hreached 0 _ hreturned
  exact absurd hreceipt (by simp [unavailable, storeFault, error])

/-- Publications of one candidate converge exactly when there is one of them or none of them finds
a corrupt object to repair. -/
theorem publications_converge_iff (hstage : HoldsEntries stage candidate.entries)
    (htarget : Publishable candidate target) :
    Converges candidate root stage osError (publishing (Fin (others + 1)) target) ↔
      others = 0 ∨ ∀ tree, target = some tree → Corrupt candidate.digest tree → isEmptyTree tree = true := by
  constructor
  · intro hconverges
    refine or_iff_not_imp_left.mpr fun hothers tree htree hcorrupt => ?_
    obtain ⟨more, rfl⟩ := Nat.exists_eq_succ_of_ne_zero hothers
    subst htree
    cases hempty : isEmptyTree tree with
    | true => rfl
    | false => exact absurd hconverges (not_converges_of_collision hstage hcorrupt hempty)
  · intro h
    cases target with
    | none => exact converges_of_calm hstage (Or.inl rfl)
    | some tree =>
        obtain hread | hcorrupt := htarget tree rfl
        · refine converges_of_calm hstage (Or.inr ?_)
          unfold Stored readObject
          dsimp only
          rw [hread]
          rfl
        · cases hempty : isEmptyTree tree with
          | true => exact converges_of_calm hstage (Or.inl hempty)
          | false =>
              obtain rfl | hnone := h
              · exact converges_of_alone hstage hcorrupt hempty
              · exact absurd (hnone tree rfl hcorrupt) (by simp [hempty])

end Publishing

/-! ## Two calls that repair one object -/

section Sample

attribute [local instance] storeLibrary

local instance plainRedaction : Redaction := ⟨id⟩

/-- A candidate of one directory. -/
def shelfCandidate : Envelope :=
  ⟨namedData (0 + 2), @namedData_valid _ (fun _ => rfl) (pythonLibrary_jsonRuntime _ _) 0 (by decide)
    (validDigest_sha256Bytes storeLibrary_sha256Length _)⟩

def shelfStage : DiskTree := [⟨0, [namedEntry (0 + 2)]⟩, ⟨1, []⟩]

theorem shelfStage_holds : HoldsEntries shelfStage shelfCandidate.entries := by
  refine ⟨List.Perm.refl _, ?_⟩
  intro visit hvisit
  obtain rfl | hvisit := List.mem_cons.mp hvisit
  · exact Or.inl rfl
  · obtain rfl := List.mem_singleton.mp hvisit
    exact Or.inr ⟨namedEntry (0 + 2), List.mem_singleton_self _, rfl, rfl⟩

/-- A directory with one file. -/
def fileTree (content : Bytes) : DiskTree := [⟨0, [⟨⟨["f"]⟩, .file, content, false⟩]⟩]

theorem fileTree_corrupt {content : Bytes} (hlong : maxFileBytes < content.length) (digest : ObjectDigest) :
    Corrupt digest (fileTree content) := by
  have hparsed : parseRelativePath (⟨["f"]⟩ : SafeRelativePath).str = .ok ⟨["f"]⟩ := by rfl
  have hread : readCandidate (fileTree content) digest =
      storeFault storeInvalid "artifact object exceeds file bounds" := by
    simp [readCandidate, fileTree, readDirectory, readChild, hparsed, readFile, maxEntryDepth, maxEntries, hlong, storeFault,
      error, bind, Except.bind]
  exact ⟨_, hread, by decide⟩

theorem fileTree_collision {content : Bytes} (hlong : maxFileBytes < content.length) :
    Corrupt shelfCandidate.digest (fileTree content) ∧ ∃ s,
      Reached (publishStep shelfCandidate "/objects" shelfStage "") (publishing (Fin 2) (some (fileTree content))) s ∧
        ∃ diagnostics, s.parties 0 = .returned (.error diagnostics) := by
  have hcorrupt := fileTree_corrupt hlong shelfCandidate.digest
  have hcollision : Leaves (publishStep shelfCandidate "/objects" shelfStage "")
      (publishing (Fin (0 + 1 + 1)) (some (fileTree content))) 0 1 (some shelfStage) _ _ :=
    repairs_collide shelfStage_holds hcorrupt rfl
  obtain ⟨parties, hreached, hreturned, _⟩ := hcollision
  exact ⟨hcorrupt, _, hreached, _, hreturned⟩

/-- One of two calls fails at an object with an oversized file, although the other has stored the candidate. -/
theorem oversized_collision : Corrupt shelfCandidate.digest (fileTree (List.replicate (maxFileBytes + 1) 0)) ∧ ∃ s,
    Reached (publishStep shelfCandidate "/objects" shelfStage "")
      (publishing (Fin 2) (some (fileTree (List.replicate (maxFileBytes + 1) 0)))) s ∧
        ∃ diagnostics, s.parties 0 = .returned (.error diagnostics) := by
  refine fileTree_collision ?_
  rw [List.length_replicate]
  exact Nat.lt_succ_self _

theorem shelf_published : Converges shelfCandidate "/objects" shelfStage "" (publishing (Fin (1 + 1)) none) :=
  (publications_converge_iff shelfStage_holds (fun _ h => absurd h (by simp))).mpr (Or.inr fun _ h => absurd h (by simp))

end Sample

end AgentArtifacts.ObjectStore
