import Mathlib.Data.Fintype.Basic
import AgentArtifacts.Library.Runs
import AgentArtifacts.Sources.LockDirectory

/-!
# The scope lock

`_lock` opens the lock file of a scope, creating it when it is missing, and
takes an exclusive lock on the file it opened. The teardown of an uninstall
removes that file while it has the lock. A path names a file, and a lock is on a
file: a process may wait for a file that no path names any more.
-/

namespace AgentArtifacts

open Runs

namespace ScopeLock

variable {P : Type}

/-- What a process runs under the lock. The teardown of an uninstall removes the
lock file when it reclaims the state of the scope. -/
inductive Run where
  | applyPlan
  | applyUninstallPlan (reclaimsState : Bool)
deriving DecidableEq

def Run.reclaims : Run → Bool
  | .applyPlan => false
  | .applyUninstallPlan reclaimsState => reclaimsState

/-- The next call of a process; the files it opened are known by their numbers. -/
inductive Phase where
  | idle
  | opening
  | locking (file : Nat)
  | inside (file : Nat)
  | tornDown (file : Nat)
  | closing (file : Nat)
deriving DecidableEq

/-- The file that the lock path names, the processes that have the locks, and the next new file. -/
structure State (P : Type) where
  path : Option Nat
  locks : Nat → Option P
  fresh : Nat
  calls : P → Nat
  phase : P → Phase

def State.start : State P where
  path := none
  locks _ := none
  fresh := 0
  calls _ := 0
  phase _ := .idle

inductive Action (P : Type) where
  | call (p : P) (answer : Answer)
  /-- The process ends, and the system closes its files. -/
  | stop (p : P)

variable [DecidableEq P]

def State.move (s : State P) (p : P) (phase : Phase) : State P :=
  { s with phase := Function.update s.phase p phase }

/-- `LOCK_UN`, and the end of a process: only its own lock goes. -/
def State.unlock (s : State P) (p : P) (file : Nat) : State P :=
  if s.locks file = some p then { s with locks := Function.update s.locks file none } else s

def Phase.file? : Phase → Option Nat
  | .idle => none
  | .opening => none
  | .locking file => some file
  | .inside file => some file
  | .tornDown file => some file
  | .closing file => some file

def State.call (runs : P → Nat → Run) (s : State P) (p : P) (answer : Answer) : State P :=
  match s.phase p with
  | .idle => { s.move p .opening with calls := Function.update s.calls p (s.calls p + 1) }
  | .opening =>
      if answer = .done then
        match s.path with
        | some file => s.move p (.locking file)
        | none => { s.move p (.locking s.fresh) with path := some s.fresh, fresh := s.fresh + 1 }
      else s.move p .idle
  | .locking file =>
      if answer = .done ∧ s.locks file = none then
        { s.move p (.inside file) with locks := Function.update s.locks file (some p) }
      else s.move p (.closing file)
  | .inside file =>
      -- The body ends, by itself or by an error, or its teardown removes the lock file.
      if answer ≠ .raised ∧ (runs p (s.calls p)).reclaims = true then { s.move p (.tornDown file) with path := none }
      else (s.unlock p file).move p (.closing file)
  | .tornDown file => (s.unlock p file).move p (.closing file)
  | .closing file => (s.unlock p file).move p .idle

def State.step (runs : P → Nat → Run) (s : State P) : Action P → Option (State P)
  | .call p answer => some (s.call runs p answer)
  | .stop p =>
      match (s.phase p).file? with
      | some file => some ((s.unlock p file).move p .idle)
      | none => some (s.move p .idle)

/-- The file of a process in the body of `_lock`. -/
def Phase.body? : Phase → Option Nat
  | .inside file => some file
  | .tornDown file => some file
  | _ => none

def State.Inside (s : State P) (p : P) : Prop := (s.phase p).body?.isSome = true

/-- At most one process is in the body. -/
def State.Excludes (s : State P) : Prop := ∀ p q, s.Inside p → s.Inside q → p = q

def Phase.isTornDown : Phase → Bool
  | .tornDown _ => true
  | _ => false

/-- A process locks the file that the lock path still names, and no process that
removed the lock file is still in the body. -/
def State.Careful (s : State P) : Action P → Prop
  | .call p .done =>
      match s.phase p with
      | .locking file => s.locks file = none → s.path = some file ∧ ∀ q, (s.phase q).isTornDown = false
      | _ => True
  | _ => True

omit [DecidableEq P] in
instance [Fintype P] (s : State P) (action : Action P) : Decidable (s.Careful action) := by
  unfold State.Careful
  split
  · split <;> infer_instance
  · infer_instance

/-! ## Exclusion -/

/-- A process in the body has the lock of its file; the path names the file
until the process removes it, and then nobody else is in the body. -/
structure State.Invariant (s : State P) : Prop where
  locked : ∀ p file, (s.phase p).body? = some file → s.locks file = some p
  named : ∀ p file, s.phase p = .inside file → s.path = some file
  alone : ∀ p, (s.phase p).isTornDown = true → ∀ q, s.Inside q → q = p

variable {s : State P} {p : P} {runs : P → Nat → Run}

omit [DecidableEq P] in
theorem State.Invariant.excludes (h : s.Invariant) : s.Excludes := by
  intro p q hp hq
  cases hphase : s.phase p with
  | tornDown file => exact (h.alone p (by rw [hphase]; rfl) q hq).symm
  | inside file =>
      cases hother : s.phase q with
      | tornDown other => exact h.alone q (by rw [hother]; rfl) p hp
      | inside other =>
          have hsame : some file = some other := (h.named p file hphase).symm.trans (h.named q other hother)
          cases hsame
          have hlock := (h.locked p file (by rw [hphase]; rfl)).symm.trans (h.locked q file (by rw [hother]; rfl))
          exact Option.some.inj hlock
      | _ => simp [Inside, hother, Phase.body?] at hq
  | _ => simp [Inside, hphase, Phase.body?] at hp

theorem State.locks_unlock {q : P} (hne : q ≠ p) {file other : Nat} (h : s.locks other = some q) :
    (s.unlock p file).locks other = some q := by
  unfold unlock
  split
  · rename_i hlock
    have hother : other ≠ file := by
      rintro rfl
      exact hne (Option.some.inj (h.symm.trans hlock))
    simpa [hother] using h
  · exact h

theorem State.unlock_path (s : State P) (p : P) (file : Nat) : (s.unlock p file).path = s.path := by
  unfold unlock
  split <;> rfl

theorem State.unlock_phase (s : State P) (p : P) (file : Nat) : (s.unlock p file).phase = s.phase := by
  unfold unlock
  split <;> rfl

omit [DecidableEq P] in
/-- A process stands outside of the body afterwards, and the others keep their locks. -/
theorem State.Invariant.outside (h : s.Invariant) {t : State P} (hphase : (t.phase p).body? = none)
    (hothers : ∀ q, q ≠ p → t.phase q = s.phase q)
    (hlocks : ∀ q file, q ≠ p → s.locks file = some q → t.locks file = some q)
    (hpath : ∀ file, s.path = some file → t.path = some file) : t.Invariant := by
  have hnot {q : P} (hq : (t.phase q).body?.isSome = true) : q ≠ p := by
    rintro rfl
    rw [hphase] at hq
    cases hq
  constructor
  · intro q file hq
    have hne := hnot (by rw [hq]; rfl)
    rw [hothers q hne] at hq
    exact hlocks q file hne (h.locked q file hq)
  · intro q file hq
    have hne := hnot (by rw [hq]; rfl)
    rw [hothers q hne] at hq
    exact hpath file (h.named q file hq)
  · intro q hq r hr
    have hneq : q ≠ p := by
      apply hnot
      cases hcase : t.phase q <;> simp_all [Phase.isTornDown, Phase.body?]
    rw [hothers q hneq] at hq
    apply h.alone q hq
    rw [Inside, ← hothers r (hnot hr)]
    exact hr

/-- A process leaves the file it opened. -/
theorem State.Invariant.leave (h : s.Invariant) (file : Nat) {phase : Phase} (hphase : phase.body? = none) :
    ((s.unlock p file).move p phase).Invariant := by
  apply h.outside (p := p)
  · simpa [move] using hphase
  · intro q hq
    simp [move, hq, s.unlock_phase]
  · intro q other hq hlock
    exact locks_unlock hq hlock
  · intro other hpath
    exact (s.unlock_path p file).trans hpath

/-- A process moves on outside of the body. -/
theorem State.Invariant.pass (h : s.Invariant) {phase : Phase} (hphase : phase.body? = none) :
    (s.move p phase).Invariant := by
  apply h.outside (p := p)
  · simpa [move] using hphase
  · intro q hq
    simp [move, hq]
  · intro q other _ hlock
    exact hlock
  · intro other hpath
    exact hpath

/-- A process gets the lock of the file the path names, and nobody was in the body. -/
theorem State.Invariant.enter (h : s.Invariant) {file : Nat} (hfree : s.locks file = none)
    (hpath : s.path = some file) (hnone : ∀ q, (s.phase q).isTornDown = false) :
    ({ s.move p (.inside file) with locks := Function.update s.locks file (some p) } : State P).Invariant := by
  have hempty (q : P) : (s.phase q).body? = none := by
    cases hphase : s.phase q with
    | inside other =>
        -- Its file is the one that the path names, whose lock is free.
        have hsame := (h.named q other hphase).symm.trans hpath
        cases hsame
        have hlock := h.locked q file (by rw [hphase]; rfl)
        rw [hfree] at hlock
        cases hlock
    | tornDown other =>
        have htorn := hnone q
        rw [hphase] at htorn
        cases htorn
    | _ => rfl
  have hothers {q : P} (hq : q ≠ p) : Function.update s.phase p (.inside file) q = s.phase q := by simp [hq]
  constructor
  · intro q other hq
    by_cases hqp : q = p
    · subst hqp
      simp only [move, Function.update_self, Phase.body?, Option.some.injEq] at hq
      simp [hq]
    · simp only [move, hothers hqp, hempty q] at hq
      cases hq
  · intro q other hq
    by_cases hqp : q = p
    · subst hqp
      simp only [move, Function.update_self, Phase.inside.injEq] at hq
      rw [← hq]
      exact hpath
    · have hbody := hempty q
      simp only [move, hothers hqp] at hq
      rw [hq] at hbody
      cases hbody
  · intro q hq
    by_cases hqp : q = p
    · subst hqp
      simp [move, Phase.isTornDown] at hq
    · simp only [move, hothers hqp, hnone q] at hq
      cases hq

/-- The process in the body removes the lock file. -/
theorem State.Invariant.tearDown (h : s.Invariant) {file : Nat} (hphase : s.phase p = .inside file) :
    ({ s.move p (.tornDown file) with path := none } : State P).Invariant := by
  have hinside : s.Inside p := by
    rw [Inside, hphase]
    rfl
  have honly {q : P} (hq : q ≠ p) : (s.phase q).body? = none := by
    cases hbody : (s.phase q).body? with
    | none => rfl
    | some other => exact absurd (h.excludes q p (by rw [Inside, hbody]; rfl) hinside) hq
  have hothers {q : P} (hq : q ≠ p) : Function.update s.phase p (.tornDown file) q = s.phase q := by simp [hq]
  constructor
  · intro q other hq
    by_cases hqp : q = p
    · subst hqp
      simp only [move, Function.update_self, Phase.body?, Option.some.injEq] at hq
      subst hq
      exact h.locked q file (by rw [hphase]; rfl)
    · simp only [move, hothers hqp, honly hqp] at hq
      cases hq
  · intro q other hq
    by_cases hqp : q = p
    · subst hqp
      simp [move] at hq
    · have hbody := honly hqp
      simp only [move, hothers hqp] at hq
      rw [hq] at hbody
      cases hbody
  · intro q hq r hr
    by_cases hqp : q = p
    · subst hqp
      by_contra hne
      simp only [Inside, move, hothers hne, honly hne] at hr
      cases hr
    · have hbody := honly hqp
      simp only [move, hothers hqp] at hq
      cases hcase : s.phase q <;> simp_all [Phase.isTornDown, Phase.body?]

theorem State.Invariant.call (h : s.Invariant) {answer : Answer} (hcareful : s.Careful (.call p answer)) :
    (s.call runs p answer).Invariant := by
  cases hphase : s.phase p with
  | idle =>
      simp only [State.call, hphase]
      have hmoved : (s.move p .opening).Invariant := h.pass rfl
      exact ⟨hmoved.locked, hmoved.named, hmoved.alone⟩
  | opening =>
      simp only [State.call, hphase]
      split
      · cases hpath : s.path with
        | some file => exact h.pass rfl
        | none =>
            apply h.outside (p := p)
            · simp [move, Phase.body?]
            · intro q hq
              simp [move, hq]
            · intro q file _ hlock
              exact hlock
            · intro file hfile
              rw [hpath] at hfile
              cases hfile
      · exact h.pass rfl
  | locking file =>
      simp only [State.call, hphase]
      split
      · rename_i hlock
        rw [hlock.1] at hcareful
        simp only [Careful, hphase] at hcareful
        obtain ⟨hpath, hnone⟩ := hcareful hlock.2
        exact h.enter hlock.2 hpath hnone
      · exact h.pass rfl
  | inside file =>
      simp only [State.call, hphase]
      split
      · exact h.tearDown hphase
      · exact h.leave file rfl
  | tornDown file =>
      simp only [State.call, hphase]
      exact h.leave file rfl
  | closing file =>
      simp only [State.call, hphase]
      exact h.leave file rfl

omit [DecidableEq P] in
theorem State.invariant_start : (State.start : State P).Invariant := by
  constructor
  · intro p file hp
    cases hp
  · intro p file hp
    cases hp
  · intro p hp
    cases hp

/-- In a run whose steps are all careful, the scope lock excludes in every state. -/
theorem scopeLock_excludes (h : Reach (State.step runs) State.Careful State.start s) : s.Excludes := by
  have hinvariant : s.Invariant := by
    refine h.invariant State.invariant_start ?_
    intro s action t hs hcareful hstep
    cases action with
    | call p answer =>
        cases hstep
        exact hs.call hcareful
    | stop p =>
        simp only [State.step] at hstep
        split at hstep
        · cases hstep
          exact hs.leave _ rfl
        · cases hstep
          exact hs.pass rfl
  exact hinvariant.excludes

/-! ## Two files of one path -/

/-- The first process reclaims the scope, the other two install. -/
def reclaimingRuns : Fin 3 → Nat → Run
  | 0, _ => .applyUninstallPlan true
  | _, _ => .applyPlan

def calls (p : Fin 3) (n : Nat) : List (Action (Fin 3)) := List.replicate n (.call p .done)

/-- A process waits for the lock file while the other one removes it, and locks it then. -/
def lockedRemoved : List (Action (Fin 3)) := calls 0 3 ++ calls 1 2 ++ calls 0 3 ++ calls 1 1

/-- The third one makes the lock file anew. -/
def lockedTwice : List (Action (Fin 3)) := lockedRemoved ++ calls 2 3

theorem scopeLock_excludes_installs :
    ∃ s, runAll (State.step reclaimingRuns) State.Careful State.start (calls 0 6 ++ calls 2 3) = some s ∧
      s.Inside 2 ∧ s.Excludes := by
  obtain ⟨s, hrun, hinside⟩ :
      ∃ s, runAll (State.step reclaimingRuns) State.Careful State.start (calls 0 6 ++ calls 2 3) = some s ∧
        s.Inside 2 :=
    ⟨_, rfl, rfl⟩
  exact ⟨s, hrun, hinside, scopeLock_excludes (reach_of_runAll hrun)⟩

theorem scopeLock_not_excludes :
    ¬ ∀ s, Reach (State.step reclaimingRuns) (fun _ _ => True) State.start s → s.Excludes := by
  intro hall
  obtain ⟨s, hrun, hfirst, hsecond⟩ :
      ∃ s, runAll (State.step reclaimingRuns) (fun _ _ => True) State.start lockedTwice = some s ∧
        s.Inside 1 ∧ s.Inside 2 :=
    ⟨_, rfl, rfl, rfl⟩
  exact absurd (hall s (reach_of_runAll hrun) 1 2 hfirst hsecond) (by decide)

end ScopeLock

end AgentArtifacts
