import AgentArtifacts.Library.CompareAndSwap
import AgentArtifacts.Protocol.Hashing
import AgentArtifacts.Sources.SourceLock

/-!
# Checked configuration writes

`write_configuration_checked` compares the digest of the configuration with the
one its caller reviewed and replaces the file, both under a lock directory. The
lock reclaims a stale directory like the source lock does, and its release
removes whatever stands. In those runs in which every directory that is renamed
may be taken, the replaced configurations form one serial history.
-/

namespace AgentArtifacts

open Runs CompareAndSwap

/-- The content a call writes, and the digest of the configuration it reviewed. -/
structure ConfigCasDocument where
  content : Bytes
  expectedDigest : Option ObjectDigest
deriving DecidableEq

namespace CheckedWrite

variable {P : Type}

/-- The loop of `_acquire`. -/
def acquireRules : AcquireRules where
  reclaimsByAge := false
  cleansUp := false
  syncsParent := false

/-- Where a process is: outside of a call, in the loop, or at a step of the body
or of `_release`. -/
inductive Phase (P : Type) where
  | idle
  | acquiring (phase : AcquirePhase P)
  | readDigest
  | replace
  | checkLock
  | removeLock
deriving DecidableEq

/-- The calls of all processes: their lock requests and their documents. -/
structure Writers (P : Type) where
  requests : LockRequests P
  document : P → Nat → ConfigCasDocument

/-- The configuration and the replacements that took effect, in their order. -/
structure State (P : Type) where
  world : LockWorld P
  calls : P → Nat
  phase : P → Phase P
  file : Option Bytes
  replaced : List (Write (Option Bytes) (Option ObjectDigest))

def State.start (clock : Nat) (file : Option Bytes) : State P where
  world := { clock := clock, lock := none, running := fun _ => true }
  calls _ := 0
  phase _ := .idle
  file := file
  replaced := []

inductive Action (P : Type) where
  | call (p : P) (answer : Answer)
  | stop (p : P)
  | advance (time : Nat)

def Action.actor : Action P → Option P
  | .call p _ => some p
  | .stop p => some p
  | .advance _ => none

def next : AcquireNext P → Phase P
  | .goOn phase => .acquiring phase
  | .acquired => .readDigest
  | .refused => .idle

section

variable [StandardLibrary] [DecidableEq P]

def State.move (s : State P) (p : P) (world : LockWorld P) (phase : Phase P) : State P :=
  { s with world := world, phase := Function.update s.phase p phase }

/-- `_current_digest`: a missing file has none. -/
def currentDigest (file : Option Bytes) : Option ObjectDigest := file.map sha256Bytes

/-- The next call of a running process. -/
def State.call (writers : Writers P) (s : State P) (p : P) (answer : Answer) : State P :=
  let request := writers.requests.request p (s.calls p)
  let document := writers.document p (s.calls p)
  match s.phase p with
  | .idle =>
      { s.move p s.world (.acquiring .makeDirectory) with calls := Function.update s.calls p (s.calls p + 1) }
  | .acquiring phase =>
      let result := acquireCall acquireRules request p s.world phase answer
      s.move p result.1 (next result.2)
  | .readDigest =>
      -- Any other state of the file is a conflict, and an unreadable one an error.
      s.move p s.world
        (if answer = .done ∧ currentDigest s.file = document.expectedDigest then .replace else .checkLock)
  | .replace =>
      -- The replacement may take effect although a later step of it raises.
      if answer = .raised then s.move p s.world .checkLock
      else
        { s.move p s.world .checkLock with
          file := some document.content
          replaced := s.replaced ++ [{ expected := document.expectedDigest, value := some document.content }] }
  | .checkLock =>
      s.move p s.world (if answer = .done ∧ s.world.lock.isSome = true then .removeLock else .idle)
  | .removeLock => s.move p (if answer = .done then s.world.put none else s.world) .idle

def State.step (writers : Writers P) (s : State P) : Action P → Option (State P)
  | .call p answer => if s.world.running p then some (s.call writers p answer) else none
  | .stop p => some { s with world := { s.world with running := Function.update s.world.running p false } }
  | .advance time => some { s with world := { s.world with clock := s.world.clock + time } }

/-- The directory an action renames or removes. -/
def State.removed (s : State P) : Action P → Option (LockDirectory P)
  | .call p answer =>
      match s.phase p, answer with
      | .acquiring (.renameStale _), .done => s.world.lock
      | .acquiring .cleanUp, .done => s.world.lock
      | .acquiring (.removeStale directory), _ => some directory
      | .removeLock, .done => s.world.lock
      | _, _ => none
  | _ => none

/-- The replacements have an order in which each one replaced what it expected;
between two that expected the same, it came back; and the lock of a running
process is only taken away by that process. -/
def State.LosesNothing (writers : Writers P) (initial : Option Bytes) (allowed : State P → Action P → Prop)
    (s : State P) : Prop :=
  (∃ order, order.Perm s.replaced ∧ Serial currentDigest initial order s.file ∧ Returns currentDigest order) ∧
    ∀ action t directory, allowed s action → s.step writers action = some t →
      s.removed action = some directory → s.world.running directory.maker = true →
      action.actor = some directory.maker

/-- A stale directory is only renamed while it carries the record that was
judged, or once its maker has stopped. -/
def State.Careful (s : State P) : Action P → Prop
  | .call p .done =>
      match s.phase p, s.world.lock with
      | .acquiring phase, some directory => phase.MayTake s.world p directory
      | _, _ => True
  | _ => True

omit [StandardLibrary] in
instance (s : State P) (action : Action P) : Decidable (s.Careful action) := by
  unfold State.Careful
  split
  · split <;> infer_instance
  · infer_instance

/-! ## A lease -/

def Phase.station : Phase P → Station P
  | .idle => .outside
  | .acquiring phase => .acquiring phase
  | _ => .holding

def State.lease (s : State P) : LeaseState P where
  world := s.world
  calls := s.calls
  station := Phase.station ∘ s.phase

/-- The step of the lease that an action is, if it is one. -/
def State.label (s : State P) : Action P → Option (LeaseAction P)
  | .call p answer =>
      match s.phase p with
      | .readDigest => none
      | .replace => none
      | .checkLock => if answer = .done ∧ s.world.lock.isSome = true then none else some (.leave p)
      | .removeLock => some (if answer = .done then .remove p else .leave p)
      | _ => some (.call p answer)
  | .stop p => some (.stop p)
  | .advance time => some (.advance time)

variable {writers : Writers P} {s t : State P}

omit [StandardLibrary] [DecidableEq P] in
theorem next_station (result : AcquireNext P) : (next result).station = result.station := by
  cases result <;> rfl

omit [StandardLibrary] in
theorem State.lease_move (s : State P) (p : P) (world : LockWorld P) (phase : Phase P) :
    (s.move p world phase).lease = s.lease.move p world phase.station := by
  simp [lease, move, LeaseState.move, Function.comp_update]

omit [StandardLibrary] in
theorem State.lease_stay {p : P} {phase : Phase P} (h : phase.station = (s.phase p).station) :
    (s.move p s.world phase).lease = s.lease := by
  rw [lease_move]
  exact s.lease.move_stay h

/-- What an action is at the level of leases. -/
def Follows (writers : Writers P) (s t : State P) : Option (LeaseAction P) → Prop
  | none => t.lease = s.lease
  | some label => s.lease.step acquireRules writers.requests label = some t.lease

theorem State.call_follows (p : P) (answer : Answer) (hrunning : s.world.running p = true) :
    Follows writers s (s.call writers p answer) (s.label (.call p answer)) := by
  have hlease : s.lease.world.running p = true := hrunning
  have hstation : s.lease.station p = (s.phase p).station := rfl
  cases hphase : s.phase p with
  | idle =>
      rw [hphase] at hstation
      simp only [label, call, hphase, Follows, LeaseState.step, hlease, if_true, hstation, Phase.station]
      have hmove := s.lease_move p s.world (.acquiring .makeDirectory)
      simp only [lease, LeaseState.move, move, Option.some.injEq, LeaseState.mk.injEq, true_and] at hmove ⊢
      exact hmove.symm
  | acquiring phase =>
      rw [hphase] at hstation
      simp only [label, call, hphase, Follows, LeaseState.step, hlease, if_true, hstation, Phase.station]
      rw [lease_move, next_station]
      rfl
  | readDigest =>
      simp only [label, call, hphase, Follows]
      apply lease_stay
      rw [hphase]
      split <;> rfl
  | replace =>
      have hstay : (s.move p s.world .checkLock).lease = s.lease := lease_stay (by rw [hphase]; rfl)
      simp only [label, call, hphase, Follows]
      split
      · exact hstay
      · exact hstay
  | checkLock =>
      have hholding : s.lease.station p = .holding := by rw [hstation, hphase]; rfl
      simp only [label, call, hphase]
      split
      · exact lease_stay (by rw [hphase]; rfl)
      · simp only [Follows, LeaseState.step, hlease, hholding, and_self, if_true]
        rw [lease_move]
        rfl
  | removeLock =>
      have hholding : s.lease.station p = .holding := by rw [hstation, hphase]; rfl
      simp only [label, call, hphase]
      split
      · simp only [Follows, LeaseState.step, hlease, hholding, and_self, if_true]
        rw [lease_move]
        rfl
      · simp only [Follows, LeaseState.step, hlease, hholding, and_self, if_true]
        rw [lease_move]
        rfl

theorem State.step_follows {action : Action P} (h : s.step writers action = some t) :
    Follows writers s t (s.label action) := by
  cases action with
  | call p answer =>
      simp only [step] at h
      split at h
      · rename_i hrunning
        cases h
        exact call_follows p answer hrunning
      · cases h
  | stop p =>
      cases h
      rfl
  | advance time =>
      cases h
      rfl

omit [StandardLibrary] [DecidableEq P] in
/-- A careful action is a careful step of the lease. -/
theorem State.careful_label {action : Action P} (h : s.Careful action) {label : LeaseAction P}
    (hlabel : s.label action = some label) : s.lease.Careful label := by
  cases action with
  | call p answer =>
      have hsame : s.Careful (.call p answer) → s.lease.Careful (.call p answer) := by
        intro hcareful
        cases answer with
        | raised => trivial
        | broken => trivial
        | done =>
            simp only [Careful, LeaseState.Careful, lease, Function.comp_apply] at hcareful ⊢
            cases hphase : s.phase p with
            | acquiring phase =>
                rw [hphase] at hcareful
                cases hlock : s.world.lock with
                | none => trivial
                | some directory =>
                    rw [hlock] at hcareful
                    exact hcareful
            | _ => trivial
      simp only [State.label] at hlabel
      split at hlabel
      · cases hlabel
      · cases hlabel
      · split at hlabel
        · cases hlabel
        · cases hlabel
          trivial
      · cases hlabel
        split <;> trivial
      · cases hlabel
        exact hsame h
  | stop p =>
      cases hlabel
      trivial
  | advance time =>
      cases hlabel
      trivial

omit [StandardLibrary] [DecidableEq P] in
/-- What an action takes away is what the step of the lease takes away. -/
theorem State.removed_label {action : Action P} {directory : LockDirectory P}
    (h : s.removed action = some directory) :
    ∃ label, s.label action = some label ∧ s.lease.removed label = some directory ∧ label.actor = action.actor := by
  cases action with
  | call p answer =>
      simp only [removed] at h
      split at h
      · rename_i owner hphase
        exact ⟨.call p .done, by simp [label, hphase], by simpa [LeaseState.removed, lease, hphase, Phase.station] using h, rfl⟩
      · rename_i hphase
        exact ⟨.call p .done, by simp [label, hphase], by simpa [LeaseState.removed, lease, hphase, Phase.station] using h, rfl⟩
      · rename_i answer _ _ standing hphase
        exact ⟨.call p answer, by simp only [label, hphase], by simpa [LeaseState.removed, lease, hphase, Phase.station] using h, rfl⟩
      · rename_i hphase
        exact ⟨.remove p, by simp [label, hphase], by simpa [LeaseState.removed, lease] using h, rfl⟩
      · cases h
  | stop p => cases h
  | advance time => cases h

theorem State.lease_reach {clock : Nat} {file : Option Bytes}
    (h : Reach (State.step writers) State.Careful (State.start clock file) s) :
    Reach (LeaseState.step acquireRules writers.requests) LeaseState.Careful (LeaseState.start clock) s.lease := by
  refine h.simulates State.lease ?_
  intro s action t hcareful hstep
  have hfollows := step_follows hstep
  cases hlabel : s.label action with
  | none =>
      rw [hlabel] at hfollows
      exact Or.inl hfollows
  | some label =>
      rw [hlabel] at hfollows
      exact Or.inr ⟨label, careful_label hcareful hlabel, hfollows⟩

/-! ## The configuration -/

/-- The replacements so far are serial, and a process about to replace the
configuration has compared it. -/
structure State.Compared (writers : Writers P) (initial : Option Bytes) (s : State P) : Prop where
  serial : Serial currentDigest initial s.replaced s.file
  compared : ∀ p, s.world.running p = true → s.phase p = .replace →
    currentDigest s.file = (writers.document p (s.calls p)).expectedDigest

/-- A process moves on while the configuration stays as it is. -/
theorem State.Compared.move {initial : Option Bytes} (h : s.Compared writers initial) (p : P) {world : LockWorld P}
    {phase : Phase P} (hrunning : world.running = s.world.running)
    (hphase : phase = .replace → currentDigest s.file = (writers.document p (s.calls p)).expectedDigest) :
    (s.move p world phase).Compared writers initial := by
  constructor
  · exact h.serial
  · intro q hq hreplace
    simp only [State.move, hrunning] at hq hreplace
    by_cases hqp : q = p
    · subst hqp
      rw [Function.update_self] at hreplace
      exact hphase hreplace
    · rw [Function.update_of_ne hqp] at hreplace
      exact h.compared q hq hreplace

theorem State.Compared.call {initial : Option Bytes} (h : s.Compared writers initial) {p : P}
    (hrunning : s.world.running p = true)
    (hunique : ∀ q, s.world.running q = true → s.phase q = .replace → s.phase p = .replace → q = p)
    (answer : Answer) : (s.call writers p answer).Compared writers initial := by
  cases hphase : s.phase p with
  | idle =>
      simp only [State.call, hphase]
      have hmoved : (s.move p s.world (.acquiring .makeDirectory)).Compared writers initial :=
        h.move p rfl (by simp)
      refine ⟨hmoved.serial, ?_⟩
      intro q hq hreplace
      have hqp : q ≠ p := by
        rintro rfl
        simp [State.move] at hreplace
      simpa [State.move, hqp] using hmoved.compared q hq hreplace
  | acquiring phase =>
      simp only [State.call, hphase]
      apply h.move p (acquireCall_running _ _ _ _ _ _)
      intro hreplace
      unfold next at hreplace
      split at hreplace <;> cases hreplace
  | readDigest =>
      simp only [State.call, hphase]
      apply h.move p rfl
      split
      · rename_i hcompared
        intro _
        exact hcompared.2
      · intro hreplace
        cases hreplace
  | replace =>
      have hstay : (s.move p s.world .checkLock).Compared writers initial := h.move p rfl (by simp)
      simp only [State.call, hphase]
      split
      · exact hstay
      · constructor
        · exact h.serial.snoc (h.compared p hrunning hphase)
        · intro q hq hreplace
          -- Nobody else stands before its replacement.
          have hqp : q ≠ p := by
            rintro rfl
            simp [State.move] at hreplace
          simp only [State.move, Function.update_of_ne hqp] at hreplace
          exact absurd (hunique q hq hreplace hphase) hqp
  | checkLock =>
      simp only [State.call, hphase]
      apply h.move p rfl
      split <;> simp
  | removeLock =>
      simp only [State.call, hphase]
      apply h.move p _ (by simp)
      split <;> rfl

theorem State.compared_of_reach {clock : Nat} {file : Option Bytes}
    (h : Reach (State.step writers) State.Careful (State.start clock file) s) : s.Compared writers file := by
  induction h with
  | start =>
      constructor
      · rfl
      · intro p _ hphase
        cases hphase
  | @step s t action hreach hcareful hstep ih =>
      have hinvariant := LeaseState.invariant_of_reach (lease_reach hreach)
      cases action with
      | call p answer =>
          simp only [State.step] at hstep
          split at hstep
          · rename_i hrunning
            cases hstep
            apply ih.call hrunning
            intro q hq hother hphase
            apply hinvariant.holder_unique
            · exact ⟨hq, by simp [lease, hother, Phase.station]⟩
            · exact ⟨hrunning, by simp [lease, hphase, Phase.station]⟩
          · cases hstep
      | stop p =>
          cases hstep
          refine ⟨ih.serial, ?_⟩
          intro q hq hphase
          apply ih.compared q _ hphase
          by_cases hqp : q = p
          · subst hqp
            simp at hq
          · simpa [hqp] using hq
      | advance time =>
          cases hstep
          exact ⟨ih.serial, ih.compared⟩

/-- In a run whose steps are all careful, no update is lost in any state. -/
theorem checkedWrites_lose_nothing {clock : Nat} {file : Option Bytes}
    (h : Reach (State.step writers) State.Careful (State.start clock file) s) :
    s.LosesNothing writers file State.Careful := by
  constructor
  · have hserial := (State.compared_of_reach h).serial
    exact ⟨s.replaced, List.Perm.refl _, hserial, hserial.returns⟩
  · intro action t directory hcareful hstep hremoved hrunning
    have hinvariant := LeaseState.invariant_of_reach (State.lease_reach h)
    obtain ⟨label, hlabel, hleaseRemoved, hactor⟩ := State.removed_label hremoved
    have hfollows := State.step_follows hstep
    rw [hlabel] at hfollows
    rw [← hactor]
    rcases (hinvariant.removed (State.careful_label hcareful hlabel) hfollows hleaseRemoved).2 with hmaker | hstopped
    · exact hmaker
    · have hrunning' : s.lease.world.running directory.maker = true := hrunning
      rw [hrunning'] at hstopped
      cases hstopped

end

/-! ## A lost update -/

section

local instance : StandardLibrary := plainLibrary

attribute [local instance] SourceLock.threeRequesters

/-- Three processes that each create the configuration they reviewed as absent. -/
def threeWriters : Writers (Fin 3) where
  requests := SourceLock.threeRequests
  document p _ := { content := [p.val.toUInt8], expectedDigest := none }

def calls (p : Fin 3) (n : Nat) : List (Action (Fin 3)) := List.replicate n (.call p .done)

/-- The first process stops while it has the lock; one of the others reclaims it and
comes to its replacement. -/
def reclaimed : List (Action (Fin 3)) :=
  calls 0 4 ++ [.stop 0, .advance 302000000000] ++ calls 1 4 ++ calls 2 4 ++ calls 1 6

/-- The third one renames the directory it found stale before, and both replace the file. -/
def replacedTwice : List (Action (Fin 3)) := reclaimed ++ calls 2 6 ++ calls 1 1 ++ calls 2 1

theorem checkedWrites_lose_nothing_reclaimed :
    ∃ s, runAll (State.step threeWriters) State.Careful (State.start 0 none) (reclaimed ++ calls 1 1) = some s ∧
      s.replaced.length = 1 ∧ s.LosesNothing threeWriters none State.Careful := by
  have hreplaces : (runAll (State.step threeWriters) State.Careful (State.start 0 none)
      (reclaimed ++ calls 1 1)).map (·.replaced.length) = some 1 := by decide
  obtain ⟨s, hrun, hreplaced⟩ := Option.map_eq_some_iff.mp hreplaces
  exact ⟨s, hrun, hreplaced, checkedWrites_lose_nothing (reach_of_runAll hrun)⟩

/-- Two replacements of a file that both expected to be missing have no serial order. -/
theorem not_serial_of_absent {order : List (Write (Option Bytes) (Option ObjectDigest))} {last : Option Bytes}
    (hlength : order.length = 2) (hwrites : ∀ write ∈ order, write.expected = none ∧ write.value.isSome = true) :
    ¬ Serial currentDigest none order last := by
  intro h
  match order, hlength with
  | [first, second], _ =>
      obtain ⟨_, hsecond, _⟩ := h
      obtain ⟨content, hcontent⟩ := Option.isSome_iff_exists.mp (hwrites first (by simp)).2
      rw [(hwrites second (by simp)).1, hcontent] at hsecond
      cases hsecond

theorem checkedWrites_lose_an_update :
    ¬ ∀ s, Reach (State.step threeWriters) (fun _ _ => True) (State.start 0 none) s →
      s.LosesNothing threeWriters none fun _ _ => True := by
  intro hall
  have hreplaces : (runAll (State.step threeWriters) (fun _ _ => True) (State.start 0 none) replacedTwice).map
      (·.replaced) = some [⟨none, some [1]⟩, ⟨none, some [2]⟩] := by decide
  obtain ⟨s, hrun, hreplaced⟩ := Option.map_eq_some_iff.mp hreplaces
  have hlength : s.replaced.length = 2 := by rw [hreplaced]; rfl
  have hwrites : ∀ write ∈ s.replaced, write.expected = none ∧ write.value.isSome = true := by
    rw [hreplaced]
    decide
  obtain ⟨order, hperm, hserial, _⟩ := (hall s (reach_of_runAll hrun)).1
  refine not_serial_of_absent ?_ ?_ hserial
  · rw [hperm.length_eq, hlength]
  · intro write hmem
    exact hwrites write (hperm.mem_iff.mp hmem)

end

end CheckedWrite

end AgentArtifacts
