import Mathlib.Algebra.Ring.Nat
import AgentArtifacts.Sources.Lease

/-!
# The source lock

`acquire_source_lock` and `release_source_lock` as steps of any number of
processes. A directory that stands for longer than the stale window is renamed
on the strength of an observation that is not repeated, so the lease excludes
in those runs in which the directory that is taken may still be taken.
-/

namespace AgentArtifacts

open Runs

namespace SourceLock

variable {P : Type}

/-- The loop of `acquire_source_lock`. -/
def acquireRules : AcquireRules where
  reclaimsByAge := true
  cleansUp := true
  syncsParent := true

/-- Where a process is: outside of both functions without or with a lease, in
the loop, or at a call of `release_source_lock`. -/
inductive Phase (P : Type) where
  | idle
  | acquiring (phase : AcquirePhase P)
  | held
  | readOwner
  | renameReleased
  | removeReleased (directory : LockDirectory P)
deriving DecidableEq

structure State (P : Type) where
  world : LockWorld P
  calls : P → Nat
  phase : P → Phase P

def State.start (clock : Nat) : State P where
  world := { clock := clock, lock := none, running := fun _ => true }
  calls _ := 0
  phase _ := .idle

inductive Action (P : Type) where
  | call (p : P) (answer : Answer)
  | stop (p : P)
  | advance (time : Nat)

def Action.actor : Action P → Option P
  | .call p _ => some p
  | .stop p => some p
  | .advance _ => none

def next : AcquireNext P → Phase P
  | .goOn phase => .acquiring phase
  | .acquired => .held
  | .refused => .idle

variable [DecidableEq P]

def State.move (s : State P) (p : P) (world : LockWorld P) (phase : Phase P) : State P :=
  { s with world := world, phase := Function.update s.phase p phase }

/-- The next call of a running process. A failed release leaves the process with its lease. -/
def State.call (requests : LockRequests P) (s : State P) (p : P) (answer : Answer) : State P :=
  let request := requests.request p (s.calls p)
  match s.phase p with
  | .idle =>
      { s.move p s.world (.acquiring .makeDirectory) with calls := Function.update s.calls p (s.calls p + 1) }
  | .acquiring phase =>
      let result := acquireCall acquireRules request p s.world phase answer
      s.move p result.1 (next result.2)
  | .held =>
      -- The lease is released, or its holder drops it.
      s.move p s.world (if answer = .done then .readOwner else .idle)
  | .readOwner =>
      let owner := if answer = .done then s.world.lock.bind fun directory => directory.owner.owner? else none
      s.move p s.world (if owner.map (·.token) = some request.token then .renameReleased else .held)
  | .renameReleased =>
      match if answer = .done then s.world.lock else none with
      | some directory => s.move p (s.world.put none) (.removeReleased directory)
      | none => s.move p s.world .held
  | .removeReleased _ => s.move p s.world .idle

def State.step (requests : LockRequests P) (s : State P) : Action P → Option (State P)
  | .call p answer => if s.world.running p then some (s.call requests p answer) else none
  | .stop p => some { s with world := { s.world with running := Function.update s.world.running p false } }
  | .advance time => some { s with world := { s.world with clock := s.world.clock + time } }

/-- Between the return of `acquire_source_lock` and the release. -/
def State.Holds (s : State P) (p : P) : Prop :=
  s.world.running p = true ∧ (s.phase p = .held ∨ s.phase p = .readOwner ∨ s.phase p = .renameReleased)

/-- The directory an action renames or removes. -/
def State.removed (s : State P) : Action P → Option (LockDirectory P)
  | .call p answer =>
      match s.phase p, answer with
      | .acquiring (.renameStale _), .done => s.world.lock
      | .acquiring .cleanUp, .done => s.world.lock
      | .acquiring (.removeStale directory), _ => some directory
      | .renameReleased, .done => s.world.lock
      | .removeReleased directory, _ => some directory
      | _, _ => none
  | _ => none

/-- At most one running process has the lease, and no other process takes its directory away. -/
def State.Excludes (requests : LockRequests P) (allowed : State P → Action P → Prop) (s : State P) : Prop :=
  (∀ p q, s.Holds p → s.Holds q → p = q) ∧
    ∀ action t directory q, allowed s action → s.step requests action = some t →
      s.removed action = some directory → s.Holds q →
      directory.Carries (requests.request q (s.calls q)).token → action.actor = some q

/-- A stale directory is only renamed while it carries the record that was
judged, or once its maker has stopped; an error only removes a directory of the
process itself or of one that has stopped. -/
def State.Careful (s : State P) : Action P → Prop
  | .call p .done =>
      match s.phase p, s.world.lock with
      | .acquiring phase, some directory => phase.MayTake s.world p directory
      | _, _ => True
  | _ => True

instance (s : State P) (action : Action P) : Decidable (s.Careful action) := by
  unfold State.Careful
  split
  · split <;> infer_instance
  · infer_instance

/-! ## A lease -/

def Phase.station : Phase P → Station P
  | .idle => .outside
  | .acquiring phase => .acquiring phase
  | .held => .holding
  | .readOwner => .holding
  | .renameReleased => .holding
  | .removeReleased directory => .removing directory

def State.lease (s : State P) : LeaseState P where
  world := s.world
  calls := s.calls
  station := Phase.station ∘ s.phase

/-- The step of the lease that an action is, if it is one. -/
def State.label (s : State P) : Action P → Option (LeaseAction P)
  | .call p answer =>
      match s.phase p with
      | .held => if answer = .done then none else some (.leave p)
      | .readOwner => none
      | .renameReleased => (if answer = .done then s.world.lock else none).map fun _ => .rename p
      | _ => some (.call p answer)
  | .stop p => some (.stop p)
  | .advance time => some (.advance time)

variable {requests : LockRequests P} {s t : State P}

omit [DecidableEq P] in
theorem next_station (result : AcquireNext P) : (next result).station = result.station := by
  cases result <;> rfl

omit [DecidableEq P] in
/-- A holder keeps the lease whatever the check of the owner says. -/
theorem Phase.station_checked (c : Prop) [Decidable c] :
    (if c then Phase.renameReleased else Phase.held : Phase P).station = .holding := by
  split <;> rfl

theorem State.lease_move (s : State P) (p : P) (world : LockWorld P) (phase : Phase P) :
    (s.move p world phase).lease = s.lease.move p world phase.station := by
  simp [lease, move, LeaseState.move, Function.comp_update]

theorem State.lease_stay {p : P} {phase : Phase P} (h : phase.station = (s.phase p).station) :
    (s.move p s.world phase).lease = s.lease := by
  rw [lease_move]
  exact s.lease.move_stay h

/-- What an action is at the level of leases. -/
def Follows (requests : LockRequests P) (s t : State P) : Option (LeaseAction P) → Prop
  | none => t.lease = s.lease
  | some label => s.lease.step acquireRules requests label = some t.lease

theorem State.call_follows (p : P) (answer : Answer) (hrunning : s.world.running p = true) :
    Follows requests s (s.call requests p answer) (s.label (.call p answer)) := by
  have hlease : s.lease.world.running p = true := hrunning
  have hstation : s.lease.station p = (s.phase p).station := rfl
  cases hphase : s.phase p with
  | idle =>
      rw [hphase] at hstation
      simp only [label, call, hphase, Follows, LeaseState.step, hlease, if_true, hstation, Phase.station]
      have hmove := s.lease_move p s.world (.acquiring .makeDirectory)
      simp only [lease, LeaseState.move, move, Option.some.injEq, LeaseState.mk.injEq, true_and] at hmove ⊢
      exact hmove.symm
  | acquiring phase =>
      rw [hphase] at hstation
      simp only [label, call, hphase, Follows, LeaseState.step, hlease, if_true, hstation, Phase.station]
      rw [lease_move, next_station]
      rfl
  | held =>
      have hholding : s.lease.station p = .holding := by rw [hstation, hphase]; rfl
      by_cases hanswer : answer = .done
      · simp only [label, call, hphase, hanswer, if_true, Follows]
        exact lease_stay (by rw [hphase]; rfl)
      · simp only [label, call, hphase, hanswer, if_false, Follows, LeaseState.step, hlease, hholding, and_self,
          if_true]
        rw [lease_move]
        rfl
  | readOwner =>
      simp only [label, call, hphase, Follows]
      exact lease_stay ((Phase.station_checked _).trans (by rw [hphase]; rfl))
  | renameReleased =>
      have hholding : s.lease.station p = .holding := by rw [hstation, hphase]; rfl
      simp only [label, call, hphase]
      cases hstanding : if answer = .done then s.world.lock else none with
      | none => exact lease_stay (by rw [hphase]; rfl)
      | some directory =>
          have hlock : s.lease.world.lock = some directory := by
            split at hstanding
            · exact hstanding
            · cases hstanding
          simp only [Option.map_some, Follows, LeaseState.step, hlease, hholding, and_self, if_true, hlock]
          rw [lease_move]
          rfl
  | removeReleased directory =>
      rw [hphase] at hstation
      simp only [label, call, hphase, Follows, LeaseState.step, hlease, if_true, hstation, Phase.station]
      rw [lease_move]
      rfl

theorem State.step_follows {action : Action P} (h : s.step requests action = some t) :
    Follows requests s t (s.label action) := by
  cases action with
  | call p answer =>
      simp only [step] at h
      split at h
      · rename_i hrunning
        cases h
        exact call_follows p answer hrunning
      · cases h
  | stop p =>
      cases h
      rfl
  | advance time =>
      cases h
      rfl

omit [DecidableEq P] in
/-- A careful action is a careful step of the lease. -/
theorem State.careful_label {action : Action P} (h : s.Careful action) {label : LeaseAction P}
    (hlabel : s.label action = some label) : s.lease.Careful label := by
  cases action with
  | call p answer =>
      have hsame : s.Careful (.call p answer) → s.lease.Careful (.call p answer) := by
        intro hcareful
        cases answer with
        | raised => trivial
        | broken => trivial
        | done =>
            simp only [Careful, LeaseState.Careful, lease, Function.comp_apply] at hcareful ⊢
            cases hphase : s.phase p with
            | acquiring phase =>
                rw [hphase] at hcareful
                cases hlock : s.world.lock with
                | none => trivial
                | some directory =>
                    rw [hlock] at hcareful
                    exact hcareful
            | _ => trivial
      simp only [State.label] at hlabel
      split at hlabel
      · split at hlabel
        · cases hlabel
        · cases hlabel
          trivial
      · cases hlabel
      · obtain ⟨directory, _, rfl⟩ := Option.map_eq_some_iff.mp hlabel
        trivial
      · cases hlabel
        exact hsame h
  | stop p =>
      cases hlabel
      trivial
  | advance time =>
      cases hlabel
      trivial

omit [DecidableEq P] in
/-- What an action takes away is what the step of the lease takes away. -/
theorem State.removed_label {action : Action P} {directory : LockDirectory P}
    (h : s.removed action = some directory) :
    ∃ label, s.label action = some label ∧ s.lease.removed label = some directory ∧ label.actor = action.actor := by
  cases action with
  | call p answer =>
      simp only [removed] at h
      split at h
      · rename_i owner hphase
        exact ⟨.call p .done, by simp [label, hphase], by simpa [LeaseState.removed, lease, hphase, Phase.station] using h, rfl⟩
      · rename_i hphase
        exact ⟨.call p .done, by simp [label, hphase], by simpa [LeaseState.removed, lease, hphase, Phase.station] using h, rfl⟩
      · rename_i answer _ _ standing hphase
        exact ⟨.call p answer, by simp only [label, hphase], by simpa [LeaseState.removed, lease, hphase, Phase.station] using h, rfl⟩
      · rename_i hphase
        exact ⟨.rename p, by simp [label, hphase, h], by simpa [LeaseState.removed, lease] using h, rfl⟩
      · rename_i answer _ _ standing hphase
        exact ⟨.call p answer, by simp only [label, hphase], by simpa [LeaseState.removed, lease, hphase, Phase.station] using h, rfl⟩
      · cases h
  | stop p => cases h
  | advance time => cases h

omit [DecidableEq P] in
theorem State.Holds.lease {p : P} (h : s.Holds p) : s.lease.Holds p := by
  obtain ⟨hrunning, hphase⟩ := h
  refine ⟨hrunning, ?_⟩
  rcases hphase with hphase | hphase | hphase <;> simp [State.lease, hphase, Phase.station]

/-- In a run whose steps are all careful, the source lock excludes in every state. -/
theorem sourceLock_excludes {clock : Nat}
    (h : Reach (State.step requests) State.Careful (State.start clock) s) :
    s.Excludes requests State.Careful := by
  have hlease : Reach (LeaseState.step acquireRules requests) LeaseState.Careful (LeaseState.start clock) s.lease := by
    refine h.simulates State.lease ?_
    intro s action t hcareful hstep
    have hfollows := State.step_follows hstep
    cases hlabel : s.label action with
    | none =>
        rw [hlabel] at hfollows
        exact Or.inl hfollows
    | some label =>
        rw [hlabel] at hfollows
        exact Or.inr ⟨label, State.careful_label hcareful hlabel, hfollows⟩
  have hinvariant := LeaseState.invariant_of_reach hlease
  constructor
  · intro p q hp hq
    exact hinvariant.holder_unique hp.lease hq.lease
  · intro action t directory q hcareful hstep hremoved hq hcarries
    obtain ⟨label, hlabel, hleaseRemoved, hactor⟩ := State.removed_label hremoved
    have hfollows := State.step_follows hstep
    rw [hlabel] at hfollows
    rw [← hactor]
    exact hinvariant.removed_token (State.careful_label hcareful hlabel) hfollows hleaseRemoved hq.1 hcarries

/-! ## A reclaim on an old observation -/

/-- Three processes; a token names its process and its call. -/
def threeRequests : LockRequests (Fin 3) where
  request p n :=
    { token := String.ofList (List.replicate p.val 'p' ++ List.replicate n 'c'), staleAfterSeconds := 300 }
  distinct p m q n h := by
    have hchars := String.ofList_injective h
    have hprocess := congrArg (List.count 'p') hchars
    have hcall := congrArg (List.count 'c') hchars
    simp only [List.count_append, List.count_replicate] at hprocess hcall
    exact ⟨Fin.ext (by simpa using hprocess), by simpa using hcall⟩

/-- The calls a process makes when the file system does what it is asked to. -/
def calls (p : Fin 3) (n : Nat) : List (Action (Fin 3)) := List.replicate n (.call p .done)

theorem threeRequesters : NeZero 3 := ⟨by decide⟩

attribute [local instance] threeRequesters

/-- The first process acquires the lock. -/
def acquired : List (Action (Fin 3)) := calls 0 4

/-- It stops; both others find its record stale, and one of them reclaims the lock and has it. -/
def reclaimed : List (Action (Fin 3)) :=
  acquired ++ [.stop 0, .advance 302000000000] ++ calls 1 4 ++ calls 2 4 ++ calls 1 5

/-- The other one renames the directory that it found stale and does the same. -/
def reclaimedTwice : List (Action (Fin 3)) := reclaimed ++ calls 2 5

theorem sourceLock_excludes_reclaimed :
    ∃ s, runAll (State.step threeRequests) State.Careful (State.start 0) reclaimed = some s ∧ s.Holds 1 ∧
      s.Excludes threeRequests State.Careful := by
  obtain ⟨s, hrun, hholds⟩ :
      ∃ s, runAll (State.step threeRequests) State.Careful (State.start 0) reclaimed = some s ∧ s.Holds 1 :=
    ⟨_, rfl, rfl, Or.inl rfl⟩
  exact ⟨s, hrun, hholds, sourceLock_excludes (reach_of_runAll hrun)⟩

theorem sourceLock_not_excludes :
    ¬ ∀ s, Reach (State.step threeRequests) (fun _ _ => True) (State.start 0) s →
      s.Excludes threeRequests fun _ _ => True := by
  intro hall
  obtain ⟨s, hrun, hfirst, hsecond⟩ :
      ∃ s, runAll (State.step threeRequests) (fun _ _ => True) (State.start 0) reclaimedTwice = some s ∧
        s.Holds 1 ∧ s.Holds 2 :=
    ⟨_, rfl, ⟨rfl, Or.inl rfl⟩, ⟨rfl, Or.inl rfl⟩⟩
  exact absurd ((hall s (reach_of_runAll hrun)).1 1 2 hfirst hsecond) (by decide)

end SourceLock

end AgentArtifacts
