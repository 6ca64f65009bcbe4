import AgentArtifacts.Sources.LockDirectory

/-!
# Leases on a lock directory

The part that every user of a lock directory shares: any number of processes,
each outside of the lock, waiting for it, holding it, or removing a directory
that it moved aside. Both locks of the program are systems of this kind. The
lease excludes as long as a process only takes away a directory it has a right
to: its own, the one whose record it judged, or one whose maker has stopped.
-/

namespace AgentArtifacts

open Runs Slot

variable {P : Type}

/-- Where a process stands. -/
inductive Station (P : Type) where
  | outside
  | acquiring (phase : AcquirePhase P)
  | holding
  | removing (directory : LockDirectory P)
deriving DecidableEq

def Station.relies : Station P → Bool
  | .acquiring phase => phase.relies
  | .holding => true
  | _ => false

def AcquireNext.station : AcquireNext P → Station P
  | .goOn phase => .acquiring phase
  | .acquired => .holding
  | .refused => .outside

theorem AcquireNext.relies_station (next : AcquireNext P) : next.station.relies = next.relies := by
  cases next <;> rfl

/-- What each call of each process asks for. No two calls use one token. -/
structure LockRequests (P : Type) where
  request : P → Nat → LockRequest
  distinct : ∀ p m q n, (request p m).token = (request q n).token → p = q ∧ m = n

structure LeaseState (P : Type) where
  world : LockWorld P
  calls : P → Nat
  station : P → Station P

/-- Nobody has asked for the lock yet. -/
def LeaseState.start (clock : Nat) : LeaseState P where
  world := { clock := clock, lock := none, running := fun _ => true }
  calls _ := 0
  station _ := .outside

inductive LeaseAction (P : Type) where
  /-- The next call of a process that does not hold the lock. -/
  | call (p : P) (answer : Answer)
  /-- A holder leaves the directory where it is. -/
  | leave (p : P)
  /-- A holder moves the directory aside. -/
  | rename (p : P)
  /-- A holder removes the directory. -/
  | remove (p : P)
  | stop (p : P)
  | advance (time : Nat)

def LeaseAction.actor : LeaseAction P → Option P
  | .call p _ => some p
  | .leave p => some p
  | .rename p => some p
  | .remove p => some p
  | .stop p => some p
  | .advance _ => none

variable [DecidableEq P]

def LeaseState.move (s : LeaseState P) (p : P) (world : LockWorld P) (station : Station P) : LeaseState P :=
  { s with world := world, station := Function.update s.station p station }

/-- Nothing happens to the lease. -/
theorem LeaseState.move_stay (s : LeaseState P) {p : P} {station : Station P} (h : station = s.station p) :
    s.move p s.world station = s := by
  subst h
  simp [move]

def LeaseState.step (rules : AcquireRules) (requests : LockRequests P) (s : LeaseState P) : LeaseAction P → Option (LeaseState P)
  | .call p answer =>
      if s.world.running p then
        match s.station p with
        | .outside =>
            some { s.move p s.world (.acquiring .makeDirectory) with
                   calls := Function.update s.calls p (s.calls p + 1) }
        | .acquiring phase =>
            let result := acquireCall rules (requests.request p (s.calls p)) p s.world phase answer
            some (s.move p result.1 result.2.station)
        | .holding => none
        | .removing _ => some (s.move p s.world .outside)
      else none
  | .leave p =>
      if s.world.running p = true ∧ s.station p = .holding then some (s.move p s.world .outside) else none
  | .rename p =>
      if s.world.running p = true ∧ s.station p = .holding then
        s.world.lock.map fun directory => s.move p (s.world.put none) (.removing directory)
      else none
  | .remove p =>
      if s.world.running p = true ∧ s.station p = .holding then some (s.move p (s.world.put none) .outside) else none
  | .stop p => some { s with world := { s.world with running := Function.update s.world.running p false } }
  | .advance time => some { s with world := { s.world with clock := s.world.clock + time } }

/-- A process may take the directory away: it still carries the record that was
judged, the process made it itself, or its maker has stopped. -/
def AcquirePhase.MayTake (phase : AcquirePhase P) (world : LockWorld P) (p : P) (directory : LockDirectory P) : Prop :=
  match phase with
  | .renameStale owner => (owner ≠ none ∧ directory.owner.owner? = owner) ∨ world.running directory.maker = false
  | .cleanUp => directory.maker = p ∨ world.running directory.maker = false
  | _ => True

instance (phase : AcquirePhase P) (world : LockWorld P) (p : P) (directory : LockDirectory P) :
    Decidable (phase.MayTake world p directory) := by
  cases phase <;> simp only [AcquirePhase.MayTake] <;> infer_instance

/-- The directory that stands may be taken by a process whose next call takes it. -/
def LeaseState.Careful (s : LeaseState P) : LeaseAction P → Prop
  | .call p .done =>
      match s.station p, s.world.lock with
      | .acquiring phase, some directory => phase.MayTake s.world p directory
      | _, _ => True
  | _ => True

/-- The directory an action renames or removes. -/
def LeaseState.removed (s : LeaseState P) : LeaseAction P → Option (LockDirectory P)
  | .call p answer =>
      match s.station p, answer with
      | .acquiring (.renameStale _), .done => s.world.lock
      | .acquiring .cleanUp, .done => s.world.lock
      | .acquiring (.removeStale directory), _ => some directory
      | .removing directory, _ => some directory
      | _, _ => none
  | .rename _ => s.world.lock
  | .remove _ => s.world.lock
  | _ => none

def LeaseState.Holds (s : LeaseState P) (p : P) : Prop :=
  s.world.running p = true ∧ s.station p = .holding

/-- The record of a directory is its maker's. -/
def LockRequests.Signed (requests : LockRequests P) (directory : LockDirectory P) : Prop :=
  ∀ record, directory.owner = .written record →
    record.pid = directory.maker ∧ ∃ n, record.token = (requests.request directory.maker n).token

def LeaseState.view (s : LeaseState P) : View P where
  maker := s.world.lock.map (·.maker)
  relies p := s.world.running p = true ∧ (s.station p).relies = true

/-- What a process knows: the process of the record it judged has stopped, and
a directory it moved aside is its own or that of a stopped process. -/
def Station.Sound (requests : LockRequests P) (running : P → Bool) (p : P) : Station P → Prop
  | .acquiring (.renameStale (some record)) => running record.pid = false
  | .acquiring (.removeStale directory) => requests.Signed directory ∧ running directory.maker = false
  | .removing directory => requests.Signed directory ∧ directory.maker = p
  | _ => True

structure LeaseState.Invariant (requests : LockRequests P) (s : LeaseState P) : Prop where
  exclusive : s.view.Exclusive
  signed : ∀ directory, s.world.lock = some directory → requests.Signed directory
  sound : ∀ p, (s.station p).Sound requests s.world.running p

section

variable {rules : AcquireRules} {requests : LockRequests P} {s : LeaseState P} {p : P}

omit [DecidableEq P] in
theorem LeaseState.invariant_start (clock : Nat) : (LeaseState.start clock : LeaseState P).Invariant requests := by
  constructor
  · intro p hp
    exact absurd hp.2 (by simp [start, Station.relies])
  · intro directory h
    cases h
  · intro p
    trivial

omit [DecidableEq P] in
/-- Whoever relies on the lock has made the directory that stands. -/
theorem LeaseState.Invariant.standing (h : s.Invariant requests) (hrunning : s.world.running p = true)
    (hrelies : (s.station p).relies = true) : ∃ directory, s.world.lock = some directory ∧ directory.maker = p := by
  have hmaker := h.exclusive p ⟨hrunning, hrelies⟩
  obtain ⟨directory, hlock, hmade⟩ := Option.map_eq_some_iff.mp hmaker
  exact ⟨directory, hlock, hmade⟩

omit [DecidableEq P] in
theorem OwnerFile.eq_written {file : OwnerFile P} {record : OwnerRecord P} (h : file.owner? = some record) :
    file = .written record := by
  cases file with
  | absent => cases h
  | broken => cases h
  | written other => rw [Option.some.inj h]

omit [DecidableEq P] in
/-- A directory that may be renamed as stale was made by a stopped process. -/
theorem LeaseState.Invariant.stopped (h : s.Invariant requests) {owner : Option (OwnerRecord P)}
    {directory : LockDirectory P} (hstation : s.station p = .acquiring (.renameStale owner))
    (hlock : s.world.lock = some directory)
    (hmay : (AcquirePhase.renameStale owner).MayTake s.world p directory) :
    s.world.running directory.maker = false := by
  rcases hmay with ⟨hsome, hsame⟩ | hstopped
  · obtain ⟨record, rfl⟩ := Option.ne_none_iff_exists'.mp hsome
    have howner := (h.signed directory hlock record (OwnerFile.eq_written hsame)).1
    have hjudged := h.sound p
    rw [hstation] at hjudged
    rw [← howner]
    exact hjudged
  · exact hstopped

variable {station : Station P}

omit [DecidableEq P] in
theorem Station.Sound.stop {running running' : P → Bool}
    (h : station.Sound requests running p) (hstop : ∀ q, running q = false → running' q = false) :
    station.Sound requests running' p := by
  unfold Station.Sound at h ⊢
  split at h
  · exact hstop _ h
  · exact ⟨h.1, hstop _ h.2⟩
  · exact h
  · trivial

theorem LeaseState.Invariant.moved (h : s.Invariant requests) (lock : Option (LockDirectory P))
    (hsigned : ∀ directory, lock = some directory → requests.Signed directory)
    (hsound : station.Sound requests s.world.running p) (hmoves : Moves s.view (s.move p (s.world.put lock) station).view) :
    (s.move p (s.world.put lock) station).Invariant requests := by
  constructor
  · exact hmoves.exclusive h.exclusive
  · exact hsigned
  · intro q
    by_cases hq : q = p
    · subst hq
      simpa [move] using hsound
    · simpa [move, hq] using h.sound q

/-- The others rely on the lock as before. -/
theorem LeaseState.relies_move {lock : Option (LockDirectory P)} {q : P}
    (h : (s.move p (s.world.put lock) station).view.relies q) :
    (q = p ∧ s.world.running p = true ∧ station.relies = true) ∨ (q ≠ p ∧ s.view.relies q) := by
  obtain ⟨hq, hrelies⟩ := h
  simp only [move, LockWorld.put_running] at hq hrelies
  by_cases hqp : q = p
  · subst hqp
    rw [Function.update_self] at hrelies
    exact Or.inl ⟨rfl, hq, hrelies⟩
  · rw [Function.update_of_ne hqp] at hrelies
    exact Or.inr ⟨hqp, hq, hrelies⟩

/-- A process that moves on while the lock stays as it is. -/
theorem LeaseState.Invariant.quiet (h : s.Invariant requests)
    (hrelies : station.relies = true → (s.station p).relies = true)
    (hsound : station.Sound requests s.world.running p) : (s.move p s.world station).Invariant requests := by
  apply h.moved s.world.lock h.signed hsound
  refine .kept rfl ?_
  intro q hq
  rcases relies_move hq with ⟨rfl, hrunning, hstation⟩ | ⟨_, hq⟩
  · exact ⟨hrunning, hrelies hstation⟩
  · exact hq

/-- A process takes away the directory that stands, of which nobody else may be the running maker. -/
theorem LeaseState.Invariant.taken (h : s.Invariant requests)
    (hrelies : station.relies = false)
    (hmaker : ∀ directory, s.world.lock = some directory →
      directory.maker = p ∨ s.world.running directory.maker = false)
    (hsound : station.Sound requests s.world.running p) :
    (s.move p (s.world.put none) station).Invariant requests := by
  apply h.moved none (by simp) hsound
  refine .emptied rfl ?_
  intro q hq
  rcases relies_move hq with ⟨_, _, hstation⟩ | ⟨hne, hq⟩
  · rw [hrelies] at hstation
    cases hstation
  · refine ⟨hq, ?_⟩
    intro hstanding
    obtain ⟨directory, hlock, hmade⟩ := Option.map_eq_some_iff.mp hstanding
    rcases hmaker directory hlock with hmine | hstopped
    · exact hne (hmade.symm.trans hmine)
    · rw [hmade, hq.1] at hstopped
      cases hstopped

/-- One call of the loop, if the directory that it takes may be taken. -/
theorem LeaseState.Invariant.acquireCall (h : s.Invariant requests) {phase : AcquirePhase P} {answer : Answer}
    (hrunning : s.world.running p = true) (hstation : s.station p = .acquiring phase)
    (hcareful : s.Careful (.call p answer)) :
    let result := AgentArtifacts.acquireCall rules (requests.request p (s.calls p)) p s.world phase answer
    (s.move p result.1 result.2.station).Invariant requests := by
  intro result
  have heffect := acquireCall_effect rules (requests.request p (s.calls p)) p s.world phase answer
  change AcquireEffect _ _ _ _ _ result at heffect
  cases hresult : result with
  | mk world next =>
    rw [hresult] at heffect
    dsimp only
    cases heffect with
    | quiet hrelies hjudged hremoved =>
        apply h.quiet
        · rw [next.relies_station, hstation]
          exact hrelies
        · cases next with
          | acquired => trivial
          | refused => trivial
          | goOn phase =>
              cases phase with
              | renameStale owner =>
                  cases owner with
                  | none => trivial
                  | some record => exact hjudged record rfl
              | removeStale directory => exact absurd rfl (hremoved directory)
              | _ => trivial
    | made hempty =>
        apply h.moved (some _)
        · intro directory hlock
          cases hlock
          intro record hrecord
          cases hrecord
        · trivial
        · refine .filled p (by simp [view, hempty]) rfl ?_
          intro q hq
          rcases relies_move hq with ⟨hqp, _⟩ | ⟨_, hq⟩
          · exact Or.inl hqp
          · exact Or.inr hq
    | @wrote directory owner _ _ hlock howner hjudged hremoved =>
        obtain ⟨standing, hstanding, hmaker⟩ := h.standing hrunning (by rw [hstation]; rfl)
        cases hlock.symm.trans hstanding
        apply h.moved (some _)
        · intro other hother
          cases hother
          intro record hrecord
          obtain ⟨hpid, htoken⟩ := howner record hrecord
          subst hmaker
          exact ⟨hpid, _, htoken⟩
        · cases next with
          | acquired => trivial
          | refused => trivial
          | goOn phase =>
              cases phase with
              | renameStale owner => exact absurd rfl (hjudged owner)
              | removeStale directory => exact absurd rfl (hremoved directory)
              | _ => trivial
        · refine .kept (by simp [view, move, hlock]) ?_
          intro q hq
          rcases relies_move hq with ⟨rfl, _, _⟩ | ⟨_, hq⟩
          · exact ⟨hrunning, by rw [hstation]; rfl⟩
          · exact hq
    | @renamed owner directory hlock =>
        simp only [Careful, hstation, hlock] at hcareful
        have hstopped := h.stopped hstation hlock hcareful
        apply h.taken rfl
        · intro other hother
          cases hlock.symm.trans hother
          exact Or.inr hstopped
        · exact ⟨h.signed directory hlock, hstopped⟩
    | cleaned =>
        apply h.taken rfl
        · intro directory hlock
          simp only [Careful, hstation, hlock, AcquirePhase.MayTake] at hcareful
          exact hcareful
        · trivial

omit [DecidableEq P] in
/-- What a holder may take is its own. -/
theorem LeaseState.Invariant.own (h : s.Invariant requests) (hrunning : s.world.running p = true)
    (hstation : s.station p = .holding) {directory : LockDirectory P} (hlock : s.world.lock = some directory) :
    directory.maker = p := by
  obtain ⟨standing, hstanding, hmaker⟩ := h.standing hrunning (by rw [hstation]; rfl)
  cases hlock.symm.trans hstanding
  exact hmaker

theorem LeaseState.Invariant.step (h : s.Invariant requests) {action : LeaseAction P} {t : LeaseState P}
    (hcareful : s.Careful action) (hstep : s.step rules requests action = some t) : t.Invariant requests := by
  cases action with
  | call p answer =>
      simp only [LeaseState.step] at hstep
      split at hstep
      · rename_i hrunning
        cases hstation : s.station p with
        | outside =>
            simp only [hstation, Option.some.injEq] at hstep
            subst hstep
            have hmoved : (s.move p s.world (.acquiring .makeDirectory)).Invariant requests :=
              h.quiet (by simp [Station.relies, AcquirePhase.relies]) trivial
            exact ⟨hmoved.exclusive, hmoved.signed, hmoved.sound⟩
        | acquiring phase =>
            simp only [hstation, Option.some.injEq] at hstep
            subst hstep
            exact h.acquireCall hrunning hstation hcareful
        | holding => simp [hstation] at hstep
        | removing directory =>
            simp only [hstation, Option.some.injEq] at hstep
            subst hstep
            exact h.quiet (by simp [Station.relies]) trivial
      · cases hstep
  | leave p =>
      simp only [LeaseState.step] at hstep
      split at hstep
      · cases hstep
        exact h.quiet (by simp [Station.relies]) trivial
      · cases hstep
  | rename p =>
      simp only [LeaseState.step] at hstep
      split at hstep
      · rename_i hholds
        obtain ⟨directory, hlock, rfl⟩ := Option.map_eq_some_iff.mp hstep
        have hmine := h.own hholds.1 hholds.2 hlock
        apply h.taken rfl
        · intro other hother
          exact Or.inl (h.own hholds.1 hholds.2 hother)
        · exact ⟨h.signed directory hlock, hmine⟩
      · cases hstep
  | remove p =>
      simp only [LeaseState.step] at hstep
      split at hstep
      · rename_i hholds
        cases hstep
        apply h.taken rfl
        · intro other hother
          exact Or.inl (h.own hholds.1 hholds.2 hother)
        · trivial
      · cases hstep
  | stop p =>
      cases hstep
      have hstop (q : P) (hq : s.world.running q = false) : Function.update s.world.running p false q = false := by
        by_cases hqp : q = p
        · subst hqp
          simp
        · simpa [hqp] using hq
      constructor
      · intro q hq
        apply h.exclusive q
        refine ⟨?_, hq.2⟩
        by_contra hnot
        have hrunning := hstop q (by simpa using hnot)
        exact absurd hq.1 (by simp only [hrunning]; simp)
      · exact h.signed
      · intro q
        exact (h.sound q).stop hstop
  | advance time =>
      cases hstep
      exact ⟨h.exclusive, h.signed, h.sound⟩

/-- A directory is renamed or removed by its maker, or once its maker has stopped. -/
theorem LeaseState.Invariant.removed (h : s.Invariant requests) {action : LeaseAction P} {t : LeaseState P}
    (hcareful : s.Careful action) (hstep : s.step rules requests action = some t) {directory : LockDirectory P}
    (hremoved : s.removed action = some directory) :
    requests.Signed directory ∧
      (action.actor = some directory.maker ∨ s.world.running directory.maker = false) := by
  cases action with
  | call p answer =>
      simp only [LeaseState.removed] at hremoved
      have hsound := h.sound p
      split at hremoved
      · rename_i owner hstation
        simp only [Careful, hstation, hremoved] at hcareful
        exact ⟨h.signed directory hremoved, Or.inr (h.stopped hstation hremoved hcareful)⟩
      · rename_i hstation
        simp only [Careful, hstation, hremoved, AcquirePhase.MayTake] at hcareful
        refine ⟨h.signed directory hremoved, ?_⟩
        rcases hcareful with hmine | hstopped
        · exact Or.inl (by rw [hmine]; rfl)
        · exact Or.inr hstopped
      · rename_i hstation
        cases hremoved
        rw [hstation] at hsound
        exact ⟨hsound.1, Or.inr hsound.2⟩
      · rename_i hstation
        cases hremoved
        rw [hstation] at hsound
        exact ⟨hsound.1, Or.inl (by rw [hsound.2]; rfl)⟩
      · cases hremoved
  | rename p =>
      simp only [LeaseState.step] at hstep
      split at hstep
      · rename_i hholds
        have hmine := h.own hholds.1 hholds.2 hremoved
        exact ⟨h.signed directory hremoved, Or.inl (by rw [hmine]; rfl)⟩
      · cases hstep
  | remove p =>
      simp only [LeaseState.step] at hstep
      split at hstep
      · rename_i hholds
        have hmine := h.own hholds.1 hholds.2 hremoved
        exact ⟨h.signed directory hremoved, Or.inl (by rw [hmine]; rfl)⟩
      · cases hstep
  | leave p => cases hremoved
  | stop p => cases hremoved
  | advance time => cases hremoved

end

/-! ## Runs -/

theorem LeaseState.invariant_of_reach {rules : AcquireRules} {requests : LockRequests P} {clock : Nat} {s : LeaseState P}
    (h : Reach (LeaseState.step rules requests) LeaseState.Careful (LeaseState.start clock) s) : s.Invariant requests :=
  h.invariant (LeaseState.invariant_start clock) fun _ _ _ hs hcareful hstep => hs.step hcareful hstep

omit [DecidableEq P] in
theorem LeaseState.Invariant.holder_unique {requests : LockRequests P} {s : LeaseState P}
    (h : s.Invariant requests) {p q : P} (hp : s.Holds p) (hq : s.Holds q) : p = q := by
  apply h.exclusive.unique
  · exact ⟨hp.1, by rw [hp.2]; rfl⟩
  · exact ⟨hq.1, by rw [hq.2]; rfl⟩

/-- `owner.json` carries the token. -/
def LockDirectory.Carries (directory : LockDirectory P) (token : String) : Prop :=
  ∃ record, directory.owner = .written record ∧ record.token = token

/-- A directory with the token of a running process is only taken away by that process. -/
theorem LeaseState.Invariant.removed_token {rules : AcquireRules} {requests : LockRequests P} {s t : LeaseState P}
    (h : s.Invariant requests) {action : LeaseAction P} (hcareful : s.Careful action)
    (hstep : s.step rules requests action = some t) {directory : LockDirectory P}
    (hremoved : s.removed action = some directory) {q : P} {n : Nat} (hrunning : s.world.running q = true)
    (hcarries : directory.Carries (requests.request q n).token) : action.actor = some q := by
  obtain ⟨hsigned, hmaker⟩ := h.removed hcareful hstep hremoved
  obtain ⟨record, howner, htoken⟩ := hcarries
  obtain ⟨_, m, hm⟩ := hsigned record howner
  have hq : directory.maker = q := (requests.distinct _ m q n (hm.symm.trans htoken)).1
  rw [hq] at hmaker
  rcases hmaker with hactor | hstopped
  · exact hactor
  · rw [hrunning] at hstopped
    cases hstopped

end AgentArtifacts
