import AgentArtifacts.Library.Runs

/-!
# Lock directories

A lock is a directory: whoever makes it has the lock, and records in its
`owner.json` who that is. The loop that waits for the lock reclaims a directory
whose recorded owner is old and no longer runs. Every call to the file system
is one step, and it may raise.
-/

namespace AgentArtifacts

/-- What a call to the file system does: all of its work, none of it, or a part
of it before it raises. -/
inductive Answer where
  | done
  | raised
  | broken
deriving DecidableEq

/-- A process of type `P` stands for its host name and its process id. -/
structure OwnerRecord (P : Type) where
  acquiredAtEpochSeconds : Nat
  pid : P
  token : String
deriving DecidableEq

inductive OwnerFile (P : Type) where
  | absent
  | broken
  | written (record : OwnerRecord P)
deriving DecidableEq

/-- The lock directory. No program reads `maker`, the process whose `mkdir` made it. -/
structure LockDirectory (P : Type) where
  owner : OwnerFile P
  maker : P
  mtime : Nat
deriving DecidableEq

/-- What all processes share; the clock and the times of files count nanoseconds. -/
structure LockWorld (P : Type) where
  clock : Nat
  lock : Option (LockDirectory P)
  running : P → Bool

/-- One call that asks for the lock. -/
structure LockRequest where
  token : String
  staleAfterSeconds : Nat
deriving DecidableEq

def nanoseconds : Nat := 1000000000

variable {P : Type}

/-- `_owner`: a file that is missing or holds no object gives no record. -/
def OwnerFile.owner? : OwnerFile P → Option (OwnerRecord P)
  | .written record => some record
  | _ => none

inductive WriteAnswer where
  | written
  | existed
  | raised
deriving DecidableEq

/-- `_write_owner` creates the file and never replaces one. -/
def LockDirectory.writeOwner (directory : LockDirectory P) (record : OwnerRecord P) (now : Nat) (answer : Answer) :
    WriteAnswer × LockDirectory P :=
  match directory.owner, answer with
  | _, .raised => (.raised, directory)
  | .absent, .done => (.written, { directory with owner := .written record, mtime := now })
  | .absent, .broken => (.raised, { directory with owner := .broken, mtime := now })
  | _, _ => (.existed, directory)

/-- More than the stale window has passed since `time`. -/
def LockRequest.outlived (request : LockRequest) (now time : Nat) : Bool :=
  decide (time + request.staleAfterSeconds * nanoseconds < now)

/-! ## Waiting for the lock -/

/-- The next call of a process that asks for the lock. -/
inductive AcquirePhase (P : Type) where
  | makeDirectory
  | writeOwner
  | syncDirectories
  | readOwner
  | judge (owner : Option (OwnerRecord P))
  | renameStale (owner : Option (OwnerRecord P))
  | removeStale (directory : LockDirectory P)
  | wait
  | cleanUp
deriving DecidableEq

inductive AcquireNext (P : Type) where
  | goOn (phase : AcquirePhase P)
  | acquired
  | refused
deriving DecidableEq

/-- The points in which the two loops of the program differ. -/
structure AcquireRules where
  /-- A directory without a readable record is stale once it is old. -/
  reclaimsByAge : Bool
  /-- An error removes whatever stands at the path of the lock. -/
  cleansUp : Bool
  /-- The parent directory is synchronized, which may raise. -/
  syncsParent : Bool
deriving DecidableEq

/-- The answer to an error other than that the directory exists. -/
def AcquireRules.failure (rules : AcquireRules) : AcquireNext P :=
  if rules.cleansUp then .goOn .cleanUp else .refused

def LockWorld.put (world : LockWorld P) (lock : Option (LockDirectory P)) : LockWorld P :=
  { world with lock := lock }

@[simp] theorem LockWorld.put_clock (world : LockWorld P) (lock : Option (LockDirectory P)) :
    (world.put lock).clock = world.clock := rfl

@[simp] theorem LockWorld.put_lock (world : LockWorld P) (lock : Option (LockDirectory P)) :
    (world.put lock).lock = lock := rfl

@[simp] theorem LockWorld.put_running (world : LockWorld P) (lock : Option (LockDirectory P)) :
    (world.put lock).running = world.running := rfl

/-- A record is stale when it is old and its process is gone; a directory without
one may be stale by its age. -/
def judgedStale (rules : AcquireRules) (request : LockRequest) (world : LockWorld P) (answer : Answer) :
    Option (OwnerRecord P) → Bool
  | some record =>
      request.outlived world.clock (record.acquiredAtEpochSeconds * nanoseconds) && !world.running record.pid
  | none =>
      rules.reclaimsByAge &&
        match answer, world.lock with
        | .done, some directory => request.outlived world.clock directory.mtime
        | _, _ => false

/-- One call of a process that asks for the lock. -/
def acquireCall (rules : AcquireRules) (request : LockRequest) (p : P) (world : LockWorld P) :
    AcquirePhase P → Answer → LockWorld P × AcquireNext P
  | .makeDirectory, answer =>
      match answer, world.lock with
      | .done, none => (world.put (some ⟨.absent, p, world.clock⟩), .goOn .writeOwner)
      | .done, some _ => (world, .goOn .readOwner)
      | _, _ => (world, rules.failure)
  | .writeOwner, answer =>
      match world.lock with
      | none => (world, rules.failure)
      | some directory =>
          let record := ⟨world.clock / nanoseconds, p, request.token⟩
          match directory.writeOwner record world.clock answer with
          | (.written, directory) => (world.put (some directory), .goOn .syncDirectories)
          | (.existed, directory) => (world.put (some directory), .goOn .readOwner)
          | (.raised, directory) => (world.put (some directory), rules.failure)
  | .syncDirectories, answer =>
      match answer, world.lock with
      | .done, some _ => (world, .acquired)
      | _, _ => (world, rules.failure)
  | .readOwner, answer =>
      match answer with
      | .done => (world, .goOn (.judge (world.lock.bind fun directory => directory.owner.owner?)))
      | _ => (world, .goOn (.judge none))
  | .judge owner, answer =>
      (world, .goOn (if judgedStale rules request world answer owner then .renameStale owner else .wait))
  | .renameStale _, answer =>
      match answer, world.lock with
      | .done, some directory => (world.put none, .goOn (.removeStale directory))
      | _, _ => (world, .goOn .wait)
  | .removeStale _, answer =>
      -- Only the synchronization of the parent raises here; the removal ignores its errors.
      if rules.syncsParent = true ∧ answer ≠ .done then (world, .goOn .wait) else (world, .goOn .makeDirectory)
  | .wait, answer =>
      -- The deadline passes, or the loop begins again.
      match answer with
      | .done => (world, .goOn .makeDirectory)
      | _ => (world, .refused)
  | .cleanUp, answer =>
      match answer with
      | .done => (world.put none, .refused)
      | _ => (world, .refused)

/-! ## What one call does -/

/-- The call relied on the directory it made, or will. -/
def AcquirePhase.relies : AcquirePhase P → Bool
  | .writeOwner => true
  | .syncDirectories => true
  | _ => false

def AcquireNext.relies : AcquireNext P → Bool
  | .goOn phase => phase.relies
  | .acquired => true
  | .refused => false

/-- What a call of the loop does to the lock. -/
inductive AcquireEffect (request : LockRequest) (p : P) (world : LockWorld P) :
    AcquirePhase P → Answer → LockWorld P × AcquireNext P → Prop
  /-- The lock stays as it is. A record is only judged stale when its process is gone. -/
  | quiet {phase : AcquirePhase P} {answer : Answer} {next : AcquireNext P}
      (hrelies : next.relies = true → phase.relies = true)
      (hjudged : ∀ record, next = .goOn (.renameStale (some record)) → world.running record.pid = false)
      (hremoved : ∀ directory, next ≠ .goOn (.removeStale directory)) :
      AcquireEffect request p world phase answer (world, next)
  | made (hempty : world.lock = none) :
      AcquireEffect request p world .makeDirectory .done
        (world.put (some ⟨.absent, p, world.clock⟩), .goOn .writeOwner)
  | wrote {directory : LockDirectory P} {owner : OwnerFile P} {answer : Answer} {next : AcquireNext P}
      (hlock : world.lock = some directory)
      (howner : ∀ record, owner = .written record → record.pid = p ∧ record.token = request.token)
      (hjudged : ∀ record, next ≠ .goOn (.renameStale record))
      (hremoved : ∀ directory, next ≠ .goOn (.removeStale directory)) :
      AcquireEffect request p world .writeOwner answer
        (world.put (some { directory with owner := owner, mtime := world.clock }), next)
  | renamed {owner : Option (OwnerRecord P)} {directory : LockDirectory P} (hlock : world.lock = some directory) :
      AcquireEffect request p world (.renameStale owner) .done (world.put none, .goOn (.removeStale directory))
  | cleaned : AcquireEffect request p world .cleanUp .done (world.put none, .refused)

theorem AcquireRules.failure_cases (rules : AcquireRules) :
    (rules.failure : AcquireNext P) = .goOn .cleanUp ∨ (rules.failure : AcquireNext P) = .refused := by
  unfold AcquireRules.failure
  split
  · exact Or.inl rfl
  · exact Or.inr rfl

/-- An error leaves the lock as it is for now. -/
theorem AcquireEffect.failed (rules : AcquireRules) (request : LockRequest) (p : P) (world : LockWorld P)
    (phase : AcquirePhase P) (answer : Answer) :
    AcquireEffect request p world phase answer (world, rules.failure) := by
  rcases rules.failure_cases (P := P) with h | h <;> rw [h] <;>
    exact .quiet (by simp [AcquireNext.relies, AcquirePhase.relies]) (by simp) (by simp)

theorem LockWorld.put_self {world : LockWorld P} {lock : Option (LockDirectory P)} (h : world.lock = lock) :
    world.put lock = world := by
  subst h
  rfl

theorem judgedStale_stopped {rules : AcquireRules} {request : LockRequest} {world : LockWorld P} {answer : Answer}
    {record : OwnerRecord P} (h : judgedStale rules request world answer (some record) = true) :
    world.running record.pid = false := by
  simp only [judgedStale, Bool.and_eq_true, Bool.not_eq_true'] at h
  exact h.2

theorem acquireCall_writeOwner (rules : AcquireRules) (request : LockRequest) (p : P) {world : LockWorld P}
    {directory : LockDirectory P} (hlock : world.lock = some directory) (answer : Answer) :
    AcquireEffect request p world .writeOwner answer (acquireCall rules request p world .writeOwner answer) := by
  have hkept : AcquireEffect request p world .writeOwner answer
      (world.put (some directory), .goOn .readOwner) := by
    rw [LockWorld.put_self hlock]
    exact .quiet (by simp [AcquirePhase.relies]) (by simp) (by simp)
  have hfailed : AcquireEffect request p world .writeOwner answer (world.put (some directory), rules.failure) := by
    rw [LockWorld.put_self hlock]
    exact .failed rules request p world _ _
  simp only [acquireCall, hlock, LockDirectory.writeOwner]
  cases answer with
  | raised => cases directory.owner <;> exact hfailed
  | done =>
      cases directory.owner with
      | broken => exact hkept
      | written record => exact hkept
      | absent =>
          apply AcquireEffect.wrote hlock
          · rintro record ⟨⟩
            exact ⟨rfl, rfl⟩
          · simp
          · simp
  | broken =>
      cases directory.owner with
      | broken => exact hkept
      | written record => exact hkept
      | absent =>
          rcases rules.failure_cases (P := P) with h | h <;> simp only [h] <;>
            exact AcquireEffect.wrote hlock (by simp) (by simp) (by simp)

theorem acquireCall_effect (rules : AcquireRules) (request : LockRequest) (p : P) (world : LockWorld P)
    (phase : AcquirePhase P) (answer : Answer) :
    AcquireEffect request p world phase answer (acquireCall rules request p world phase answer) := by
  have hquiet {next : AcquirePhase P} (hrelies : next.relies = false)
      (hjudged : ∀ record, next ≠ .renameStale (some record))
      (hremoved : ∀ directory, next ≠ .removeStale directory) :
      AcquireEffect request p world phase answer (world, .goOn next) := by
    apply AcquireEffect.quiet
    · simp [AcquireNext.relies, hrelies]
    · intro record h
      exact absurd (AcquireNext.goOn.inj h) (hjudged record)
    · intro directory h
      exact hremoved directory (AcquireNext.goOn.inj h)
  have hrefused : AcquireEffect request p world phase answer (world, .refused) :=
    .quiet (by simp [AcquireNext.relies]) (by simp) (by simp)
  cases phase with
  | makeDirectory =>
      simp only [acquireCall]
      split
      · rename_i hlock
        exact .made hlock
      · exact hquiet rfl (by simp) (by simp)
      · exact .failed rules request p world _ _
  | writeOwner =>
      cases hlock : world.lock with
      | none =>
          simp only [acquireCall, hlock]
          exact .failed rules request p world _ _
      | some directory => exact acquireCall_writeOwner rules request p hlock answer
  | syncDirectories =>
      simp only [acquireCall]
      split
      · exact .quiet (fun _ => rfl) (by simp) (by simp)
      · exact .failed rules request p world _ _
  | readOwner => cases answer <;> exact hquiet rfl (by simp) (by simp)
  | judge owner =>
      simp only [acquireCall]
      split
      · rename_i hstale
        apply AcquireEffect.quiet (by simp [AcquireNext.relies, AcquirePhase.relies]) _ (by simp)
        intro record hrecord
        cases AcquireNext.goOn.inj hrecord
        exact judgedStale_stopped hstale
      · exact hquiet rfl (by simp) (by simp)
  | renameStale owner =>
      simp only [acquireCall]
      split
      · rename_i hlock
        exact .renamed hlock
      · exact hquiet rfl (by simp) (by simp)
  | removeStale directory =>
      simp only [acquireCall]
      split <;> exact hquiet rfl (by simp) (by simp)
  | wait =>
      cases answer with
      | done => exact hquiet rfl (by simp) (by simp)
      | raised => exact hrefused
      | broken => exact hrefused
  | cleanUp =>
      cases answer with
      | done => exact .cleaned
      | raised => exact hrefused
      | broken => exact hrefused

theorem acquireCall_running (rules : AcquireRules) (request : LockRequest) (p : P) (world : LockWorld P)
    (phase : AcquirePhase P) (answer : Answer) :
    (acquireCall rules request p world phase answer).1.running = world.running := by
  have heffect := acquireCall_effect rules request p world phase answer
  cases hresult : acquireCall rules request p world phase answer with
  | mk world' next =>
      rw [hresult] at heffect
      cases heffect <;> rfl

end AgentArtifacts
