import AgentArtifacts.RegistryCommands.Checkout

/-!
# An applier whose steps fail

The steps of the applier fail for reasons that lie outside the checkout. A backup that fails
changes nothing. A write makes the directories above its file, writes the file aside and
moves it to its place, and it breaks off before, between or after these; so does a removal
before or after the file is gone. What follows is the rollback, whose steps succeed as far
as the state of the checkout lets them.
-/

namespace AgentArtifacts.RegistryCommands

/-! ## Faults -/

/-- A file that was written aside and that could not be removed either. -/
structure Temporary where
  suffix : String
  content : Bytes
  executable : Bool
deriving DecidableEq

/-- Where a step breaks off; a removal has nothing between its two ends. -/
inductive Stop where
  | backup
  | parents (made : Nat)
  | aside (left : Option Temporary)
  | done
deriving DecidableEq

structure StepFault where
  stop : Stop
  diagnostics : List Diagnostic

/-- The failures of a run: of its two readings and of the steps for its changes. -/
structure Faults where
  read : Option (List Diagnostic) := none
  step : RegistryWorkspaceChange → Option StepFault := fun _ => none
  reread : Option (List Diagnostic) := none

/-- `tempfile.mkstemp` with the prefix of `_write`, in the directory of the file. -/
def Temporary.entry (temporary : Temporary) (path : SafeRelativePath) : SnapshotEntry :=
  ⟨⟨path.parts.dropLast ++ ["." ++ lastName path ++ ".aart-registry-" ++ temporary.suffix]⟩, .file,
    temporary.content, temporary.executable⟩

/-- What a broken write leaves, short of the file itself. -/
def Checkout.asideWritten (checkout : Checkout) (path : SafeRelativePath) (made : Nat) (left : Option Temporary) :
    Checkout :=
  { checkout with
    entries := ((properAncestors path).take made).foldl makeDirectory checkout.entries ++
      (left.map fun temporary => temporary.entry path).toList }

/-- What a run leaves, and whether its rollback failed itself. -/
structure Ended (α : Type) where
  result : Result α
  left : Checkout
  stuck : Bool

/-- `abandon`, with the word whether the rollback went through. -/
def Checkout.abandonWith {α : Type} (checkout : Checkout) (backups : List Backup) (preserved : List String)
    (failure : List Diagnostic) : Ended α :=
  match checkout.rollback backups preserved with
  | (.ok (), restored) => ⟨.error failure, restored, false⟩
  | (.error diagnostics, restored) => ⟨.error diagnostics, restored, true⟩

/-! ## Applying -/

section Applying

variable [StandardLibrary]

def Checkout.broken (checkout : Checkout) (change : RegistryWorkspaceChange) : Stop → Checkout
  | .backup => checkout
  | .parents made => if change.kind = .removed then checkout else checkout.asideWritten change.path made none
  | .aside left =>
      if change.kind = .removed then checkout
      else checkout.asideWritten change.path (properAncestors change.path).length left
  | .done =>
      match checkout.perform change with
      | .error _ => checkout
      | .ok next => next

def Checkout.backupWith (checkout : Checkout) (path : SafeRelativePath) : Option StepFault → Result Backup
  | some ⟨.backup, diagnostics⟩ => .error diagnostics
  | _ => checkout.backup path

def Checkout.performWith (checkout : Checkout) (change : RegistryWorkspaceChange) : Option StepFault → Result Unit × Checkout
  | some fault => (.error fault.diagnostics, checkout.broken change fault.stop)
  | none =>
      match checkout.perform change with
      | .error diagnostics => (.error diagnostics, checkout)
      | .ok next => (.ok (), next)

def Checkout.snapshotWith (checkout : Checkout) : Option (List Diagnostic) → Result SourceSnapshot
  | some diagnostics => .error diagnostics
  | none => checkout.snapshot

/-- The loop over the changes. -/
def Checkout.applyChangesWith (faults : Faults) (preserved : List String) :
    Checkout → List Backup → List RegistryWorkspaceChange → Ended (List Backup)
  | checkout, backups, [] => ⟨.ok backups, checkout, false⟩
  | checkout, backups, change :: rest =>
      if change.kind = .unchanged then applyChangesWith faults preserved checkout backups rest
      else
        match checkout.backupWith change.path (faults.step change) with
        | .error diagnostics => checkout.abandonWith backups preserved diagnostics
        | .ok backup =>
            if backup.stale change then
              checkout.abandonWith backups preserved
                [⟨registryWorkspaceStale, "registry mutation target changed after review: " ++ change.path.str⟩]
            else
              match checkout.performWith change (faults.step change) with
              | (.error diagnostics, reached) => reached.abandonWith (backups ++ [backup]) preserved diagnostics
              | (.ok (), next) => applyChangesWith faults preserved next (backups ++ [backup]) rest

/-- The directories of a snapshot. -/
def preservedDirectories (current : SourceSnapshot) : List String :=
  (current.entries.filter fun entry => entry.kind == .directory).map (·.path.str)

/-- `_apply_locked`, with what fails on the way. -/
def Checkout.applyLockedWith (checkout : Checkout) (faults : Faults) (plan : RegistryWorkspacePlan) :
    Ended RegistryApplyReceipt :=
  match checkout.snapshotWith faults.read with
  | .error diagnostics => ⟨.error diagnostics, checkout, false⟩
  | .ok current =>
      match projectRegistryWorkspacePlan current plan with
      | .error _ => ⟨error registryWorkspaceStale "registry workspace changed after review", checkout, false⟩
      | .ok projected =>
          match checkout.applyChangesWith faults (preservedDirectories current) [] plan.changes with
          | ⟨.error diagnostics, left, stuck⟩ => ⟨.error diagnostics, left, stuck⟩
          | ⟨.ok backups, left, _⟩ =>
              match left.snapshotWith faults.reread with
              | .error diagnostics => left.abandonWith backups (preservedDirectories current) diagnostics
              | .ok verified =>
                  if verified ≠ projected then
                    left.abandonWith backups (preservedDirectories current)
                      [⟨registryWorkspaceApplyFailed, "registry apply verification failed"⟩]
                  else ⟨.ok ⟨plan.reviewDigest, plan.nextSnapshotDigest, plan.changedPaths⟩, left, false⟩

/-! ## Runs without a fault -/

/-- What a run returns and what it leaves. -/
def Ended.outcome {α : Type} (ended : Ended α) : Result α × Checkout := (ended.result, ended.left)

variable {checkout : Checkout}

omit [StandardLibrary] in
theorem abandonWith_outcome {α : Type} {backups : List Backup} {preserved : List String} {failure : List Diagnostic} :
    (checkout.abandonWith backups preserved failure : Ended α).outcome = checkout.abandon backups preserved failure := by
  unfold Checkout.abandonWith Checkout.abandon
  generalize checkout.rollback backups preserved = rolled
  obtain ⟨result, restored⟩ := rolled
  cases result with
  | error diagnostics => rfl
  | ok done => rfl

/-- By induction over the changes, a loop in which nothing fails is the loop of the applier. -/
theorem applyChangesWith_faultless {preserved : List String} {changes : List RegistryWorkspaceChange}
    {backups : List Backup} :
    (checkout.applyChangesWith {} preserved backups changes).outcome = checkout.applyChanges preserved backups changes := by
  induction changes generalizing checkout backups with
  | nil => rfl
  | cons change rest ih =>
      unfold Checkout.applyChangesWith Checkout.applyChanges
      split
      · exact ih
      · show Ended.outcome (match checkout.backup change.path with | .error _ => _ | .ok _ => _) = _
        cases checkout.backup change.path with
        | error diagnostics => exact abandonWith_outcome
        | ok backup =>
            dsimp only
            split
            · exact abandonWith_outcome
            · unfold Checkout.performWith
              dsimp only
              cases checkout.perform change with
              | error diagnostics => exact abandonWith_outcome
              | ok next => exact ih

/-- A run in which nothing fails from outside is a run of the applier. -/
theorem applyLockedWith_faultless {plan : RegistryWorkspacePlan} :
    (checkout.applyLockedWith {} plan).outcome = checkout.applyLocked plan := by
  unfold Checkout.applyLockedWith Checkout.applyLocked
  show Ended.outcome (match checkout.snapshot with | .error _ => _ | .ok _ => _) = _
  cases checkout.snapshot with
  | error diagnostics => rfl
  | ok current =>
      dsimp only
      cases projectRegistryWorkspacePlan current plan with
      | error diagnostics => rfl
      | ok projected =>
          dsimp only
          have hchanges : (checkout.applyChangesWith {} (preservedDirectories current) [] plan.changes).outcome =
              checkout.applyChanges (preservedDirectories current) [] plan.changes := applyChangesWith_faultless
          unfold preservedDirectories at hchanges ⊢
          rw [← hchanges]
          generalize checkout.applyChangesWith {} _ [] plan.changes = ended
          obtain ⟨result, left, stuck⟩ := ended
          cases result with
          | error diagnostics => rfl
          | ok backups =>
              show Ended.outcome (match left.snapshot with | .error _ => _ | .ok _ => _) =
                match left.snapshot with | .error _ => _ | .ok _ => _
              cases left.snapshot with
              | error diagnostics => exact abandonWith_outcome
              | ok verified =>
                  dsimp only
                  split
                  · exact abandonWith_outcome
                  · rfl

end Applying

end AgentArtifacts.RegistryCommands
