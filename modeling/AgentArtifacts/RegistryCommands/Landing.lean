import AgentArtifacts.RegistryCommands.Separate
import AgentArtifacts.Protocol.Rereading

/-!
# The changes that an applier makes

A change lands in a checkout when a plain file stands at its path as the plan saw it, with
the mode that the change asks for, or nothing does, and when the directories above it are
real. The applier returns without a failure when every change lands that is not unchanged.
-/

namespace AgentArtifacts.RegistryCommands

open Maintenance (setEntry)
open Registry (entryAt)
open Schema (refuse refuse_eq_ok)

section Landing

variable [StandardLibrary] {checkout next left : Checkout} {change : RegistryWorkspaceChange}

/-- What a checkout has to be for one change. -/
structure Lands (checkout : Checkout) (change : RegistryWorkspaceChange) : Prop where
  file : ∀ entry, entryAt checkout.entries change.path.str = some entry →
    entry.kind = .file ∧ entry.content.length ≤ maxFileBytes ∧ entry.executable = change.executable
  before : (entryAt checkout.entries change.path.str).map (fun entry => sha256Bytes entry.content) = change.beforeDigest
  above : ClearAbove checkout.entries change.path

def Checkout.after (checkout : Checkout) (change : RegistryWorkspaceChange) : Checkout :=
  { checkout with entries := performed checkout.entries change }

/-- One step of the applier, without the rollback. -/
def Checkout.applyChange (checkout : Checkout) (change : RegistryWorkspaceChange) : Result Checkout := do
  let backup ← checkout.backup change.path
  refuse (backup.stale change) registryWorkspaceStale
    ("registry mutation target changed after review: " ++ change.path.str)
  checkout.perform change

omit [StandardLibrary] in
theorem safePath_eq_ok {path : SafeRelativePath} {done : Unit} :
    checkout.safePath path = .ok done ↔ ClearAbove checkout.entries path := by
  unfold Checkout.safePath
  rw [refuse_eq_ok]
  simp only [List.any_eq_false, Option.any_eq_true, bne_iff_ne, ne_eq, not_exists, not_and, not_not]
  rfl

omit [StandardLibrary] in
theorem backup_eq_ok {path : SafeRelativePath} {backup : Backup} :
    checkout.backup path = .ok backup ↔ ClearAbove checkout.entries path ∧
      (∀ entry, entryAt checkout.entries path.str = some entry →
        entry.kind = .file ∧ entry.content.length ≤ maxFileBytes) ∧
      backup = ⟨path, (entryAt checkout.entries path.str).map (·.content),
        (entryAt checkout.entries path.str).any (·.executable)⟩ := by
  unfold Checkout.backup
  constructor
  · intro h
    obtain ⟨_, hsafe, h⟩ := Result.of_bind_ok h
    refine ⟨safePath_eq_ok.mp hsafe, ?_⟩
    cases hfound : entryAt checkout.entries path.str with
    | none =>
        rw [hfound] at h
        exact ⟨by simp, (Except.ok.inj h).symm⟩
    | some entry =>
        rw [hfound] at h
        obtain ⟨_, hkind, h⟩ := Result.of_bind_ok h
        obtain ⟨_, hsize, h⟩ := Result.of_bind_ok h
        have hfile : entry.kind = .file := by simpa using refuse_eq_ok.mp hkind
        have hlength : entry.content.length ≤ maxFileBytes := by simpa using refuse_eq_ok.mp hsize
        refine ⟨?_, (Except.ok.inj h).symm⟩
        rintro other heq
        obtain rfl := Option.some.inj heq
        exact ⟨hfile, hlength⟩
  · rintro ⟨hclear, hfile, rfl⟩
    have hsafe : checkout.safePath path = .ok () := safePath_eq_ok.mpr hclear
    rw [hsafe]
    cases hfound : entryAt checkout.entries path.str with
    | none => rfl
    | some entry =>
        obtain ⟨hkind, hlength⟩ := hfile entry hfound
        simp only [bind, Except.bind, refuse, hkind, bne_self_eq_false, Bool.false_eq_true, if_false,
          decide_eq_true_eq, if_neg (Nat.not_lt.mpr hlength)]
        rfl

omit [StandardLibrary] in
theorem perform_eq_ok (habove : ClearAbove checkout.entries change.path)
    (hfile : ∀ entry, entryAt checkout.entries change.path.str = some entry → entry.kind = .file) :
    checkout.perform change = .ok (checkout.after change) := by
  have hsafe : checkout.safePath change.path = .ok () := safePath_eq_ok.mpr habove
  have hdirectory : (entryAt checkout.entries change.path.str).any (·.kind == .directory) = false := by
    cases hfound : entryAt checkout.entries change.path.str with
    | none => rfl
    | some entry => simp [hfile entry hfound]
  unfold Checkout.perform Checkout.remove Checkout.unlink Checkout.write Checkout.after performed
  split
  · simp only [hsafe, hdirectory, refuse, bind, Except.bind, Bool.false_eq_true, if_false]
    rfl
  · simp only [hsafe, hdirectory, refuse, bind, Except.bind, Bool.false_eq_true, if_false]
    rfl

theorem applyChange_eq_ok :
    checkout.applyChange change = .ok next ↔ Lands checkout change ∧ next = checkout.after change := by
  have hstale {entry : Option SnapshotEntry} :
      Backup.stale ⟨change.path, entry.map (·.content), entry.any (·.executable)⟩ change = false ↔
        entry.map (fun known => sha256Bytes known.content) = change.beforeDigest ∧
          ∀ known, entry = some known → known.executable = change.executable := by
    unfold Backup.stale
    cases entry with
    | none => simp
    | some known => simp
  unfold Checkout.applyChange
  constructor
  · intro h
    obtain ⟨backup, hbackup, h⟩ := Result.of_bind_ok h
    obtain ⟨habove, hfile, rfl⟩ := backup_eq_ok.mp hbackup
    obtain ⟨_, hfresh, h⟩ := Result.of_bind_ok h
    obtain ⟨hbefore, hmode⟩ := hstale.mp (refuse_eq_ok.mp hfresh)
    rw [perform_eq_ok habove fun entry hentry => (hfile entry hentry).1] at h
    refine ⟨⟨fun entry hentry => ?_, hbefore, habove⟩, (Except.ok.inj h).symm⟩
    exact ⟨(hfile entry hentry).1, (hfile entry hentry).2, hmode entry hentry⟩
  · rintro ⟨hlands, rfl⟩
    have hbackup := backup_eq_ok.mpr ⟨hlands.above, fun entry hentry =>
      ⟨(hlands.file entry hentry).1, (hlands.file entry hentry).2.1⟩, rfl⟩
    have hfresh := hstale.mpr ⟨hlands.before, fun entry hentry => (hlands.file entry hentry).2.2⟩
    rw [hbackup]
    simp only [bind, Except.bind, refuse, hfresh, Bool.false_eq_true, if_false]
    exact perform_eq_ok hlands.above fun entry hentry => (hlands.file entry hentry).1

theorem Separate.lands_after {other : RegistryWorkspaceChange} (h : Separate change other) :
    Lands (checkout.after change) other ↔ Lands checkout other := by
  have hentry : entryAt (checkout.after change).entries other.path.str = entryAt checkout.entries other.path.str :=
    h.entryAt_performed
  have habove : ClearAbove (checkout.after change).entries other.path ↔ ClearAbove checkout.entries other.path :=
    h.clearAbove_performed
  constructor
  · intro hlands
    exact ⟨by rw [← hentry]; exact hlands.file, by rw [← hentry]; exact hlands.before, habove.mp hlands.above⟩
  · intro hlands
    exact ⟨by rw [hentry]; exact hlands.file, by rw [hentry]; exact hlands.before, habove.mpr hlands.above⟩

theorem guarded_applyChange : Independence.Guarded Checkout.applyChange Lands Checkout.after Separate where
  ok _ _ _ := applyChange_eq_ok
  keeps _ _ _ h := h.lands_after
  symm _ _ h := h.symm

/-! ## All changes -/

/-- The changes that are made. -/
def made (changes : List RegistryWorkspaceChange) : List RegistryWorkspaceChange :=
  changes.filter fun change => change.kind ≠ .unchanged

omit [StandardLibrary] in
/-- The failure of a step ends the run with an error, whatever the rollback does. -/
theorem abandon_fst {α : Type} {backups : List Backup} {preserved : List String} {failure : List Diagnostic} {a : α} :
    (checkout.abandon backups preserved failure : Result α × Checkout).1 ≠ .ok a := by
  unfold Checkout.abandon
  split <;> simp

/-- By induction over the changes, the applier goes through exactly when its steps do. -/
theorem applyChanges_eq_ok {preserved : List String} {changes : List RegistryWorkspaceChange} {backups : List Backup} :
    (∃ found, checkout.applyChanges preserved backups changes = (.ok found, left)) ↔
      (made changes).foldlM Checkout.applyChange checkout = .ok left := by
  induction changes generalizing checkout backups with
  | nil =>
      unfold Checkout.applyChanges
      constructor
      · rintro ⟨_, h⟩
        obtain ⟨_, rfl⟩ := Prod.mk.inj h
        rfl
      · intro h
        obtain rfl : checkout = left := Except.ok.inj h
        exact ⟨_, rfl⟩
  | cons change rest ih =>
      unfold Checkout.applyChanges
      by_cases hkind : change.kind = .unchanged
      · rw [if_pos hkind, ih, made, made, List.filter_cons_of_neg (by simp [hkind])]
      · rw [if_neg hkind, made, List.filter_cons_of_pos (by simp [hkind]), List.foldlM_cons]
        unfold Checkout.applyChange
        cases hbackup : checkout.backup change.path with
        | error diagnostics =>
            dsimp only
            refine iff_of_false ?_ (by simp [bind, Except.bind])
            rintro ⟨found, h⟩
            exact abandon_fst (congrArg Prod.fst h)
        | ok backup =>
            dsimp only
            by_cases hstale : backup.stale change = true
            · rw [if_pos hstale]
              refine iff_of_false ?_ (by simp [bind, Except.bind, refuse, hstale, error])
              rintro ⟨found, h⟩
              exact abandon_fst (congrArg Prod.fst h)
            · rw [if_neg hstale]
              have hfresh : backup.stale change = false := by simpa using hstale
              cases hperform : checkout.perform change with
              | error diagnostics =>
                  dsimp only
                  refine iff_of_false ?_ (by simp [bind, Except.bind, refuse, hfresh])
                  rintro ⟨found, h⟩
                  exact abandon_fst (congrArg Prod.fst h)
              | ok next =>
                  dsimp only
                  rw [ih]
                  simp only [bind, Except.bind, refuse, hfresh, Bool.false_eq_true, if_false]
                  rfl

omit [StandardLibrary] in
theorem foldl_after (changes : List RegistryWorkspaceChange) :
    changes.foldl Checkout.after checkout = { checkout with entries := changes.foldl performed checkout.entries } := by
  induction changes generalizing checkout with
  | nil => rfl
  | cons change rest ih => rw [List.foldl_cons, ih, List.foldl_cons]; rfl

/-- Separate changes are made when each of them lands at the start. -/
theorem applyChanges_iff {preserved : List String} {changes : List RegistryWorkspaceChange} {backups : List Backup}
    (hseparate : (made changes).Pairwise Separate) :
    (∃ found, checkout.applyChanges preserved backups changes = (.ok found, left)) ↔
      (∀ change ∈ made changes, Lands checkout change) ∧
        left = { checkout with entries := (made changes).foldl performed checkout.entries } := by
  rw [applyChanges_eq_ok, guarded_applyChange.foldlM_eq_ok hseparate, foldl_after]

/-- What an applier leaves that returns a receipt. -/
theorem applyLocked_iff {plan : RegistryWorkspacePlan} {current projected : SourceSnapshot}
    (hread : checkout.snapshot = .ok current) (hproject : projectRegistryWorkspacePlan current plan = .ok projected)
    (hseparate : (made plan.changes).Pairwise Separate) :
    (∃ receipt, checkout.applyLocked plan = (.ok receipt, left)) ↔
      (∀ change ∈ made plan.changes, Lands checkout change) ∧
        left = { checkout with entries := (made plan.changes).foldl performed checkout.entries } ∧
        left.snapshot = .ok projected := by
  unfold Checkout.applyLocked
  rw [hread]
  dsimp only
  rw [hproject]
  dsimp only
  generalize (current.entries.filter fun entry => entry.kind == .directory).map (·.path.str) = preserved
  constructor
  · rintro ⟨receipt, h⟩
    cases happlied : checkout.applyChanges preserved [] plan.changes with
    | mk result reached =>
        rw [happlied] at h
        cases result with
        | error diagnostics => exact absurd (congrArg Prod.fst h) (by simp)
        | ok backups =>
            dsimp only at h
            cases hreached : reached.snapshot with
            | error diagnostics =>
                rw [hreached] at h
                exact absurd (congrArg Prod.fst h) abandon_fst
            | ok verified =>
                rw [hreached] at h
                dsimp only at h
                split at h
                · exact absurd (congrArg Prod.fst h) abandon_fst
                · rename_i hverified
                  obtain ⟨_, rfl⟩ := Prod.mk.inj h
                  obtain ⟨hlands, hleft⟩ := (applyChanges_iff hseparate).mp ⟨backups, happlied⟩
                  exact ⟨hlands, hleft, by rw [hreached, not_not.mp hverified]⟩
  · rintro ⟨hlands, hleft, hsnapshot⟩
    obtain ⟨backups, happlied⟩ : ∃ backups, checkout.applyChanges preserved [] plan.changes = (.ok backups, left) :=
      (applyChanges_iff hseparate).mpr ⟨hlands, hleft⟩
    rw [happlied]
    dsimp only
    rw [hsnapshot]
    exact ⟨_, if_neg (not_not.mpr rfl)⟩

end Landing

end AgentArtifacts.RegistryCommands
