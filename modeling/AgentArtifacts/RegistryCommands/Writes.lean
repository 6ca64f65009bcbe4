import AgentArtifacts.Maintenance.Workspace
import AgentArtifacts.RegistryCommands.Checkout

/-!
# What a write does to a tree

A write sets one file and makes the directories above it that are not there; a removal
deletes one file. The projection of a change and the applier do the same to the trees that
they see.
-/

namespace AgentArtifacts.RegistryCommands

open Maintenance (setEntry entryAt_setEntry entryAt_singleton)
open Registry (entryAt entryAt_append entryAt_filter entryAt_eq_none mem_of_entryAt entryAt_eq_some)
open Schema (refuse)

/-- A file and the directories above it. -/
def writeEntry (entries : List SnapshotEntry) (entry : SnapshotEntry) : List SnapshotEntry :=
  (properAncestors entry.path).foldl makeDirectory (setEntry entries entry)

section Lookups

variable {entries : List SnapshotEntry} {entry : SnapshotEntry} {path : String}

theorem entryAt_makeDirectory {directory : SafeRelativePath} :
    entryAt (makeDirectory entries directory) path =
      (entryAt entries path).or (if directory.str = path then some (directoryAt directory) else none) := by
  unfold makeDirectory
  split
  · rename_i hfound
    split
    · rename_i hpath
      obtain ⟨known, hknown⟩ := Option.isSome_iff_exists.mp hfound
      rw [← hpath, hknown, Option.some_or]
    · exact Option.or_none.symm
  · rw [entryAt_append, entryAt_singleton]
    simp only [directoryAt, eq_comm (a := path)]

theorem entryAt_makeDirectories {directories : List SafeRelativePath} :
    entryAt (directories.foldl makeDirectory entries) path =
      (entryAt entries path).or ((directories.find? fun directory => directory.str == path).map directoryAt) := by
  induction directories generalizing entries with
  | nil => simp
  | cons directory rest ih =>
      rw [List.foldl_cons, ih, entryAt_makeDirectory, Option.or_assoc, List.find?_cons]
      congr 1
      by_cases hpath : directory.str = path
      · simp [hpath]
      · have hother : (directory.str == path) = false := by simpa using hpath
        rw [if_neg hpath, Option.none_or, hother]

theorem entryAt_writeEntry :
    entryAt (writeEntry entries entry) path =
      if path = entry.path.str then some entry
      else (entryAt entries path).or
        (((properAncestors entry.path).find? fun above => above.str == path).map directoryAt) := by
  unfold writeEntry
  rw [entryAt_makeDirectories, entryAt_setEntry]
  split
  · exact Option.some_or
  · rfl

theorem entryAt_deleteEntry {removed : String} :
    entryAt (deleteEntry entries removed) path = if path = removed then none else entryAt entries path := by
  have hfilter := entryAt_filter (fun other => decide (other ≠ removed)) entries path
  rw [deleteEntry, hfilter]
  by_cases h : path = removed <;> simp [h]

/-- The directories above a path are there, or nothing is. -/
def ClearAbove (entries : List SnapshotEntry) (path : SafeRelativePath) : Prop :=
  ∀ above ∈ properAncestors path, ∀ entry, entryAt entries above.str = some entry → entry.kind = .directory

theorem requireParents_eq_ok {directories : List SafeRelativePath} {next : List SnapshotEntry} :
    directories.foldlM requireParent entries = .ok next ↔
      (∀ directory ∈ directories, ∀ entry, entryAt entries directory.str = some entry → entry.kind = .directory) ∧
        next = directories.foldl makeDirectory entries := by
  induction directories generalizing entries with
  | nil =>
      constructor
      · intro h
        exact ⟨by simp, (Except.ok.inj h).symm⟩
      · rintro ⟨_, rfl⟩
        rfl
  | cons directory rest ih =>
      rw [List.foldlM_cons, List.foldl_cons, List.forall_mem_cons]
      have hstep : requireParent entries directory =
          if (entryAt entries directory.str).all (·.kind == .directory) then .ok (makeDirectory entries directory)
          else commandError ("registry change parent is not a directory: " ++ directory.str) := by
        unfold requireParent makeDirectory
        cases entryAt entries directory.str with
        | none => simp
        | some existing => by_cases hkind : existing.kind = .directory <;> simp [hkind]
      rw [hstep]
      split
      · rename_i hclear
        have hfirst : ∀ entry, entryAt entries directory.str = some entry → entry.kind = .directory := by
          intro entry hentry
          simpa [hentry] using hclear
        show (rest.foldlM requireParent (makeDirectory entries directory)) = .ok next ↔ _
        rw [ih]
        refine and_congr_left fun _ => ?_
        rw [and_iff_right hfirst]
        refine forall₂_congr fun other _ => ?_
        rw [entryAt_makeDirectory]
        constructor
        · intro h entry hentry
          exact h entry (by rw [hentry, Option.some_or])
        · intro h entry hentry
          cases hfound : entryAt entries other.str with
          | some known =>
              rw [hfound, Option.some_or] at hentry
              exact h entry (hfound.trans hentry)
          | none =>
              rw [hfound, Option.none_or] at hentry
              split at hentry
              · obtain rfl := Option.some.inj hentry
                rfl
              · exact absurd hentry (by simp)
      · rename_i hblocked
        constructor
        · intro h
          exact absurd h (by simp [commandError, error, bind, Except.bind])
        · rintro ⟨⟨hfirst, _⟩, _⟩
          refine absurd ?_ hblocked
          cases hfound : entryAt entries directory.str with
          | none => rfl
          | some existing => simp [hfirst existing hfound]

end Lookups

/-! ## One change -/

section Changes

variable [StandardLibrary]

/-- What a change leaves of a tree. -/
def performed (entries : List SnapshotEntry) (change : RegistryWorkspaceChange) : List SnapshotEntry :=
  if change.kind = .removed then deleteEntry entries change.path.str
  else writeEntry entries ⟨change.path, .file, change.content, change.executable⟩

/-- A change fits a tree in which a file with the digest before it stands at its path, or nothing. -/
structure Suits (entries : List SnapshotEntry) (change : RegistryWorkspaceChange) : Prop where
  file : ∀ entry, entryAt entries change.path.str = some entry → entry.kind = .file
  before : (entryAt entries change.path.str).map (fun entry => sha256Bytes entry.content) = change.beforeDigest
  above : change.kind ≠ .removed → ClearAbove (setEntry entries ⟨change.path, .file, change.content, change.executable⟩)
    change.path

theorem projectChange_eq_ok {entries next : List SnapshotEntry} {change : RegistryWorkspaceChange} :
    projectChange entries change = .ok next ↔ Suits entries change ∧ next = performed entries change := by
  have hactual : actualDigest change.path.str (entryAt entries change.path.str) =
      if (entryAt entries change.path.str).all (·.kind == .file) then
        .ok ((entryAt entries change.path.str).map fun entry => sha256Bytes entry.content)
      else commandError ("registry change target is not a regular file: " ++ change.path.str) := by
    unfold actualDigest
    cases entryAt entries change.path.str with
    | none => rfl
    | some before => by_cases hkind : before.kind = .file <;> simp [hkind]
  unfold projectChange
  rw [hactual]
  split
  · rename_i hfile
    have hkinds : ∀ entry, entryAt entries change.path.str = some entry → entry.kind = .file := by
      intro entry hentry
      simpa [hentry] using hfile
    simp only [bind, Except.bind, refuse]
    by_cases hbefore : (entryAt entries change.path.str).map (fun entry => sha256Bytes entry.content) = change.beforeDigest
    · rw [if_neg (by simpa using hbefore)]
      unfold performed
      by_cases hremoved : change.kind = .removed
      · simp only [hremoved, if_true, pure, Except.pure, Except.ok.injEq]
        constructor
        · rintro rfl
          exact ⟨⟨hkinds, hbefore, fun h => absurd hremoved h⟩, rfl⟩
        · rintro ⟨_, rfl⟩
          rfl
      · simp only [hremoved, if_false]
        rw [requireParents_eq_ok]
        constructor
        · rintro ⟨habove, rfl⟩
          exact ⟨⟨hkinds, hbefore, fun _ => habove⟩, rfl⟩
        · rintro ⟨hsuits, rfl⟩
          exact ⟨hsuits.above hremoved, rfl⟩
    · rw [if_pos (by simpa using hbefore)]
      constructor
      · intro h
        exact absurd h (by simp [error])
      · rintro ⟨hsuits, _⟩
        exact absurd hsuits.before hbefore
  · rename_i hblocked
    constructor
    · intro h
      exact absurd h (by simp [commandError, error, bind, Except.bind])
    · rintro ⟨hsuits, _⟩
      refine absurd ?_ hblocked
      cases hfound : entryAt entries change.path.str with
      | none => rfl
      | some existing => simp [hsuits.file existing hfound]

end Changes

end AgentArtifacts.RegistryCommands
