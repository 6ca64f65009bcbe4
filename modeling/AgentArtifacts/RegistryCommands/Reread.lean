import AgentArtifacts.RegistryCommands.Reading
import AgentArtifacts.RegistryCommands.Trees

/-!
# What is read after the changes

A walk finds a managed file and the directories above it unless one of them is named `.git`.
Where that holds of every change, the checkout that the applier leaves is read as the
changes of the snapshot that was read before.
-/

namespace AgentArtifacts.RegistryCommands

open Registry (entryAt mem_of_entryAt)

section Visible

/-- No directory above a path is one that a walk leaves out. -/
def Visible (path : SafeRelativePath) : Prop := ∀ above ∈ properAncestors path, lastName above ≠ ".git"

variable [StandardLibrary] {path : SafeRelativePath}

omit [StandardLibrary] in
theorem managed_of_parts {text : String} (h : (splitChar '/' text).headD "" ∈ managedRoots) : managed text = true := by
  unfold managed
  simp only [Bool.or_eq_true, List.contains_iff_mem]
  exact Or.inr h

/-- A managed path and the directories above it are managed for the walk. -/
theorem managed_of_managedPath (hcanonical : Canonical path) (h : managedPath path = true) :
    managed path.str = true ∧ ∀ above ∈ properAncestors path, managed above.str = true := by
  have hparts : splitChar '/' path.str = path.parts := congrArg SafeRelativePath.parts (pathOf_str hcanonical)
  have hfiles : ∀ text ∈ managedFiles, managed text = true ∧
      ∀ above ∈ properAncestors (pathOf text), managed above.str = true := by decide
  unfold managedPath at h
  rw [Bool.or_eq_true, List.contains_iff_mem, List.contains_iff_mem] at h
  rcases h with h | h
  · rw [← pathOf_str hcanonical]
    have hboth := hfiles path.str h
    exact ⟨by rw [str_pathOf]; exact hboth.1, hboth.2⟩
  · refine ⟨managed_of_parts (by rw [hparts]; exact h), fun above habove => managed_of_parts ?_⟩
    have hform : splitChar '/' above.str = above.parts :=
      (congrArg SafeRelativePath.parts (ancestor_of_text hcanonical habove)).symm
    rw [hform]
    clear hform
    obtain ⟨n, hpos, hn, rfl⟩ := mem_properAncestors.mp habove
    obtain ⟨first, rest, hform⟩ : ∃ first rest, path.parts = first :: rest :=
      List.exists_cons_of_ne_nil fun hnil => by rw [hnil] at hn; exact absurd hn (by simp)
    obtain ⟨m, rfl⟩ : ∃ m, n = m + 1 := ⟨n - 1, by omega⟩
    rw [hform] at h
    show (path.parts.take (m + 1)).headD "" ∈ managedRoots
    rw [hform, List.take_succ_cons]
    exact h

omit [StandardLibrary] in
theorem not_git_of_managed {text : String} (h : managed text = true) : startsWith ".git/" text = false := by
  rw [Bool.eq_false_iff]
  intro hgit
  obtain ⟨rest, rfl⟩ := startsWith_iff.mp hgit
  have hjoin : slashJoin [".git"] ++ "/" = ".git/" := by decide
  have hhead : splitChar '/' (".git/" ++ rest) = [".git"] ++ splitChar '/' rest := by
    rw [← hjoin]
    exact splitChar_below (by decide) (by decide) rest
  have hnamed : ∀ text ∈ rootFiles ++ githubDirectories ++ githubFiles, startsWith ".git/" text = false := by decide
  unfold managed at h
  rw [hhead] at h
  simp only [Bool.or_eq_true, List.contains_iff_mem] at h
  rcases h with h | h
  · have hmem : ".git/" ++ rest ∈ rootFiles ++ githubDirectories ++ githubFiles := by simpa [or_assoc] using h
    rw [hnamed _ hmem] at hgit
    exact absurd hgit (by simp)
  · exact absurd h (by decide : ".git" ∉ managedRoots)

omit [StandardLibrary] in
/-- What stands where the walk goes is listed. -/
theorem listed_of_managed {checkout : Checkout} {entry : SnapshotEntry} (hentered : entered entry.path = true)
    (hmanaged : managed entry.path.str = true) (hname : checkout.amongDirectories entry = true → lastName entry.path ≠ ".git") :
    checkout.listed entry = true := by
  unfold Checkout.listed
  rw [hentered, Bool.true_and]
  split
  · rename_i hamong
    simp [hmanaged, hname hamong]
  · simp [hmanaged, not_git_of_managed hmanaged]

theorem entered_of_visible (hcanonical : Canonical path) (hmanaged : managedPath path = true) (hvisible : Visible path) :
    entered path = true := by
  unfold entered
  rw [List.all_eq_true]
  intro above habove
  simp [hvisible above habove, (managed_of_managedPath hcanonical hmanaged).2 above habove]

omit [StandardLibrary] in
theorem visible_of_entered (h : entered path = true) : Visible path := by
  unfold entered at h
  rw [List.all_eq_true] at h
  intro above habove
  simpa using (Bool.and_eq_true_iff.mp (h above habove)).1

/-- The walk lists whatever stands above a visible path. -/
theorem listed_above {checkout : Checkout} {entry : SnapshotEntry} (hcanonical : Canonical path)
    (hmanaged : managedPath path = true) (hvisible : Visible path) (habove : entry.path ∈ properAncestors path) :
    checkout.listed entry = true := by
  refine listed_of_managed ?_ ((managed_of_managedPath hcanonical hmanaged).2 _ habove) fun _ => hvisible _ habove
  unfold entered
  rw [List.all_eq_true]
  intro higher hhigher
  have hmem := properAncestors_trans habove hhigher
  simp [hvisible higher hmem, (managed_of_managedPath hcanonical hmanaged).2 higher hmem]

end Visible

/-! ## The snapshot afterwards -/

section Afterwards

variable [StandardLibrary] {checkout : Checkout} {snapshot : SourceSnapshot} {changes : List RegistryWorkspaceChange}

/-- Changes that suit what was read of a checkout. -/
structure Reviewed (checkout : Checkout) (snapshot : SourceSnapshot) (changes : List RegistryWorkspaceChange) : Prop where
  sound : checkout.Sound
  read : checkout.snapshot = .ok snapshot
  named : ∀ change ∈ changes, Canonical change.path
  managed : ∀ change ∈ changes, managedPath change.path = true
  separate : changes.Pairwise Separate
  suits : ∀ change ∈ changes, Suits snapshot.entries change
  same : ∀ change ∈ changes, change.kind = .unchanged →
    entryAt snapshot.entries change.path.str = some change.entry

omit [StandardLibrary] in
theorem mem_made {change : RegistryWorkspaceChange} : change ∈ made changes ↔ change ∈ changes ∧ change.kind ≠ .unchanged := by
  simp [made]

theorem Reviewed.entryAt_of_snapshot (h : Reviewed checkout snapshot changes) {path : String} {entry : SnapshotEntry}
    (hentry : entryAt snapshot.entries path = some entry) : entryAt checkout.entries path = some entry := by
  rw [h.sound.entryAt_snapshot h.read] at hentry
  exact (Option.filter_eq_some_iff.mp hentry).1

/-- What is written and the directories that are made for it are found by the walk. -/
theorem Reviewed.listed_written (h : Reviewed checkout snapshot changes) {change : RegistryWorkspaceChange}
    (hmem : change ∈ changes) (hvisible : Visible change.path) : checkout.listed change.entry = true := by
  refine listed_of_managed (entered_of_visible (h.named change hmem) (h.managed change hmem) hvisible)
    (managed_of_managedPath (h.named change hmem) (h.managed change hmem)).1 fun hamong => ?_
  exact absurd hamong (by simp [Checkout.amongDirectories, RegistryWorkspaceChange.entry])

/-- Above an unchanged file every directory is there. -/
theorem Reviewed.madeBy_made (h : Reviewed checkout snapshot changes) {path : String}
    (hnone : entryAt checkout.entries path = none) :
    MadeBy (made changes) (pathOf path) ↔ MadeBy changes (pathOf path) := by
  constructor
  · rintro ⟨change, hmem, hmakes⟩
    exact ⟨change, (mem_made.mp hmem).1, hmakes⟩
  · rintro ⟨change, hmem, hkind, habove⟩
    refine ⟨change, mem_made.mpr ⟨hmem, fun hsame => ?_⟩, hkind, habove⟩
    have hentry := h.entryAt_of_snapshot (h.same change hmem hsame)
    have hdirectory := h.sound.entryAt_directory (mem_of_entryAt hentry).1 habove
    rw [str_pathOf, hnone] at hdirectory
    exact absurd hdirectory (by simp)

/-- What the walk lists of the checkout that is left. -/
theorem Reviewed.entryAt_left (h : Reviewed checkout snapshot changes)
    (hvisible : ∀ change ∈ changes, change.kind ≠ .removed → Visible change.path) (path : String) :
    (entryAt ((made changes).foldl performed checkout.entries) path).filter checkout.listed =
      entryAt (changes.foldl performed snapshot.entries) path := by
  have hnamed : ∀ change ∈ made changes, Canonical change.path := fun change hmem => h.named change (mem_made.mp hmem).1
  have hseparate : (made changes).Pairwise Separate := h.separate.sublist List.filter_sublist
  have hread := h.sound.entryAt_snapshot h.read path
  by_cases hpath : ∀ change ∈ changes, path ≠ change.path.str
  · rw [entryAt_foldl_other h.named hpath, entryAt_foldl_other hnamed fun change hmem => hpath change (mem_made.mp hmem).1,
      hread]
    cases hentry : entryAt checkout.entries path with
    | none =>
        rw [Option.none_or, Option.filter_none, Option.none_or]
        by_cases hmade : MadeBy changes (pathOf path)
        · rw [if_pos ((h.madeBy_made hentry).mpr hmade), if_pos hmade]
          obtain ⟨change, hmem, hkind, habove⟩ := hmade
          exact Option.filter_eq_some_iff.mpr ⟨rfl, listed_above (h.named change hmem) (h.managed change hmem)
            (hvisible change hmem hkind) habove⟩
        · rw [if_neg fun hmakes => hmade ((h.madeBy_made hentry).mp hmakes), if_neg hmade]
          rfl
    | some entry =>
        rw [Option.some_or]
        by_cases hlisted : checkout.listed entry = true
        · rw [Option.filter_some_pos hlisted, Option.some_or]
        · have hmade : ¬ MadeBy changes (pathOf path) := by
            rintro ⟨change, hmem, hkind, habove⟩
            obtain ⟨hmem', rfl⟩ := mem_of_entryAt hentry
            obtain ⟨hne, hnames⟩ := h.sound.named entry hmem'
            have hform : pathOf entry.path.str = entry.path := by
              rw [pathOf, SafeRelativePath.str, Manifest.splitChar_slashJoin hnames hne]
            rw [hform] at habove
            exact hlisted (listed_above (h.named change hmem) (h.managed change hmem) (hvisible change hmem hkind) habove)
          rw [if_neg hmade, Option.or_none]
  · simp only [not_forall, not_not, exists_prop] at hpath
    obtain ⟨change, hmem, rfl⟩ := hpath
    rw [entryAt_foldl_of_mem h.separate hmem]
    by_cases hkind : change.kind = .unchanged
    · rw [if_neg (by rw [hkind]; decide)]
      have hothers : ∀ other ∈ made changes, Separate other change := by
        intro other hother
        obtain ⟨hmem', hkind'⟩ := mem_made.mp hother
        have : Std.Symm Separate := ⟨fun _ _ hapart => hapart.symm⟩
        refine h.separate.forall hmem' hmem ?_
        rintro rfl
        exact hkind' hkind
      rw [entryAt_foldl_separate hothers, ← hread]
      exact h.same change hmem hkind
    · rw [entryAt_foldl_of_mem hseparate (mem_made.mpr ⟨hmem, hkind⟩)]
      split
      · rfl
      · rename_i hwrites
        exact Option.filter_eq_some_iff.mpr ⟨rfl, h.listed_written hmem (hvisible change hmem hwrites)⟩

end Afterwards

end AgentArtifacts.RegistryCommands
