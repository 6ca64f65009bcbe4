import AgentArtifacts.RegistryCommands.Landing

/-!
# What a rollback brings back

The rollback writes the files of its backups and unlinks the files that were not there. Then
it removes the directories above these, the deepest first, and passes over the directories
that are to be preserved and over those that are not empty.
-/

namespace AgentArtifacts.RegistryCommands

open Maintenance (setEntry)
open Registry (entryAt entryAt_eq_none entryAt_of_mem mem_of_entryAt mem_sortedBy)
open Schema (refuse_eq_ok pairwise_sortedBy)

/-! ## Files -/

section Files

/-- What stood at the path of a backup. -/
def Backup.entry (backup : Backup) : Option SnapshotEntry :=
  backup.content.map fun content => ⟨backup.path, .file, content, backup.executable⟩

variable {checkout next left : Checkout} {backup : Backup} {backups : List Backup} {text : String}

/-- Under a directory that is there a restored file brings nothing but itself. -/
theorem entryAt_restore (h : checkout.restore backup = .ok next)
    (habove : backup.content.isSome → ∀ above ∈ properAncestors backup.path, (entryAt checkout.entries above.str).isSome) :
    entryAt next.entries text = if text = backup.path.str then backup.entry else entryAt checkout.entries text := by
  unfold Checkout.restore at h
  cases hcontent : backup.content with
  | none =>
      rw [hcontent] at h
      obtain ⟨_, _, h⟩ := Result.of_bind_ok h
      obtain rfl := Except.ok.inj h
      have hentry : backup.entry = none := by rw [Backup.entry, hcontent, Option.map_none]
      rw [hentry]
      exact entryAt_deleteEntry
  | some content =>
      rw [hcontent] at h
      obtain ⟨_, _, h⟩ := Result.of_bind_ok h
      obtain ⟨_, _, h⟩ := Result.of_bind_ok h
      obtain rfl := Except.ok.inj h
      have hentry : backup.entry = some ⟨backup.path, .file, content, backup.executable⟩ := by
        rw [Backup.entry, hcontent, Option.map_some]
      rw [hentry]
      show entryAt (writeEntry checkout.entries ⟨backup.path, .file, content, backup.executable⟩) text = _
      rw [entryAt_writeEntry]
      congr 1
      cases hfound : entryAt checkout.entries text with
      | some known => rw [Option.some_or]
      | none =>
          -- no directory is missing above a file that stood there
          rw [find?_above_eq_none, Option.map_none, Option.none_or]
          intro above hmem habsent
          have hpresent := habove (by simp [hcontent]) above hmem
          rw [habsent, hfound] at hpresent
          exact absurd hpresent (by simp)

/-- By induction over the backups, every file is as its backup says and nothing else changes. -/
theorem entryAt_restoreAll (h : checkout.restoreAll backups = (.ok (), left))
    (hdistinct : (backups.map (·.path.str)).Nodup)
    (habove : ∀ backup ∈ backups, backup.content.isSome → ∀ above ∈ properAncestors backup.path,
      (entryAt checkout.entries above.str).isSome ∧ ∀ other ∈ backups, other.path.str ≠ above.str) :
    (∀ backup ∈ backups, entryAt left.entries backup.path.str = backup.entry) ∧
      ∀ text, (∀ backup ∈ backups, backup.path.str ≠ text) → entryAt left.entries text = entryAt checkout.entries text := by
  induction backups generalizing checkout with
  | nil =>
      obtain rfl : checkout = left := (Prod.mk.inj h).2
      exact ⟨by simp, fun _ _ => rfl⟩
  | cons backup rest ih =>
      unfold Checkout.restoreAll at h
      cases hrestore : checkout.restore backup with
      | error diagnostics =>
          rw [hrestore] at h
          exact absurd (congrArg Prod.fst h) (by simp)
      | ok next =>
          rw [hrestore] at h
          obtain ⟨hfirst, hrest⟩ := List.forall_mem_cons.mp habove
          rw [List.map_cons, List.nodup_cons] at hdistinct
          have hnext (text : String) : entryAt next.entries text =
              if text = backup.path.str then backup.entry else entryAt checkout.entries text :=
            entryAt_restore hrestore fun hsome above hmem => (hfirst hsome above hmem).1
          have hlater : ∀ other ∈ rest, other.path.str ≠ backup.path.str := by
            intro other hother hsame
            exact hdistinct.1 (List.mem_map.mpr ⟨other, hother, hsame⟩)
          obtain ⟨hfiles, hothers⟩ := ih h hdistinct.2 fun other hother hsome above hmem => by
            obtain ⟨hpresent, hnames⟩ := hrest other hother hsome above hmem
            obtain ⟨hname, hnames⟩ := List.forall_mem_cons.mp hnames
            refine ⟨?_, hnames⟩
            rw [hnext, if_neg (Ne.symm hname)]
            exact hpresent
          refine ⟨List.forall_mem_cons.mpr ⟨?_, hfiles⟩, fun text htext => ?_⟩
          · rw [hothers _ hlater, hnext, if_pos rfl]
          · obtain ⟨hname, htexts⟩ := List.forall_mem_cons.mp htext
            rw [hothers text htexts, hnext, if_neg (Ne.symm hname)]

end Files

/-! ## Directories -/

section Directories

/-- At a path stands what stood there before, or a directory that was not there and is one of a list. -/
def Beside (before after : List SnapshotEntry) (directories : List String) (text : String) : Prop :=
  entryAt after text = entryAt before text ∨
    (entryAt before text = none ∧ entryAt after text = some (directoryAt (pathOf text)) ∧ text ∈ directories)

theorem Beside.mono {before after : List SnapshotEntry} {directories more : List String} {text : String}
    (h : Beside before after directories text) (hsub : text ∈ directories → text ∈ more) :
    Beside before after more text := by
  rcases h with h | ⟨hnone, hdirectory, hmem⟩
  · exact Or.inl h
  · exact Or.inr ⟨hnone, hdirectory, hsub hmem⟩

/-- Above what stands in a tree stand directories. -/
theorem Checkout.Sound.directory_above {start : Checkout} (hsound : start.Sound) {above path : SafeRelativePath}
    (habove : above ∈ properAncestors path) (hpath : ∀ entry, entryAt start.entries path.str = some entry → entry.path = path)
    (h : (entryAt start.entries path.str).isSome) : entryAt start.entries above.str = some (directoryAt above) := by
  obtain ⟨entry, hentry⟩ := Option.isSome_iff_exists.mp h
  have hmem := (mem_of_entryAt hentry).1
  have hdirectory := hsound.closed entry hmem above (by rw [hpath entry hentry]; exact habove)
  exact entryAt_of_mem hsound.distinct hdirectory

/-- Nothing stands below a path where nothing stands. -/
theorem Checkout.Sound.entryAt_below {start : Checkout} (hsound : start.Sound) {directory rest : String}
    (h : entryAt start.entries directory = none) : entryAt start.entries (directory ++ "/" ++ rest) = none := by
  cases hfound : entryAt start.entries (directory ++ "/" ++ rest) with
  | none => rfl
  | some entry =>
      obtain ⟨hmem, htext⟩ := mem_of_entryAt hfound
      obtain ⟨hne, hnames⟩ := hsound.named entry hmem
      have hparts : entry.path.parts = splitChar '/' directory ++ splitChar '/' rest := by
        rw [← Manifest.splitChar_slashJoin hnames hne]
        show splitChar '/' entry.path.str = _
        rw [htext, ← splitChar_below (splitChar_ne_nil directory) (fun part hpart => slash_notMem_splitChar hpart),
          Manifest.slashJoin_splitChar]
      have habove : pathOf directory ∈ properAncestors entry.path := by
        have hfirst := List.length_pos_iff.mpr (splitChar_ne_nil directory)
        have hlast := List.length_pos_iff.mpr (splitChar_ne_nil rest)
        refine mem_properAncestors.mpr ⟨(splitChar '/' directory).length, hfirst, ?_, ?_⟩
        · rw [hparts, List.length_append]
          omega
        · rw [hparts, List.take_left' rfl, pathOf]
      have hthere := hsound.closed entry hmem _ habove
      exact absurd (str_pathOf directory) (entryAt_eq_none.mp h _ hthere)

/-- How deep a directory lies. -/
def depth (text : String) : Nat := text.toList.count '/'

theorem depth_below (directory rest : String) : depth directory < depth (directory ++ "/" ++ rest) := by
  unfold depth
  rw [String.toList_append, String.toList_append, List.count_append, List.count_append]
  have hslash : List.count '/' "/".toList = 1 := by decide
  omega

variable {start checkout next left : Checkout} {directory : String} {rest directories : List String}

/-- Below a directory that is to go nothing is left when the deeper ones are gone. -/
theorem nothing_below (hsound : start.Sound)
    (hbeside : ∀ text, Beside start.entries checkout.entries (directory :: rest) text)
    (hdeepest : ∀ other ∈ rest, depth other ≤ depth directory) (hnone : entryAt start.entries directory = none) :
    (checkout.entries.any fun other => startsWith (directory ++ "/") other.path.str) = false := by
  rw [List.any_eq_false]
  intro other hother hbelow
  obtain ⟨tail, htext⟩ := startsWith_iff.mp hbelow
  have hthere : entryAt checkout.entries (directory ++ "/" ++ tail) ≠ none := by
    intro habsent
    exact entryAt_eq_none.mp habsent other hother htext
  rcases hbeside (directory ++ "/" ++ tail) with hsame | ⟨_, _, hmem⟩
  · rw [hsame, hsound.entryAt_below hnone] at hthere
    exact hthere rfl
  · have hdeeper := depth_below directory tail
    rcases List.mem_cons.mp hmem with heq | hrest
    · rw [heq] at hdeeper
      exact absurd hdeeper (lt_irrefl _)
    · exact absurd (hdeepest _ hrest) (not_le.mpr hdeeper)

/-- Once the first directory of the list is gone, the others are left to go. -/
theorem beside_removeDirectory (hsound : start.Sound) (h : checkout.removeDirectory directory = .ok next)
    (hbeside : ∀ text, Beside start.entries checkout.entries (directory :: rest) text)
    (hdeepest : ∀ other ∈ rest, depth other ≤ depth directory)
    (hadded : ∀ entry, entryAt start.entries directory = some entry → entry.kind ≠ .directory) (text : String) :
    Beside start.entries next.entries rest text := by
  unfold Checkout.removeDirectory at h
  cases hfound : entryAt checkout.entries directory with
  | none =>
      rw [hfound] at h
      obtain rfl := Except.ok.inj h
      rcases hbeside text with hsame | ⟨hnone, hdirectory, hmem⟩
      · exact Or.inl hsame
      · refine Or.inr ⟨hnone, hdirectory, (List.mem_cons.mp hmem).resolve_left ?_⟩
        rintro rfl
        rw [hfound] at hdirectory
        exact absurd hdirectory (by simp)
  | some entry =>
      rw [hfound] at h
      dsimp only at h
      split at h
      · exact absurd h (by simp [error])
      · rename_i hkind
        have hdirectory : entry.kind = .directory := by simpa using hkind
        have hnone : entryAt start.entries directory = none := by
          rcases hbeside directory with hsame | ⟨hnone, _, _⟩
          · exact absurd hdirectory (hadded entry (hsame ▸ hfound))
          · exact hnone
        rw [nothing_below hsound hbeside hdeepest hnone, if_neg (by simp)] at h
        obtain rfl := Except.ok.inj h
        unfold Beside
        rw [entryAt_deleteEntry]
        by_cases htext : text = directory
        · rw [if_pos htext, htext, hnone]
          exact Or.inl rfl
        · rw [if_neg htext]
          exact (hbeside text).mono fun hmem => (List.mem_cons.mp hmem).resolve_left htext

/-- By induction over the directories, the deepest first, none of them stays. -/
theorem entryAt_removeDirectories (hsound : start.Sound) (h : checkout.removeDirectories directories = (.ok (), left))
    (hbeside : ∀ text, Beside start.entries checkout.entries directories text)
    (hdeepest : directories.Pairwise fun first later => depth later ≤ depth first)
    (hadded : ∀ directory ∈ directories, ∀ entry, entryAt start.entries directory = some entry → entry.kind ≠ .directory)
    (text : String) : entryAt left.entries text = entryAt start.entries text := by
  induction directories generalizing checkout with
  | nil =>
      obtain rfl : checkout = left := (Prod.mk.inj h).2
      rcases hbeside text with hsame | ⟨_, _, hmem⟩
      · exact hsame
      · exact absurd hmem List.not_mem_nil
  | cons directory rest ih =>
      unfold Checkout.removeDirectories at h
      cases hremove : checkout.removeDirectory directory with
      | error diagnostics =>
          rw [hremove] at h
          exact absurd (congrArg Prod.fst h) (by simp)
      | ok next =>
          rw [hremove] at h
          obtain ⟨hfirst, hdeepest⟩ := List.pairwise_cons.mp hdeepest
          obtain ⟨hnew, hadded⟩ := List.forall_mem_cons.mp hadded
          exact ih h (beside_removeDirectory hsound hremove hbeside hfirst hnew) hdeepest hadded

/-! ## The directories of the backups -/

variable {backups : List Backup}

theorem mem_addedDirectories {text : String} :
    text ∈ addedDirectories backups ↔
      ∃ backup ∈ backups, backup.content = none ∧ ∃ above ∈ properAncestors backup.path, above.str = text := by
  unfold addedDirectories
  simp only [mem_sortedBy, List.mem_dedup, List.mem_flatMap, List.mem_filter, List.mem_map, Option.isNone_iff_eq_none,
    and_assoc]

theorem addedDirectories_deepest :
    (addedDirectories backups).Pairwise fun first later => depth later ≤ depth first := by
  unfold addedDirectories
  refine (pairwise_sortedBy _ _).imp fun {first later} hle => ?_
  have hdepths : -((depth first : Nat) : Int) ≤ -((depth later : Nat) : Int) := hle
  omega

end Directories

end AgentArtifacts.RegistryCommands
