import AgentArtifacts.RegistryCommands.Interrupted
import AgentArtifacts.RegistryCommands.Applied
import AgentArtifacts.RegistryCommands.Rollback

/-!
# A plan is applied as a whole or not at all

However the steps of an applier fail, its backups tell what the changes so far have
touched: elsewhere only directories above added files are new. So a rollback that goes
through leaves the checkout as it was. What it cannot undo is a file written aside that
stays, and it takes an empty directory for its own that the reader leaves out.
-/

namespace AgentArtifacts.RegistryCommands

open Registry (entryAt entryAt_append mem_of_entryAt)

section Trails

variable [StandardLibrary] {start checkout next left : Checkout} {preserved : List String} {backups : List Backup}
  {change : RegistryWorkspaceChange} {path : SafeRelativePath} {backup : Backup}

/-- The directories that stood above a path are among some others. -/
def Kept (start : Checkout) (preserved : List String) (path : SafeRelativePath) : Prop :=
  entryAt start.entries path.str = none → ∀ above ∈ properAncestors path, ∀ entry,
    entryAt start.entries above.str = some entry → entry.kind = .directory → above.str ∈ preserved

/-- What the backups of a run say about the checkout that it started from and the one that it has reached. -/
structure Trail (start : Checkout) (preserved : List String) (checkout : Checkout) (backups : List Backup) : Prop where
  named : ∀ backup ∈ backups, Canonical backup.path
  distinct : (backups.map (·.path.str)).Nodup
  described : ∀ backup ∈ backups, entryAt start.entries backup.path.str = backup.entry
  kept : ∀ backup ∈ backups, Kept start preserved backup.path
  elsewhere : ∀ text, (∀ backup ∈ backups, backup.path.str ≠ text) →
    Beside start.entries checkout.entries (addedDirectories backups) text

theorem Trail.nil : Trail start preserved start [] where
  named := by simp
  distinct := List.nodup_nil
  described := by simp
  kept := by simp
  elsewhere _ _ := Or.inl rfl

/-- Apart from a file itself, a step changes nothing but directories above it that were missing. -/
def TouchesOnly (path : SafeRelativePath) (before after : List SnapshotEntry) : Prop :=
  ∀ text, text ≠ path.str → entryAt after text = entryAt before text ∨
    (entryAt before text = none ∧ pathOf text ∈ properAncestors path ∧
      entryAt after text = some (directoryAt (pathOf text)))

omit [StandardLibrary] in
theorem TouchesOnly.refl (path : SafeRelativePath) (entries : List SnapshotEntry) : TouchesOnly path entries entries :=
  fun _ _ => Or.inl rfl

theorem touchesOnly_directories {entries : List SnapshotEntry} {directories : List SafeRelativePath}
    (hnamed : Canonical path) (hsub : ∀ directory ∈ directories, directory ∈ properAncestors path) :
    TouchesOnly path entries (directories.foldl makeDirectory entries) := by
  intro text _
  rw [entryAt_makeDirectories]
  cases hfound : entryAt entries text with
  | some known => exact Or.inl Option.some_or
  | none =>
      rw [Option.none_or]
      cases hmade : directories.find? fun directory => directory.str == text with
      | none => exact Or.inl rfl
      | some directory =>
          have htext : directory.str = text := by simpa using List.find?_some hmade
          have hmem := hsub directory (List.mem_of_find?_eq_some hmade)
          have hform : directory = pathOf text := by
            rw [← htext]
            exact ancestor_of_text hnamed hmem
          rw [← hform]
          exact Or.inr ⟨rfl, hmem, rfl⟩

theorem touchesOnly_performed {entries : List SnapshotEntry} (hnamed : Canonical change.path) :
    TouchesOnly change.path entries (performed entries change) := by
  intro text htext
  rw [entryAt_performed_other hnamed htext]
  cases hfound : entryAt entries text with
  | some known => exact Or.inl Option.some_or
  | none =>
      rw [Option.none_or]
      split
      · rename_i hmade
        exact Or.inr ⟨rfl, hmade.2, rfl⟩
      · exact Or.inl rfl

/-- A step that removes what it wrote aside touches no other file, wherever it breaks off. -/
theorem touchesOnly_broken {stop : Stop} (hnamed : Canonical change.path)
    (hstop : change.kind ≠ .removed → ∀ temporary, stop ≠ .aside (some temporary))
    (hperform : checkout.perform change = .ok (checkout.after change)) :
    TouchesOnly change.path checkout.entries (checkout.broken change stop).entries := by
  have haside (made : Nat) :
      TouchesOnly change.path checkout.entries (checkout.asideWritten change.path made none).entries := by
    unfold Checkout.asideWritten
    dsimp only
    rw [Option.map_none, Option.toList_none, List.append_nil]
    exact touchesOnly_directories hnamed fun directory hmem => List.mem_of_mem_take hmem
  unfold Checkout.broken
  cases stop with
  | backup => exact TouchesOnly.refl _ _
  | parents made =>
      dsimp only
      split
      · exact TouchesOnly.refl _ _
      · exact haside made
  | aside left =>
      dsimp only
      split
      · exact TouchesOnly.refl _ _
      · rename_i hkind
        cases left with
        | some temporary => exact absurd rfl (hstop hkind temporary)
        | none => exact haside _
  | done =>
      rw [hperform]
      exact touchesOnly_performed hnamed

/-- A file that a backup finds, or finds missing, has not been touched before. -/
theorem Trail.described_next (h : Trail start preserved checkout backups) (hsound : start.Sound)
    (hbackup : checkout.backup path = .ok backup) (hnamed : Canonical path)
    (hnew : ∀ backup ∈ backups, backup.path.str ≠ path.str) :
    backup.path = path ∧ entryAt start.entries path.str = backup.entry := by
  obtain ⟨_, hfile, rfl⟩ := backup_eq_ok.mp hbackup
  refine ⟨rfl, ?_⟩
  unfold Backup.entry
  dsimp only
  rcases h.elsewhere path.str hnew with hsame | ⟨_, hdirectory, _⟩
  · rw [hsame] at hfile ⊢
    cases hfound : entryAt start.entries path.str with
    | none => rfl
    | some entry =>
        obtain ⟨hmem, htext⟩ := mem_of_entryAt hfound
        have hpath : path = entry.path := hsound.path_of_parse hmem (by rw [htext]; exact hnamed)
        rw [hpath, Option.map_some, Option.map_some, Option.any_some, file_of_kind (hfile entry hfound).1]
  · -- a directory that the run has made is no file to back up
    exact absurd (hfile _ hdirectory).1 (by simp [directoryAt])

/-- One step lengthens the trail by its backup. -/
theorem Trail.step (h : Trail start preserved checkout backups) (hsound : start.Sound)
    (hbackup : checkout.backup path = .ok backup) (hnamed : Canonical path)
    (hnew : ∀ backup ∈ backups, backup.path.str ≠ path.str) (hkept : Kept start preserved path)
    (htouches : TouchesOnly path checkout.entries next.entries) :
    Trail start preserved next (backups ++ [backup]) := by
  obtain ⟨rfl, hentry⟩ := h.described_next hsound hbackup hnamed hnew
  refine ⟨?_, ?_, ?_, ?_, fun text htext => ?_⟩
  · simpa [or_imp, forall_and] using And.intro h.named hnamed
  · rw [List.map_append, List.map_singleton, List.nodup_append]
    refine ⟨h.distinct, List.nodup_singleton _, fun first hfirst last hlast => ?_⟩
    obtain ⟨other, hother, rfl⟩ := List.mem_map.mp hfirst
    obtain rfl := List.mem_singleton.mp hlast
    exact hnew other hother
  · simpa [or_imp, forall_and] using And.intro h.described hentry
  · simpa [or_imp, forall_and] using And.intro h.kept hkept
  · have hothers : ∀ other ∈ backups, other.path.str ≠ text := fun other hother =>
      htext other (List.mem_append_left _ hother)
    have hthis : text ≠ backup.path.str := (htext backup (by simp)).symm
    have hmore : text ∈ addedDirectories backups → text ∈ addedDirectories (backups ++ [backup]) := by
      intro hmem
      obtain ⟨other, hother, hrest⟩ := mem_addedDirectories.mp hmem
      exact mem_addedDirectories.mpr ⟨other, List.mem_append_left _ hother, hrest⟩
    rcases htouches text hthis with hsame | ⟨hmissing, habove, hmade⟩
    · have hbefore := h.elsewhere text hothers
      unfold Beside at hbefore ⊢
      rw [hsame]
      exact Beside.mono hbefore hmore
    · have hnone : entryAt start.entries text = none := by
        rcases h.elsewhere text hothers with hsame | ⟨hnone, _, _⟩
        · rw [← hsame]
          exact hmissing
        · exact hnone
      refine Or.inr ⟨hnone, hmade, mem_addedDirectories.mpr ⟨backup, by simp, ?_, pathOf text, habove, str_pathOf text⟩⟩
      cases hcontent : backup.content with
      | none => rfl
      | some content =>
          -- above a file that stood there no directory was missing
          have hstood : (entryAt start.entries backup.path.str).isSome := by
            rw [hentry, Backup.entry, hcontent]
            rfl
          have hthere := hsound.directory_above habove (fun entry hfound => ?_) hstood
          · rw [str_pathOf, hnone] at hthere
            exact absurd hthere (by simp)
          · obtain ⟨hmem, hname⟩ := mem_of_entryAt hfound
            exact (hsound.path_of_parse hmem (by rw [hname]; exact hnamed)).symm

/-- The directories above a file that stood there are there, and no backup is of one of them. -/
theorem Trail.above_restored (h : Trail start preserved checkout backups) (hsound : start.Sound)
    (hbackup : backup ∈ backups) (hsome : backup.content.isSome) {above : SafeRelativePath}
    (habove : above ∈ properAncestors backup.path) :
    (entryAt checkout.entries above.str).isSome ∧ ∀ other ∈ backups, other.path.str ≠ above.str := by
  have hstood : (entryAt start.entries backup.path.str).isSome := by
    rw [h.described backup hbackup, Backup.entry, Option.isSome_map]
    exact hsome
  have hthere := hsound.directory_above habove (fun entry hfound => by
    obtain ⟨hentry, hname⟩ := mem_of_entryAt hfound
    exact (hsound.path_of_parse hentry (by rw [hname]; exact h.named backup hbackup)).symm) hstood
  have hnames : ∀ other ∈ backups, other.path.str ≠ above.str := by
    intro other hother hsame
    have hfile := h.described other hother
    rw [hsame, hthere, Backup.entry] at hfile
    obtain ⟨content, _, hentry⟩ := Option.map_eq_some_iff.mp hfile.symm
    exact absurd (congrArg SnapshotEntry.kind hentry) (by simp [directoryAt])
  refine ⟨?_, hnames⟩
  rcases h.elsewhere above.str hnames with hsame | ⟨hnone, _, _⟩
  · rw [hsame, hthere]
    rfl
  · rw [hthere] at hnone
    exact absurd hnone (by simp)

/-- Once the files are back, only directories above added files are left to go. -/
theorem Trail.beside_restored (h : Trail start preserved checkout backups) (hsound : start.Sound)
    (hrestore : checkout.restoreAll backups.reverse = (.ok (), left)) (text : String) :
    Beside start.entries left.entries (addedDirectories backups) text := by
  have hdistinct : (backups.reverse.map (·.path.str)).Nodup := by
    rw [List.map_reverse, List.nodup_reverse]
    exact h.distinct
  obtain ⟨hfiles, hothers⟩ := entryAt_restoreAll hrestore hdistinct fun backup hbackup hsome above habove => by
    obtain ⟨hthere, hnames⟩ := h.above_restored hsound (List.mem_reverse.mp hbackup) hsome habove
    exact ⟨hthere, fun other hother => hnames other (List.mem_reverse.mp hother)⟩
  by_cases hbacked : ∃ backup ∈ backups, backup.path.str = text
  · obtain ⟨backup, hbackup, rfl⟩ := hbacked
    left
    rw [hfiles backup (List.mem_reverse.mpr hbackup), h.described backup hbackup]
  · have hnames : ∀ backup ∈ backups, backup.path.str ≠ text := fun backup hbackup hsame =>
      hbacked ⟨backup, hbackup, hsame⟩
    have hbeside := h.elsewhere text hnames
    unfold Beside at hbeside ⊢
    rw [hothers text fun backup hbackup => hnames backup (List.mem_reverse.mp hbackup)]
    exact hbeside

/-- A rollback that goes through along a trail ends where the run has started. -/
theorem Trail.rollback (h : Trail start preserved checkout backups) (hsound : start.Sound)
    (hstood : ∀ text ∈ preserved, (entryAt start.entries text).isSome)
    (hrollback : checkout.rollback backups preserved = (.ok (), left)) (text : String) :
    entryAt left.entries text = entryAt start.entries text := by
  unfold Checkout.rollback at hrollback
  cases hrestore : checkout.restoreAll backups.reverse with
  | mk result restored =>
      rw [hrestore] at hrollback
      cases result with
      | error diagnostics => exact absurd (congrArg Prod.fst hrollback) (by simp)
      | ok done =>
          refine entryAt_removeDirectories hsound hrollback (fun text => ?_) (addedDirectories_deepest.filter _) ?_ text
          · rcases h.beside_restored hsound hrestore text with hsame | ⟨hnone, hdirectory, hmem⟩
            · exact Or.inl hsame
            · refine Or.inr ⟨hnone, hdirectory, List.mem_filter.mpr ⟨hmem, ?_⟩⟩
              simp only [decide_eq_true_eq]
              intro hpreserved
              have hsome := hstood text hpreserved
              rw [hnone] at hsome
              exact absurd hsome (by simp)
          · intro directory hdirectory entry hentry hkind
            obtain ⟨hadded, hpreserved⟩ := List.mem_filter.mp hdirectory
            obtain ⟨backup, hbackup, hcontent, above, habove, rfl⟩ := mem_addedDirectories.mp hadded
            have hnone : entryAt start.entries backup.path.str = none := by
              rw [h.described backup hbackup, Backup.entry, hcontent, Option.map_none]
            have hmem := h.kept backup hbackup hnone above habove entry hentry hkind
            exact absurd hmem (by simpa using hpreserved)

end Trails

/-! ## Runs -/

section Runs

variable [StandardLibrary] {start checkout left : Checkout} {preserved : List String} {backups : List Backup}
  {faults : Faults} {changes : List RegistryWorkspaceChange} {plan : RegistryWorkspacePlan}

/-- A write that fails leaves nothing that it wrote aside. -/
def Tidy (faults : Faults) (change : RegistryWorkspaceChange) : Prop :=
  change.kind ≠ .removed → ∀ fault, faults.step change = some fault → ∀ temporary, fault.stop ≠ .aside (some temporary)

/-- After a failure everything is where it was. -/
theorem Trail.abandonWith {α : Type} (h : Trail start preserved checkout backups) (hsound : start.Sound)
    (hstood : ∀ text ∈ preserved, (entryAt start.entries text).isSome) {failure : List Diagnostic} {ended : Ended α}
    (hended : checkout.abandonWith backups preserved failure = ended) (hstuck : ended.stuck = false) (text : String) :
    entryAt ended.left.entries text = entryAt start.entries text := by
  unfold Checkout.abandonWith at hended
  cases hrollback : checkout.rollback backups preserved with
  | mk result restored =>
      rw [hrollback] at hended
      cases result with
      | error diagnostics =>
          subst hended
          exact absurd hstuck (by simp)
      | ok done =>
          subst hended
          exact h.rollback hsound hstood hrollback text

omit [StandardLibrary] in
theorem abandonWith_result {α : Type} {failure : List Diagnostic} {a : α} :
    (checkout.abandonWith backups preserved failure).result ≠ .ok a := by
  unfold Checkout.abandonWith
  split <;> simp

/-- A loop that goes through has left its trail, and one that fails and is rolled back nothing at all. -/
structure Tracked (start : Checkout) (preserved : List String) (ended : Ended (List Backup)) : Prop where
  through : ∀ found, ended.result = .ok found → Trail start preserved ended.left found
  failed : ∀ diagnostics, ended.result = .error diagnostics → ended.stuck = false →
    ∀ text, entryAt ended.left.entries text = entryAt start.entries text

theorem Trail.tracked (h : Trail start preserved checkout backups) (hsound : start.Sound)
    (hstood : ∀ text ∈ preserved, (entryAt start.entries text).isSome) {failure : List Diagnostic} {ended : Ended (List Backup)}
    (hended : checkout.abandonWith backups preserved failure = ended) : Tracked start preserved ended where
  through found hfound := by
    rw [← hended] at hfound
    exact absurd hfound abandonWith_result
  failed _ _ hstuck := h.abandonWith hsound hstood hended hstuck

omit [StandardLibrary] in
theorem backup_of_backupWith {path : SafeRelativePath} {fault : Option StepFault} {backup : Backup}
    (h : checkout.backupWith path fault = .ok backup) : checkout.backup path = .ok backup := by
  unfold Checkout.backupWith at h
  split at h
  · exact absurd h (by simp)
  · exact h

theorem snapshot_of_snapshotWith {fault : Option (List Diagnostic)} {current : SourceSnapshot}
    (h : checkout.snapshotWith fault = .ok current) : checkout.snapshot = .ok current := by
  unfold Checkout.snapshotWith at h
  split at h
  · exact absurd h (by simp)
  · exact h

/-- By induction over the changes, each step lengthens the trail or the run is given up along it. -/
theorem applyChangesWith_tracked (hsound : start.Sound) (hstood : ∀ text ∈ preserved, (entryAt start.entries text).isSome)
    (h : Trail start preserved checkout backups) (hnamed : ∀ change ∈ changes, Canonical change.path)
    (hdistinct : (changes.map (·.path.str)).Nodup)
    (hnew : ∀ change ∈ changes, ∀ backup ∈ backups, backup.path.str ≠ change.path.str)
    (htidy : ∀ change ∈ made changes, Tidy faults change)
    (hkept : ∀ change ∈ made changes, Kept start preserved change.path) {ended : Ended (List Backup)}
    (hended : checkout.applyChangesWith faults preserved backups changes = ended) : Tracked start preserved ended := by
  induction changes generalizing checkout backups with
  | nil =>
      obtain rfl := hended.symm
      refine ⟨fun found hfound => ?_, fun diagnostics hfailed => absurd hfailed (by simp [Checkout.applyChangesWith])⟩
      obtain rfl := Except.ok.inj hfound
      exact h
  | cons change rest ih =>
      obtain ⟨hpath, hnamed⟩ := List.forall_mem_cons.mp hnamed
      rw [List.map_cons, List.nodup_cons] at hdistinct
      obtain ⟨hfresh, hnew⟩ := List.forall_mem_cons.mp hnew
      unfold Checkout.applyChangesWith at hended
      by_cases hkind : change.kind = .unchanged
      · rw [if_pos hkind] at hended
        rw [made, List.filter_cons_of_neg (by simp [hkind])] at htidy hkept
        exact ih h hnamed hdistinct.2 hnew htidy hkept hended
      · rw [if_neg hkind] at hended
        rw [made, List.filter_cons_of_pos (by simp [hkind])] at htidy hkept
        obtain ⟨hclean, htidy⟩ := List.forall_mem_cons.mp htidy
        obtain ⟨habove, hkept⟩ := List.forall_mem_cons.mp hkept
        cases hbackup : checkout.backupWith change.path (faults.step change) with
        | error diagnostics =>
            rw [hbackup] at hended
            exact h.tracked hsound hstood hended
        | ok backup =>
            rw [hbackup] at hended
            dsimp only at hended
            have hfound := backup_of_backupWith hbackup
            obtain ⟨hclear, hfile, _⟩ := backup_eq_ok.mp hfound
            have hperform := perform_eq_ok hclear fun entry hentry => (hfile entry hentry).1
            have hstep {next : Checkout} (htouches : TouchesOnly change.path checkout.entries next.entries) :
                Trail start preserved next (backups ++ [backup]) :=
              h.step hsound hfound hpath hfresh habove htouches
            by_cases hstale : backup.stale change = true
            · rw [if_pos hstale] at hended
              exact h.tracked hsound hstood hended
            · rw [if_neg hstale] at hended
              cases hfault : faults.step change with
              | some fault =>
                  rw [hfault] at hended
                  have htouches := touchesOnly_broken hpath (fun hwrites => hclean hwrites fault hfault) hperform
                  exact (hstep htouches).tracked hsound hstood hended
              | none =>
                  rw [hfault] at hended
                  unfold Checkout.performWith at hended
                  rw [hperform] at hended
                  dsimp only at hended
                  refine ih (hstep (touchesOnly_performed hpath)) hnamed hdistinct.2 (fun later hlater other hother => ?_)
                    htidy hkept hended
                  rcases List.mem_append.mp hother with hother | hother
                  · exact hnew later hlater other hother
                  · obtain rfl := List.mem_singleton.mp hother
                    rw [(h.described_next hsound hfound hpath hfresh).1]
                    intro hsame
                    exact hdistinct.1 (List.mem_map.mpr ⟨later, hlater, hsame.symm⟩)

/-- The plan as its constructor makes it names every file once. -/
theorem distinct_of_plan (hplan : registryWorkspacePlan plan = .ok plan) (hnamed : ∀ change ∈ plan.changes, Canonical change.path) :
    (plan.changes.map (·.path.str)).Nodup := by
  unfold registryWorkspacePlan at hplan
  dsimp only at hplan
  split at hplan
  · exact absurd hplan (by simp [raised, error])
  · rename_i hvalid
    have hsorted : sortChanges plan.changes = plan.changes := congrArg RegistryWorkspacePlan.changes (Except.ok.inj hplan)
    rw [hsorted] at hvalid
    simp only [Bool.or_eq_true, decide_eq_true_eq, not_or, not_not] at hvalid
    have hpaths : (plan.changes.map (·.path)).Nodup := hvalid.1.1.2
    have htexts : ((plan.changes.map (·.path)).map SafeRelativePath.str).Nodup := by
      refine hpaths.map_on fun first hfirst last hlast hsame => ?_
      obtain ⟨one, hone, rfl⟩ := List.mem_map.mp hfirst
      obtain ⟨other, hother, rfl⟩ := List.mem_map.mp hlast
      exact path_of_text (hnamed one hone) (hnamed other hother) hsame
    rw [List.map_map] at htexts
    exact htexts

/-- The directories that a snapshot preserves have been there. -/
theorem isSome_of_preserved (hsound : start.Sound) {current : SourceSnapshot} (hread : start.snapshot = .ok current)
    {text : String} (h : text ∈ preservedDirectories current) : (entryAt start.entries text).isSome := by
  obtain ⟨entry, hmem, rfl⟩ := List.mem_map.mp h
  obtain ⟨_, _, rfl⟩ := hsound.snapshot_eq_ok.mp hread
  have hwalked : entry ∈ start.walked := (perm_sortByPath _).mem_iff.mp (List.mem_filter.mp hmem).1
  rw [Registry.entryAt_of_mem hsound.distinct (Checkout.mem_walked.mp hwalked).1]
  rfl

/-- A directory that the snapshot lists is preserved. -/
theorem kept_of_listed (hsound : start.Sound) {current : SourceSnapshot} (hread : start.snapshot = .ok current)
    {path : SafeRelativePath}
    (hlisted : entryAt start.entries path.str = none → ∀ above ∈ properAncestors path, ∀ entry,
      entryAt start.entries above.str = some entry → entry.kind = .directory → start.listed entry = true) :
    Kept start (preservedDirectories current) path := by
  intro hnone above habove entry hentry hkind
  have hread : entryAt current.entries above.str = some entry := by
    rw [hsound.entryAt_snapshot hread, hentry, Option.filter_some, if_pos (hlisted hnone above habove entry hentry hkind)]
  obtain ⟨hmem, hname⟩ := mem_of_entryAt hread
  refine List.mem_map.mpr ⟨entry, List.mem_filter.mpr ⟨hmem, ?_⟩, hname⟩
  simp [hkind]

/-- What the rollback can undo: failing writes that clean up after themselves, and added files below no directory
that the reader leaves out. -/
structure Undoable (start : Checkout) (faults : Faults) (plan : RegistryWorkspacePlan) : Prop where
  tidy : ∀ change ∈ made plan.changes, Tidy faults change
  listed : ∀ change ∈ made plan.changes, entryAt start.entries change.path.str = none →
    ∀ above ∈ properAncestors change.path, ∀ entry, entryAt start.entries above.str = some entry →
      entry.kind = .directory → start.listed entry = true

/-- A failed run leaves the managed part as it was, and one that returns a receipt leaves what was projected. -/
structure AllOrNothing (start : Checkout) (plan : RegistryWorkspacePlan) (ended : Ended RegistryApplyReceipt) : Prop where
  nothing : ∀ diagnostics, ended.result = .error diagnostics →
    ∀ path, managed path = true → entryAt ended.left.entries path = entryAt start.entries path
  all : ∀ receipt, ended.result = .ok receipt → ∃ current projected, start.snapshot = .ok current ∧
    projectRegistryWorkspacePlan current plan = .ok projected ∧ ended.left.snapshot = .ok projected

end Runs

/-! ## A write that fails below a new directory -/

section Samples

local instance : StandardLibrary := storeLibrary

def nestedChange : RegistryWorkspaceChange :=
  ⟨⟨["entries", "more", "tool.sh"]⟩, .added, [111], none, some (sha256Bytes [111]), true⟩

def nestedPlan : RegistryWorkspacePlan :=
  ⟨.publish, sha256Bytes [], sha256Bytes [], [nestedChange], sha256Bytes []⟩

def diskFull : List Diagnostic := [⟨registryWorkspaceApplyFailed, "cannot write registry file: No space left on device"⟩]

/-- The write makes the directory and writes the file aside, and then it fails. -/
def brokenAside (left : Option Temporary) : Faults where
  step _ := some ⟨.aside left, diskFull⟩

theorem nestedPlan_canonical : ∀ change ∈ nestedPlan.changes, Canonical change.path := by
  intro change hchange
  obtain rfl := List.mem_singleton.mp hchange
  rfl

def gitCheckout : Checkout := ⟨[directoryAt ⟨["entries"]⟩, directoryAt ⟨["entries", ".git"]⟩], []⟩

def gitPlan : RegistryWorkspacePlan :=
  ⟨.publish, sha256Bytes [], sha256Bytes [],
    [⟨⟨["entries", ".git", "config"]⟩, .added, [111], none, some (sha256Bytes [111]), false⟩], sha256Bytes []⟩

/-- Nothing fails from outside; the file that was written is not read back, and the directory goes with it. -/
theorem unlisted_directory_goes :
    (gitCheckout.applyLockedWith {} gitPlan).stuck = false ∧
      ¬ AllOrNothing gitCheckout gitPlan (gitCheckout.applyLockedWith {} gitPlan) := by
  refine ⟨by rfl, fun h => ?_⟩
  have hback := h.nothing [⟨registryWorkspaceApplyFailed, "registry apply verification failed"⟩] (by rfl) "entries/.git"
    (by decide)
  have hthere : (entryAt gitCheckout.entries "entries/.git").isSome = true := by decide
  have hgone : entryAt (gitCheckout.applyLockedWith {} gitPlan).left.entries "entries/.git" = none := by rfl
  rw [← hback, hgone] at hthere
  exact absurd hthere (by simp)

end Samples

end AgentArtifacts.RegistryCommands
