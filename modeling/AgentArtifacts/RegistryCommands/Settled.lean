import AgentArtifacts.RegistryCommands.Reprojection

/-!
# Plans that are made again

A plan that was applied leaves nothing for the same plan to do: made again from the workspace that
it left, it names the wanted files as they are, and its application is the identity. Only where
no file is wanted can it not be made again, for there is nothing left that it could name.
-/

namespace AgentArtifacts.RegistryCommands

open Registry (entryAt entryAt_of_mem entryAt_of_perm mem_of_entryAt snapshot_ext)

section Settled

variable [StandardLibrary] {checkout left : Checkout} {snapshot after : SourceSnapshot} {operation : RegistryOperation}
  {desired : List DesiredFile} {pruneUnder : Option String} {plan : RegistryWorkspacePlan} {receipt : RegistryApplyReceipt}

/-- Nothing below the directory is left that is not wanted. -/
theorem Drafted.pruned_after (h : Drafted checkout snapshot desired pruneUnder) :
    prunedFiles (workspaceAfter snapshot desired (prunedFiles snapshot.entries desired pruneUnder)).entries desired
      pruneUnder = [] := by
  cases pruneUnder with
  | none => rfl
  | some base =>
      refine List.eq_nil_iff_forall_not_mem.mpr fun entry hentry => ?_
      obtain ⟨hmem, hbelow, hkind, hunwanted⟩ := mem_pruned.mp hentry
      obtain ⟨file, hfile, hpath, _⟩ := (h.file_below_iff hbelow).mp ⟨entryAt_of_mem h.distinct_after hmem, hkind⟩
      exact hunwanted file hfile hpath

/-- Where every wanted file stands as it is wanted and nothing else does, a plan changes nothing. -/
theorem made_of_standing (hstanding : ∀ file ∈ desired, entryAt after.entries file.path = some file.entry)
    (hpruned : prunedFiles after.entries desired pruneUnder = []) :
    made (sortChanges (plannedChanges after.entries desired pruneUnder)) = [] := by
  refine List.eq_nil_iff_forall_not_mem.mpr fun change hchange => ?_
  obtain ⟨hmem, hkind⟩ := mem_made.mp hchange
  rcases mem_sortedChanges.mp hmem with ⟨file, hfile, rfl⟩ | ⟨entry, hentry, _⟩
  · refine hkind ?_
    show changeKind file (entryAt after.entries file.path) = .unchanged
    rw [hstanding file hfile]
    exact if_pos ⟨rfl, rfl⟩
  · rw [hpruned] at hentry
    exact absurd hentry List.not_mem_nil

/-- A file that stands where it is wanted can be written there. -/
theorem placed_of_standing (hclosed : Closed after.entries)
    (hstanding : ∀ file ∈ desired, entryAt after.entries file.path = some file.entry) : Placed after.entries desired := by
  refine ⟨fun file hfile entry hentry => ?_, fun file hfile => ?_, fun file hfile other hother above habove hsame => ?_⟩
  · obtain rfl := Option.some.inj ((hstanding file hfile).symm.trans hentry)
    rfl
  · exact hclosed.clearAbove (mem_of_entryAt (hstanding file hfile)).1
  · -- the other file would stand where a directory stands above the first one
    have hdirectory := hclosed.above file.entry (mem_of_entryAt (hstanding file hfile)).1 above habove
    have hfound := entryAt_of_mem hclosed.hashable.distinct hdirectory
    rw [show (directoryAt above).path.str = other.path from hsame, hstanding other hother] at hfound
    exact absurd (congrArg (Option.map SnapshotEntry.kind) hfound) (by simp [DesiredFile.entry, directoryAt])

omit [StandardLibrary] in
theorem Checkout.changed_of_made_nil {changes : List RegistryWorkspaceChange} (h : made changes = []) :
    checkout.changed changes = checkout := by
  unfold Checkout.changed
  rw [h]
  rfl

/-- The workspace that is wanted is the one that is read where everything stands already. -/
theorem Drafted.after_of_standing (h : Drafted checkout after desired pruneUnder)
    (hvisible : ∀ file ∈ desired, Visible (pathOf file.path))
    (hnothing : made (sortChanges (plannedChanges after.entries desired pruneUnder)) = [])
    (hwalked : checkout.walked.Perm after.entries) :
    workspaceAfter after desired (prunedFiles after.entries desired pruneUnder) = after := by
  have hagain := h.walked_changed hvisible (by simp [hnothing])
  rw [Checkout.changed_of_made_nil hnothing] at hagain
  have hsame := hagain.symm.trans hwalked
  refine snapshot_ext rfl h.distinct_after ((hsame.map _).nodup_iff.mp h.distinct_after) fun path => ?_
  exact entryAt_of_perm h.distinct_after hsame path

/-- A plan over files that stand as they are wanted names them unchanged, and its application is the identity. -/
theorem Drafted.planned_of_standing (h : Drafted checkout after desired pruneUnder) (hsha : Sha256Length)
    (hfits : Fits checkout after desired []) (hstanding : ∀ file ∈ desired, entryAt after.entries file.path = some file.entry)
    (hpruned : prunedFiles after.entries desired pruneUnder = []) (hsome : desired ≠ [])
    (hwalked : checkout.walked.Perm after.entries) {next : ObjectDigest} (hdigest : sourceSnapshotDigest after = .ok next) :
    ∃ again, planWorkspace operation after desired pruneUnder = .ok again ∧ again.changedPaths = 0 ∧
      again.expectedSnapshotDigest = next ∧ again.nextSnapshotDigest = next ∧
      ∃ receipt, checkout.applyLocked again = (.ok receipt, checkout) := by
  have hnothing := made_of_standing hstanding hpruned
  have hafter := h.after_of_standing hfits.visible hnothing hwalked
  have hnext : sourceSnapshotDigest (workspaceAfter after desired (prunedFiles after.entries desired pruneUnder)) = .ok next :=
    hafter.symm ▸ hdigest
  have hexpressible : Expressible after.entries desired (prunedFiles after.entries desired pruneUnder) := by
    refine ⟨fun file hfile entry hentry _ => ?_, by simp [hpruned], Or.inl hsome⟩
    obtain rfl := Option.some.inj ((hstanding file hfile).symm.trans hentry)
    exact ⟨rfl, rfl⟩
  refine ⟨_, (planWorkspace_eq_ok hsha h.managed h.distinct hdigest hexpressible).mpr
    ⟨_, next, (projectChanges_eq_after h.closed hdigest h.managed h.distinct).mpr ⟨h.placed, rfl⟩, hnext, rfl⟩, ?_, rfl, rfl, ?_⟩
  · show List.countP _ (sortChanges (plannedChanges after.entries desired pruneUnder)) = 0
    exact List.countP_eq_zero.mpr (by simpa [made] using hnothing)
  · exact (h.applies_iff hdigest hnext).mpr ⟨hpruned.symm ▸ hfits, (Checkout.changed_of_made_nil hnothing).symm⟩

/-- An applied plan that is made again changes nothing, and its application leaves the checkout. -/
theorem planWorkspace_settles (hsha : Sha256Length) (hsound : checkout.Sound) (hread : checkout.snapshot = .ok snapshot)
    (hplan : planWorkspace operation snapshot desired pruneUnder = .ok plan)
    (happlied : checkout.applyLocked plan = (.ok receipt, left)) :
    ∃ after, left.snapshot = .ok after ∧ (Returns (planWorkspace operation after desired pruneUnder) ↔ desired ≠ []) ∧
      (desired ≠ [] → ∃ again, planWorkspace operation after desired pruneUnder = .ok again ∧ again.changedPaths = 0 ∧
        again.expectedSnapshotDigest = plan.nextSnapshotDigest ∧ again.nextSnapshotDigest = plan.nextSnapshotDigest ∧
        ∃ receipt, left.applyLocked again = (.ok receipt, left)) := by
  obtain ⟨hdraft, _, _⟩ := drafted_of_planned hsha hsound hread hplan
  obtain ⟨⟨expected, hdigest⟩, hdesired, hdistinct⟩ := wanted_of_planned hplan
  have hexpressible := (planWorkspace_returns_iff hsha hdesired hdistinct hdigest).mp fun message hraised => by
    rw [hplan] at hraised
    exact absurd hraised (by simp [raised, error])
  obtain ⟨projected, next, hprojected, hnext, rfl⟩ := (planWorkspace_eq_ok hsha hdesired hdistinct hdigest hexpressible).mp hplan
  obtain ⟨_, rfl⟩ := (projectChanges_eq_after hdraft.closed hdigest hdesired hdistinct).mp hprojected
  obtain ⟨hfits, rfl⟩ := (hdraft.applies_iff hdigest hnext).mp ⟨receipt, happlied⟩
  -- the workspace that is left
  have hlands := fun change hmem => hdraft.lands hfits.modes hfits.visible hfits.seen change (mem_made.mp hmem).1
  have hsoundLeft := hdraft.sound_changed hlands
  have hreadLeft := hdraft.snapshot_changed hfits hnext
  have hclosed := hsoundLeft.closed_snapshot hreadLeft hnext
  have hwalked := hdraft.walked_changed hfits.visible hlands
  have hstanding : ∀ file ∈ desired, _ = some file.entry := fun file hfile => hdraft.entryAt_desired hfile
  have hpruned := hdraft.pruned_after
  have hdraftLeft : Drafted _ _ desired pruneUnder :=
    ⟨hsoundLeft, hreadLeft, hclosed, hdesired, hdistinct, placed_of_standing hclosed hstanding, by simp [hpruned]⟩
  refine ⟨_, hreadLeft, ?_, fun hsome => hdraftLeft.planned_of_standing hsha ?_ hstanding hpruned hsome hwalked hnext⟩
  · rw [planWorkspace_returns_iff hsha hdesired hdistinct hnext, hpruned]
    refine ⟨fun h => h.some.resolve_right (by simp), fun hsome => ⟨fun file hfile entry hentry _ => ?_, by simp, Or.inl hsome⟩⟩
    obtain rfl := Option.some.inj ((hstanding file hfile).symm.trans hentry)
    exact ⟨rfl, rfl⟩
  · refine ⟨fun file hfile entry hentry => ?_, hfits.visible, fun file hfile _ => ?_, hfits.sizes, ?_⟩
    · obtain rfl := Option.some.inj ((hstanding file hfile).symm.trans hentry)
      rfl
    · rw [hstanding file hfile]
      rfl
    · have hafter := hdraftLeft.after_of_standing hfits.visible (made_of_standing hstanding hpruned) hwalked
      rw [hpruned] at hafter
      rw [hafter]
      exact hfits.bounds

end Settled

section Samples

local instance settledLibrary : StandardLibrary := storeLibrary

theorem planWorkspace_settles_tool :
    ∃ plan receipt left after again, planWorkspace .publish toolSnapshot [secondTool] none = .ok plan ∧
      toolCheckout.applyLocked plan = (.ok receipt, left) ∧ left.snapshot = .ok after ∧
      planWorkspace .publish after [secondTool] none = .ok again ∧ again.changedPaths = 0 := by
  obtain ⟨plan, hplan, receipt, left, happlied⟩ : ∃ plan, planWorkspace .publish toolSnapshot [secondTool] none = .ok plan ∧
      ∃ receipt left, toolCheckout.applyLocked plan = (.ok receipt, left) := ⟨_, rfl, _, _, rfl⟩
  obtain ⟨after, hafter, _, hagain⟩ :=
    planWorkspace_settles storeLibrary_sha256Length toolCheckout_sound toolCheckout_snapshot hplan happlied
  obtain ⟨again, hplanned, hnothing, _⟩ := hagain (by decide)
  exact ⟨plan, receipt, left, after, again, hplan, happlied, hafter, hplanned, hnothing⟩

end Samples

end AgentArtifacts.RegistryCommands
