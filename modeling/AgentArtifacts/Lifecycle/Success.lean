import AgentArtifacts.Lifecycle.Atomicity
import AgentArtifacts.Lifecycle.Prepare

/-!
# What a successful uninstall leaves behind

A call that reports `removed` found everything as reviewed. It carried out every
mutation, left the manifest without the record or reclaimed it, and left the
reviewed index without the installed references of the owner. Directories that
became empty may be gone as well.
-/

namespace AgentArtifacts

/-! ## Destinations -/

def removeFile (files : String → Node) (operation : UninstallOperation) : String → Node :=
  match operation.mutation with
  | .none => files
  | .remove => Function.update files operation.absoluteDestination .absent
  | .write content => Function.update files operation.absoluteDestination (.file content false)

/-- The files after all mutations. -/
def removeFiles (operations : List UninstallOperation) (files : String → Node) : String → Node :=
  operations.foldl removeFile files

section Transaction

variable [StandardLibrary]

variable {faults : UninstallFaults}

theorem applyUninstallOperations_files {operations : List (UninstallOperation × Nat)} {start : UninstallProgress}
    (h : (applyUninstallOperations faults operations start).error = none) :
    (applyUninstallOperations faults operations start).world.files =
      removeFiles (operations.map (·.1)) start.world.files := by
  induction operations generalizing start with
  | nil => rfl
  | cons item rest ih =>
      obtain ⟨operation, place⟩ := item
      simp only [applyUninstallOperations, List.map_cons, removeFiles, List.foldl_cons] at h ih ⊢
      by_cases hchanges : operation.mutation.changes = true
      · simp only [hchanges, if_true] at h ⊢
        cases hfailure : (applyUninstallOperation (faults.change place) operation start.world).2 with
        | some message => exact absurd h (by simp [hfailure])
        | none =>
            simp only [hfailure] at h ⊢
            obtain ⟨node, hnode, hworld⟩ := applyUninstallOperation_node hfailure
            have hfile : (applyUninstallOperation (faults.change place) operation start.world).1.files =
                removeFile start.world.files operation := by
              rw [hworld, World.setFile_files]
              unfold removeFile
              cases hmutation : operation.mutation with
              | none => exact absurd hchanges (by simp [hmutation, Mutation.changes])
              | remove =>
                  rw [hmutation] at hnode
                  rw [← Except.ok.inj hnode]
              | write content =>
                  rw [hmutation] at hnode
                  rw [atomicWrite_eq_ok hnode]
            rw [ih h, hfile]
      · simp only [hchanges, Bool.false_eq_true, if_false] at h ⊢
        have hkept : removeFile start.world.files operation = start.world.files := by
          unfold removeFile
          cases hmutation : operation.mutation with
          | none => rfl
          | remove => exact absurd (by rw [hmutation]; rfl) hchanges
          | write content => exact absurd (by rw [hmutation]; rfl) hchanges
        rw [ih h, hkept]

variable [ManifestCodec]

/-- What a forward phase without an error carried out. -/
theorem uninstallForward_files {plan : UninstallPlan} {world : World}
    {warning : String} (h : (uninstallForward faults plan world).result = .ok warning) :
    (uninstallForward faults plan world).world.files = removeFiles plan.operations world.files := by
  unfold uninstallForward at h ⊢
  simp only at h ⊢
  cases herror : (applyUninstallOperations faults plan.operations.zipIdx { world := world }).error with
  | some message => exact absurd h (by simp [herror])
  | none =>
      simp only [herror] at h ⊢
      obtain ⟨node, hwritten, _⟩ := replaceState_world faults plan
        (applyUninstallOperations faults plan.operations.zipIdx { world := world }).world
      cases hfailed : (replaceState faults plan
          (applyUninstallOperations faults plan.operations.zipIdx { world := world }).world).2 with
      | some message => exact absurd h (by simp [hfailed])
      | none =>
          simp only
          have hrelease (reached : World) :
              (releaseReference faults.release plan reached).world.files = reached.files := by
            unfold releaseReference
            split
            · rfl
            · split <;> rfl
            · split <;> rfl
          rw [hrelease, hwritten, World.setManifest_files, applyUninstallOperations_files herror]
          simp [List.zipIdx_map_fst]

/-! ## The call -/

/-- A successful call, by what it leaves. -/
structure Removed (world : World) (plan : UninstallPlan) (after : World) : Prop where
  reviewed : AsReviewed world plan
  files : ∀ path, (removeFiles plan.operations world.files path).isDirectory = false →
    after.files path = removeFiles plan.operations world.files path
  manifests : after.manifests = Function.update world.manifests plan.statePath
      (.file (installStateBytes plan.replacementState) false) ∨
    (plan.replacementState.installations = [] ∧
      after.manifests = Function.update world.manifests plan.statePath .absent)
  references : after.references = plan.referenceReplacement
  objects : after.objects = world.objects
  resolves : after.resolves = world.resolves
  direct : after.direct = world.direct

theorem removed_of_forward {plan : UninstallPlan} {world : World}
    (hreviewed : AsReviewed world plan) {warning : String}
    (h : (uninstallForward faults plan world).result = .ok warning) :
    Removed world plan (match plan.teardown with
      | none => ((uninstallForward faults plan world).world, "")
      | some teardown => tearDown faults teardown (uninstallForward faults plan world).world).1 := by
  have hfiles := uninstallForward_files h
  rcases @uninstallForward_cases _ _ faults plan world hreviewed with
    ⟨_, files, _, hworld, _⟩ | ⟨message, hresult, _⟩
  · cases hteardown : plan.teardown with
    | none =>
        simp only
        refine ⟨hreviewed, ?_, ?_, ?_, ?_, ?_, ?_⟩
        · intro path _
          rw [hfiles]
        · exact Or.inl (by rw [hworld])
        · rw [hworld]
        · rw [hworld]
        · rw [hworld]
        · rw [hworld]
    | some teardown =>
        obtain ⟨last, manifests, htorn, hkept, hmanifests⟩ := tearDown_frame faults teardown
          (uninstallForward faults plan world).world
        obtain ⟨hpath, hempty⟩ := plan.teardown_spec hteardown
        simp only [htorn]
        refine ⟨hreviewed, ?_, ?_, ?_, ?_, ?_, ?_⟩
        · intro path hdirectory
          rw [← hfiles] at hdirectory ⊢
          exact hkept path hdirectory
        · rcases hmanifests with hsame | ⟨hreclaims, hreclaimed⟩
          · exact Or.inl (by rw [hsame, hworld])
          · refine Or.inr ⟨hempty hreclaims, ?_⟩
            rw [hreclaimed, hworld, hpath]
            simp
        · rw [hworld]
        · rw [hworld]
        · rw [hworld]
        · rw [hworld]
  · rw [h] at hresult
    exact absurd hresult (by simp)

/-- Every call that reports a removal carried it out. -/
theorem applyUninstallPlan_removed {plan : UninstallPlan} {world : World}
    {item : LifecycleItem} (h : (applyUninstallPlan faults world plan).item = some item)
    (hstatus : item.status = .removed) :
    Removed world plan (applyUninstallPlan faults world plan).world := by
  unfold applyUninstallPlan at h ⊢
  simp only at h ⊢
  cases hlock : faults.lock with
  | some message =>
      rw [hlock] at h
      rw [← Option.some.inj h] at hstatus
      exact absurd hstatus (by simp)
  | none =>
      simp only [hlock] at h ⊢
      by_cases hstores : storesAsReviewed world plan = true
      · simp only [hstores, Bool.not_true, Bool.false_eq_true, if_false] at h ⊢
        cases hfound : plan.operations.find? fun operation => !destinationAsReviewed world operation with
        | some operation =>
            rw [hfound] at h
            rw [← Option.some.inj h] at hstatus
            exact absurd hstatus (by simp [conflictItem])
        | none =>
            have hreviewed : AsReviewed world plan := by
              simp only [storesAsReviewed, Bool.and_eq_true, beq_iff_eq] at hstores
              refine ⟨hstores.1, hstores.2, ?_⟩
              intro operation hmem
              have hcurrent := List.find?_eq_none.mp hfound operation hmem
              simpa [destinationAsReviewed] using hcurrent
            simp only [hfound] at h ⊢
            cases hresult : (uninstallForward faults plan world).result with
            | ok warning =>
                simp only
                exact removed_of_forward hreviewed hresult
            | error message =>
                simp only [hresult] at h
                split at h
                · exact absurd h (by simp)
                · rw [← Option.some.inj h] at hstatus
                  exact absurd hstatus (by simp)
      · simp only [hstores] at h
        rw [← Option.some.inj h] at hstatus
        exact absurd hstatus (by simp [conflictItem])

end Transaction

end AgentArtifacts
