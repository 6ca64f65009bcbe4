import AgentArtifacts.Installation.Atomicity
import AgentArtifacts.Lifecycle.Apply

/-!
# What an uninstall leaves behind

A call ends in one of two worlds: the destinations mutated, the record gone and
the reference released, or everything as reviewed. The compensation never has
to restore the reference, because the release is the last step that can raise
and it raises only when the index still is the reviewed one.
-/

namespace AgentArtifacts

open Compensation

/-! ## Mutations -/

/-- What a destination holds after the last operation that changes it. -/
def MutationHolds (world : World) (operation : UninstallOperation) : Prop :=
  match operation.mutation with
  | .none => True
  | .remove => world.files operation.absoluteDestination = .absent
  | .write content => world.files operation.absoluteDestination = .file content false

/-- A directory, which teardown may find empty. -/
def Node.isDirectory : Node → Bool
  | .directory _ | .unreadable _ => true
  | _ => false

theorem MutationHolds.congr {a b : World} {operation : UninstallOperation}
    (h : MutationHolds a operation)
    (hsame : (a.files operation.absoluteDestination).isDirectory = false →
      b.files operation.absoluteDestination = a.files operation.absoluteDestination) :
    MutationHolds b operation := by
  unfold MutationHolds at h ⊢
  split
  · trivial
  · rename_i hmutation
    simp only [hmutation] at h
    rw [hsame (by rw [h]; rfl), h]
  · rename_i content hmutation
    simp only [hmutation] at h
    rw [hsame (by rw [h]; rfl), h]

/-! ## Teardown -/

theorem removeIfEmpty_frame (emptied : String → Bool) (world : World) (path : String) :
    ∃ files, removeIfEmpty emptied world path = { world with files := files } ∧
      ∀ other, (world.files other).isDirectory = false → files other = world.files other := by
  unfold removeIfEmpty
  have hupdate (hnode : (world.files path).isDirectory = true) (other : String)
      (hother : (world.files other).isDirectory = false) :
      Function.update world.files path Node.absent other = world.files other := by
    have hne : other ≠ path := by
      rintro rfl
      rw [hnode] at hother
      exact absurd hother (by simp)
    rw [Function.update_of_ne hne]
  split
  · rename_i tree hnode
    split
    · exact ⟨_, rfl, hupdate (by simp [hnode, Node.isDirectory])⟩
    · exact ⟨world.files, rfl, fun _ _ => rfl⟩
  · rename_i reason hnode
    split
    · exact ⟨_, rfl, hupdate (by simp [hnode, Node.isDirectory])⟩
    · exact ⟨world.files, rfl, fun _ _ => rfl⟩
  · exact ⟨world.files, rfl, fun _ _ => rfl⟩

theorem pruned_frame (emptied : String → Bool) (directories : List String) (world : World) :
    ∃ files, directories.foldl (removeIfEmpty emptied) world = { world with files := files } ∧
      ∀ other, (world.files other).isDirectory = false → files other = world.files other := by
  induction directories generalizing world with
  | nil => exact ⟨world.files, rfl, fun _ _ => rfl⟩
  | cons directory rest ih =>
      obtain ⟨files, hfirst, hkept⟩ := removeIfEmpty_frame emptied world directory
      obtain ⟨later, hrest, hlater⟩ := ih { world with files := files }
      refine ⟨later, ?_, ?_⟩
      · rw [List.foldl_cons, hfirst, hrest]
      · intro other hother
        have hsame := hkept other hother
        have hnext := hlater other (by simpa only [hsame] using hother)
        exact hnext.trans hsame

/-- Teardown keeps everything but directories, keeps the index, and takes away
at most the manifest it reclaims. -/
theorem tearDown_frame (faults : UninstallFaults) (teardown : ScopeTeardown) (world : World) :
    ∃ files manifests, (tearDown faults teardown world).1 =
        { world with files := files, manifests := manifests } ∧
      (∀ other, (world.files other).isDirectory = false → files other = world.files other) ∧
      (manifests = world.manifests ∨ (teardown.reclaimsState = true ∧
        manifests = Function.update world.manifests teardown.statePath .absent)) := by
  obtain ⟨files, hpruned, hkept⟩ := pruned_frame faults.emptied teardown.directories world
  unfold tearDown
  simp only [hpruned]
  by_cases hreclaims : teardown.reclaimsState = true
  · simp only [hreclaims, Bool.not_true, Bool.false_eq_true, if_false]
    split
    · exact ⟨files, world.manifests, rfl, hkept, Or.inl rfl⟩
    · split
      · exact ⟨files, _, rfl, hkept, Or.inr ⟨trivial, rfl⟩⟩
      · obtain ⟨last, hlast, hkeptLast⟩ := removeIfEmpty_frame faults.emptied
          ({ world with files := files }.setManifest teardown.statePath .absent) teardown.stateRoot
        refine ⟨last, _, hlast, ?_, Or.inr ⟨trivial, rfl⟩⟩
        intro other hother
        have hsame := hkept other hother
        have hnext := hkeptLast other (by simpa only [World.setManifest_files, hsame] using hother)
        exact hnext.trans hsame
  · simp only [hreclaims]
    exact ⟨files, world.manifests, rfl, hkept, Or.inl rfl⟩

section Transaction

variable [StandardLibrary]

/-! ## Destinations -/

theorem applyUninstallOperation_world (fault : Option WriteFault) (operation : UninstallOperation)
    (world : World) :
    ∃ node, (applyUninstallOperation fault operation world).1 =
      world.setFile operation.absoluteDestination node := by
  unfold applyUninstallOperation
  simp only
  split
  · exact ⟨_, rfl⟩
  · exact ⟨_, rfl⟩

/-- The node of a mutation that was carried out. -/
theorem applyUninstallOperation_node {fault : Option WriteFault} {operation : UninstallOperation}
    {world : World} (h : (applyUninstallOperation fault operation world).2 = none) :
    ∃ node, operation.mutation.apply (world.files operation.absoluteDestination) = .ok node ∧
      (applyUninstallOperation fault operation world).1 =
        world.setFile operation.absoluteDestination node := by
  unfold applyUninstallOperation settle at h ⊢
  cases fault with
  | some fault => exact absurd h (by simp)
  | none =>
      cases happly : operation.mutation.apply (world.files operation.absoluteDestination) with
      | error message => exact absurd h (by simp [happly])
      | ok node => exact ⟨node, rfl, by simp [happly]⟩

/-- The loop attempts some of the operations that change something, and touches
nothing but their destinations. -/
theorem applyUninstallOperations_frame (faults : UninstallFaults)
    (operations : List (UninstallOperation × Nat)) (start : UninstallProgress) :
    ∃ tried, (applyUninstallOperations faults operations start).attempted = start.attempted ++ tried ∧
      tried ⊆ operations ∧ (∀ item ∈ tried, item.1.mutation.changes = true) ∧
      AgreeOutside (tried.map (·.1.absoluteDestination))
        (applyUninstallOperations faults operations start).world.files start.world.files ∧
      (applyUninstallOperations faults operations start).world =
        { start.world with files := (applyUninstallOperations faults operations start).world.files } := by
  induction operations generalizing start with
  | nil => exact ⟨[], by simp [applyUninstallOperations, AgreeOutside]⟩
  | cons item rest ih =>
      obtain ⟨operation, place⟩ := item
      by_cases hchanges : operation.mutation.changes = true
      · obtain ⟨node, hnode⟩ := applyUninstallOperation_world (faults.change place) operation start.world
        let reached : UninstallProgress :=
          ⟨(applyUninstallOperation (faults.change place) operation start.world).1,
            start.attempted ++ [(operation, place)],
            (applyUninstallOperation (faults.change place) operation start.world).2⟩
        have hreached : reached.world = start.world.setFile operation.absoluteDestination node := hnode
        cases hfailure : (applyUninstallOperation (faults.change place) operation start.world).2 with
        | some message =>
            have heq : applyUninstallOperations faults ((operation, place) :: rest) start = reached := by
              simp [applyUninstallOperations, hchanges, hfailure, reached]
            rw [heq, hreached]
            refine ⟨[(operation, place)], rfl, by simp, by simpa using hchanges, ?_, rfl⟩
            exact (AgreeOutside.refl _ _).update (by simp) node
        | none =>
            have heq : applyUninstallOperations faults ((operation, place) :: rest) start =
                applyUninstallOperations faults rest reached := by
              simp [applyUninstallOperations, hchanges, hfailure, reached]
            obtain ⟨tried, hattempted, hsub, hmutate, hagree, hworld⟩ := ih reached
            rw [heq]
            refine ⟨(operation, place) :: tried, ?_, ?_, ?_, ?_, ?_⟩
            · rw [hattempted]
              simp [reached]
            · exact List.cons_subset_cons _ hsub
            · intro other hother
              rcases List.mem_cons.mp hother with rfl | hother
              · exact hchanges
              · exact hmutate other hother
            · refine (hagree.mono (by simp)).trans ?_
              rw [hreached, World.setFile_files]
              exact (AgreeOutside.refl _ _).update (by simp) node
            · rw [hworld, hreached]
              rfl
      · have heq : applyUninstallOperations faults ((operation, place) :: rest) start =
            applyUninstallOperations faults rest start := by
          simp [applyUninstallOperations, hchanges]
        obtain ⟨tried, hattempted, hsub, hmutate, hagree, hworld⟩ := ih start
        rw [heq]
        exact ⟨tried, hattempted, fun other hother => List.mem_cons_of_mem _ (hsub hother), hmutate,
          hagree, hworld⟩

/-- A loop that ended without a failure ran its first part and then its second. -/
theorem applyUninstallOperations_append {faults : UninstallFaults}
    {first second : List (UninstallOperation × Nat)} {start : UninstallProgress}
    (hstart : start.error = none)
    (h : (applyUninstallOperations faults (first ++ second) start).error = none) :
    (applyUninstallOperations faults first start).error = none ∧
      applyUninstallOperations faults (first ++ second) start =
        applyUninstallOperations faults second (applyUninstallOperations faults first start) := by
  induction first generalizing start with
  | nil => exact ⟨hstart, rfl⟩
  | cons item rest ih =>
      obtain ⟨operation, place⟩ := item
      simp only [List.cons_append, applyUninstallOperations] at h ⊢
      by_cases hchanges : operation.mutation.changes = true
      · simp only [hchanges, if_true] at h ⊢
        cases hfailure : (applyUninstallOperation (faults.change place) operation start.world).2 with
        | some message => exact absurd h (by simp [hfailure])
        | none =>
            simp only [hfailure] at h ⊢
            exact ih rfl h
      · simp only [hchanges] at h ⊢
        exact ih hstart h

theorem applyUninstallOperations_holds {faults : UninstallFaults}
    {before after : List (UninstallOperation × Nat)} {operation : UninstallOperation} {place : Nat}
    {start : UninstallProgress} (hstart : start.error = none)
    (hok : (applyUninstallOperations faults (before ++ (operation, place) :: after) start).error = none)
    (hlast : ∀ later ∈ after, later.1.mutation.changes = true →
      later.1.absoluteDestination ≠ operation.absoluteDestination) :
    MutationHolds (applyUninstallOperations faults (before ++ (operation, place) :: after) start).world
      operation := by
  obtain ⟨hbefore, hsplit⟩ := applyUninstallOperations_append hstart hok
  rw [hsplit] at hok ⊢
  by_cases hchanges : operation.mutation.changes = true
  · simp only [applyUninstallOperations, hchanges, if_true] at hok ⊢
    cases hfailure : (applyUninstallOperation (faults.change place) operation
        (applyUninstallOperations faults before start).world).2 with
    | some message => exact absurd hok (by simp [hfailure])
    | none =>
        simp only [hfailure] at hok ⊢
        obtain ⟨node, hnode, hworld⟩ := applyUninstallOperation_node hfailure
        -- The later operations change other destinations.
        obtain ⟨tried, _, hsub, hmutate, hagree, _⟩ := applyUninstallOperations_frame faults after
          ⟨(applyUninstallOperation (faults.change place) operation
              (applyUninstallOperations faults before start).world).1,
            (applyUninstallOperations faults before start).attempted ++ [(operation, place)], none⟩
        have hkept := hagree operation.absoluteDestination (by
          intro hmem
          obtain ⟨later, hlater, hpath⟩ := List.mem_map.mp hmem
          exact hlast later (hsub hlater) (hmutate later hlater) hpath)
        simp only [hworld, World.setFile_files, Function.update_self] at hkept
        rw [← hworld] at hkept
        unfold MutationHolds
        cases hmutation : operation.mutation with
        | none => trivial
        | remove =>
            rw [hmutation] at hnode
            rw [hkept]
            exact (Except.ok.inj hnode).symm
        | write content =>
            rw [hmutation] at hnode
            rw [hkept]
            exact atomicWrite_eq_ok hnode
  · unfold MutationHolds
    cases hmutation : operation.mutation with
    | none => trivial
    | remove => exact absurd (by rw [hmutation]; rfl) hchanges
    | write content => exact absurd (by rw [hmutation]; rfl) hchanges

/-! ## Restores -/

/-- Restores whose verification reads all agree put the initial nodes back. -/
theorem rollbackOperations_eq {faults : UninstallFaults} {items : List (UninstallOperation × Nat)}
    (initial : String → Node) (world : World)
    (hobserved : ∀ item ∈ items, ∃ resolves,
      observe resolves (initial item.1.absoluteDestination) = .ok item.1.precondition)
    (herrors : (rollbackOperations faults items world).2 = []) :
    (rollbackOperations faults items world).1 =
      { world with
        files := restoreAll initial (items.map (·.1.absoluteDestination)) world.files } := by
  induction items generalizing world with
  | nil => rfl
  | cons item rest ih =>
      obtain ⟨operation, place⟩ := item
      obtain ⟨resolves, hitem⟩ := hobserved (operation, place) (by simp)
      simp only [rollbackOperations, List.append_eq_nil_iff] at herrors ⊢
      cases hstep : settle (faults.restore place) (world.files operation.absoluteDestination)
          (restoredNode operation.precondition) with
      | mk node failure =>
          rw [hstep] at herrors
          cases failure with
          | some message => exact absurd herrors.1 (by simp)
          | none =>
              have hnode : node = initial operation.absoluteDestination := settle_restored hitem hstep
              have hrest := ih (world.setFile operation.absoluteDestination node)
                (fun other hother => hobserved other (by simp [hother])) herrors.2
              rw [hrest, hnode]
              rfl

variable [ManifestCodec]

/-! ## Manifest and reference -/

theorem replaceState_world (faults : UninstallFaults) (plan : UninstallPlan) (world : World) :
    ∃ node, (replaceState faults plan world).1 = world.setManifest plan.statePath node ∧
      ((replaceState faults plan world).2 = none →
        node = .file (installStateBytes plan.replacementState) false) := by
  unfold replaceState settle
  cases faults.state with
  | some fault => exact ⟨fault.left, rfl, by simp⟩
  | none =>
      cases hwrite : atomicWrite (installStateBytes plan.replacementState)
          (world.manifests plan.statePath) with
      | error message => exact ⟨world.manifests plan.statePath, by simp [hwrite], by simp [hwrite]⟩
      | ok node =>
          have hnode := atomicWrite_eq_ok hwrite
          refine ⟨node, ?_, fun _ => hnode⟩
          simp only [hwrite]
          split
          · rfl
          · split <;> rfl

omit [StandardLibrary] in
/-- A release from the reviewed index drops the owner's references, or raises and
leaves the reviewed index with nothing to compensate. -/
theorem releaseReference_cases {fault : ReferenceFault} {plan : UninstallPlan} {world : World}
    (hindex : world.references = plan.referencePrecondition) :
    (∃ warning, (releaseReference fault plan world).result = .ok warning ∧
        (releaseReference fault plan world).world = world.setReferences plan.referenceReplacement) ∨
      (∃ message, (releaseReference fault plan world).result = .error message ∧
        (releaseReference fault plan world).released = false ∧
        (releaseReference fault plan world).world = world) := by
  have hreplaced {updated : ReferenceIndex}
      (h : world.references.replace .installed plan.referenceOwner [] = some updated) :
      updated = plan.referenceReplacement := by
    rw [ReferenceIndex.eq_without h, hindex]
    rfl
  unfold releaseReference replaceReferences
  cases fault with
  | before diagnostics =>
      simp only
      split
      · rename_i heq
        exact Or.inl ⟨_, rfl, by rw [heq]⟩
      · exact Or.inr ⟨_, rfl, rfl, rfl⟩
  | none =>
      cases hupdate : world.references.replace .installed plan.referenceOwner [] with
      | none => exact Or.inr ⟨_, rfl, rfl, rfl⟩
      | some updated =>
          obtain rfl := hreplaced hupdate
          refine Or.inl ⟨"", ?_, ?_⟩ <;> simp
  | after diagnostics =>
      cases hupdate : world.references.replace .installed plan.referenceOwner [] with
      | none => exact Or.inr ⟨_, rfl, rfl, rfl⟩
      | some updated =>
          obtain rfl := hreplaced hupdate
          refine Or.inl ⟨"object reference released; store-lock cleanup reported a warning", ?_, ?_⟩ <;>
            simp

/-! ## The forward phase -/

/-- Everything reviewed is still in place. -/
structure AsReviewed (world : World) (plan : UninstallPlan) : Prop where
  state : world.inspectState plan.statePath = .ok plan.statePrecondition
  references : world.references = plan.referencePrecondition
  destinations : ∀ operation ∈ plan.operations,
    world.inspectPath operation.absoluteDestination = .ok operation.precondition

/-- What the forward phase touched before it raised. -/
structure UninstallTouched (plan : UninstallPlan) (world : World) (stopped : UninstallForward) :
    Prop where
  attempted : ∀ item ∈ stopped.attempted, item.1 ∈ plan.operations
  files : AgreeOutside (stopped.attempted.map (·.1.absoluteDestination)) stopped.world.files world.files
  manifests : AgreeOutside (if stopped.stateAttempted then [plan.statePath] else [])
    stopped.world.manifests world.manifests
  references : stopped.world.references = world.references
  resolves : stopped.world.resolves = world.resolves
  released : stopped.released = false

/-- The forward phase carries out the whole plan or raises before the release took effect. -/
theorem uninstallForward_cases {faults : UninstallFaults} {plan : UninstallPlan} {world : World}
    (hreviewed : AsReviewed world plan) :
    (∃ warning files, (uninstallForward faults plan world).result = .ok warning ∧
        (uninstallForward faults plan world).world =
          { world with
            files := files
            manifests := Function.update world.manifests plan.statePath
              (.file (installStateBytes plan.replacementState) false)
            references := plan.referenceReplacement } ∧
        ∀ before operation after, plan.operations = before ++ operation :: after →
          (∀ later ∈ after, later.mutation.changes = true →
            later.absoluteDestination ≠ operation.absoluteDestination) →
          MutationHolds (uninstallForward faults plan world).world operation) ∨
      (∃ message, (uninstallForward faults plan world).result = .error message ∧
        UninstallTouched plan world (uninstallForward faults plan world)) := by
  obtain ⟨tried, hattempted, hsub, _, hagree, hworld⟩ := applyUninstallOperations_frame faults
    plan.operations.zipIdx { world := world }
  simp only [List.nil_append] at hattempted
  have hmem : ∀ item ∈ tried, item.1 ∈ plan.operations := fun item hitem =>
    List.fst_mem_of_mem_zipIdx (hsub hitem)
  unfold uninstallForward
  simp only
  cases herror : (applyUninstallOperations faults plan.operations.zipIdx { world := world }).error with
  | some message =>
      refine Or.inr ⟨message, rfl, ⟨?_, ?_, ?_, ?_, ?_, rfl⟩⟩
      · rw [hattempted]
        exact hmem
      · rw [hattempted]
        exact hagree
      · rw [hworld]
        exact AgreeOutside.refl _ _
      · rw [hworld]
      · rw [hworld]
  | none =>
      obtain ⟨node, hwritten, hnode⟩ := replaceState_world faults plan
        (applyUninstallOperations faults plan.operations.zipIdx { world := world }).world
      simp only
      cases hfailed : (replaceState faults plan
          (applyUninstallOperations faults plan.operations.zipIdx { world := world }).world).2 with
      | some message =>
          refine Or.inr ⟨message, rfl, ⟨?_, ?_, ?_, ?_, ?_, rfl⟩⟩
          · rw [hattempted]
            exact hmem
          · rw [hattempted, hwritten]
            exact hagree
          · rw [hwritten, hworld]
            exact (AgreeOutside.refl _ _).update (by simp) node
          · rw [hwritten, hworld]
            rfl
          · rw [hwritten, hworld]
            rfl
      | none =>
          have hindex : (replaceState faults plan (applyUninstallOperations faults
              plan.operations.zipIdx { world := world }).world).1.references =
                plan.referencePrecondition := by
            rw [hwritten, hworld]
            exact hreviewed.references
          simp only
          rcases @releaseReference_cases _ faults.release plan _ hindex with
            ⟨warning, hresult, hreleased⟩ | ⟨message, hresult, hkept, hsame⟩
          · refine Or.inl ⟨warning, (applyUninstallOperations faults plan.operations.zipIdx
              { world := world }).world.files, hresult, ?_, ?_⟩
            · rw [hreleased, hwritten, hnode hfailed, hworld]
              rfl
            · intro before operation after hsplit hlast
              have hzip : plan.operations.zipIdx = before.zipIdx ++
                  (operation, before.length) :: after.zipIdx (before.length + 1) := by
                rw [hsplit, List.zipIdx_append]
                simp [List.zipIdx_cons]
              rw [hzip] at herror
              have hholds := applyUninstallOperations_holds rfl herror (by
                intro later hlater hchanges
                exact hlast later.1 (List.fst_mem_of_mem_zipIdx hlater) hchanges)
              refine hholds.congr fun _ => ?_
              rw [hreleased, hwritten, hzip]
              rfl
          · refine Or.inr ⟨message, hresult, ⟨?_, ?_, ?_, ?_, ?_, hkept⟩⟩
            · rw [hattempted]
              exact hmem
            · rw [hattempted, hsame, hwritten]
              exact hagree
            · rw [hsame, hwritten, hworld]
              exact (AgreeOutside.refl _ _).update (by simp) node
            · rw [hsame, hwritten, hworld]
              rfl
            · rw [hsame, hwritten, hworld]
              rfl

/-! ## All or nothing -/

/-- A rollback without errors restores destinations and manifest. -/
theorem rollbackUninstall_eq {faults : UninstallFaults} {plan : UninstallPlan} {world : World}
    {stopped : UninstallForward} (hreviewed : AsReviewed world plan)
    (htouched : UninstallTouched plan world stopped) :
    ∃ restored errors, rollbackUninstall faults plan stopped = some (restored, errors) ∧
      (errors = [] → restored =
        { stopped.world with files := world.files, manifests := world.manifests }) := by
  unfold rollbackUninstall
  rw [htouched.released]
  simp only [Bool.false_eq_true, if_false, Option.map_some, List.nil_append]
  refine ⟨_, _, rfl, ?_⟩
  intro herrors
  rw [List.append_eq_nil_iff] at herrors
  obtain ⟨hstateErrors, hoperationErrors⟩ := herrors
  have hstate : (if stopped.stateAttempted = true then rollbackState faults plan stopped.world
      else (stopped.world, [])).1 = { stopped.world with manifests := world.manifests } := by
    have hagree := htouched.manifests
    by_cases hattempted : stopped.stateAttempted = true
    · simp only [hattempted, if_true] at hstateErrors hagree ⊢
      unfold rollbackState at hstateErrors ⊢
      cases hstep : settle faults.restoreState (stopped.world.manifests plan.statePath)
          (restoredNode plan.statePrecondition) with
      | mk node failure =>
          cases failure with
          | some message => exact absurd hstateErrors (by simp [hstep])
          | none =>
              have hnode := settle_restored (inspectNode_eq_ok hreviewed.state).2 hstep
              have hrestored := restoreAll_eq hagree
              simp only [restoreAll] at hrestored
              simp only [World.setManifest, hnode, hrestored]
    · simp only [hattempted] at hagree ⊢
      have heq : stopped.world.manifests = world.manifests := by
        funext path
        exact hagree path (by simp)
      simp [← heq]
  have hobserved : ∀ item ∈ stopped.attempted.reverse, ∃ resolves,
      observe resolves (world.files item.1.absoluteDestination) = .ok item.1.precondition := by
    intro item hitem
    have hmem := htouched.attempted item (List.mem_reverse.mp hitem)
    exact ⟨_, (inspectNode_eq_ok (hreviewed.destinations item.1 hmem)).2⟩
  rw [rollbackOperations_eq world.files _ hobserved hoperationErrors, hstate]
  have hkeys : AgreeOutside (stopped.attempted.reverse.map (·.1.absoluteDestination))
      stopped.world.files world.files := by
    refine htouched.files.mono ?_
    intro path hpath
    simpa using hpath
  simp only [restoreAll_eq hkeys]

/-- The removal took place: every destination holds what the last operation that
changes it leaves there, the record is gone and the owner retains nothing. -/
structure Uninstalled (plan : UninstallPlan) (after : World) : Prop where
  removed : ∀ before operation rest, plan.operations = before ++ operation :: rest →
    (∀ later ∈ rest, later.mutation.changes = true →
      later.absoluteDestination ≠ operation.absoluteDestination) →
    match operation.mutation with
    | .none => True
    | .remove => after.inspectPath operation.absoluteDestination = .ok .absent
    | .write content => after.inspectPath operation.absoluteDestination = .ok (.file content false)
  state : after.inspectState plan.statePath =
      .ok (.file (installStateBytes plan.replacementState) false) ∨
    (plan.replacementState.installations = [] ∧ after.inspectState plan.statePath = .ok .absent)
  record : ∀ record ∈ plan.replacementState.installations, record.key ≠ plan.record.key
  references : after.references.ownerDigests .installed plan.referenceOwner = []

/-- Destinations, manifest and the owner's references are the reviewed ones. -/
structure Preserved (plan : UninstallPlan) (after : World) : Prop where
  destinations : ∀ operation ∈ plan.operations,
    after.inspectPath operation.absoluteDestination = .ok operation.precondition
  state : after.inspectState plan.statePath = .ok plan.statePrecondition
  references : after.references.ownerDigests .installed plan.referenceOwner =
    plan.referencePrecondition.ownerDigests .installed plan.referenceOwner

/-- The world of a carried out plan keeps the removal through the teardown. -/
theorem uninstalled_of_forward {faults : UninstallFaults} {plan : UninstallPlan} {world : World}
    {files : String → Node} (hreviewed : AsReviewed world plan) {reached : World}
    (hworld : reached = { world with
      files := files
      manifests := Function.update world.manifests plan.statePath
        (.file (installStateBytes plan.replacementState) false)
      references := plan.referenceReplacement })
    (hholds : ∀ before operation after, plan.operations = before ++ operation :: after →
      (∀ later ∈ after, later.mutation.changes = true →
        later.absoluteDestination ≠ operation.absoluteDestination) →
      MutationHolds reached operation) :
    Uninstalled plan (match plan.teardown with
      | none => (reached, "")
      | some teardown => tearDown faults teardown reached).1 := by
  have hstatePath := (inspectNode_eq_ok hreviewed.state).1
  -- Teardown or not, only directories and the reclaimed manifest differ from `reached`.
  have hframe : ∃ last manifests, (match plan.teardown with
        | none => (reached, "")
        | some teardown => tearDown faults teardown reached).1 =
          { reached with files := last, manifests := manifests } ∧
      (∀ other, (reached.files other).isDirectory = false → last other = reached.files other) ∧
      (manifests = reached.manifests ∨ (plan.replacementState.installations = [] ∧
        manifests = Function.update reached.manifests plan.statePath .absent)) := by
    cases hteardown : plan.teardown with
    | none => exact ⟨reached.files, reached.manifests, rfl, fun _ _ => rfl, Or.inl rfl⟩
    | some teardown =>
        obtain ⟨last, manifests, htorn, hkept, hmanifests⟩ := tearDown_frame faults teardown reached
        obtain ⟨hpath, hempty⟩ := plan.teardown_spec hteardown
        rw [hpath] at hmanifests
        exact ⟨last, manifests, htorn, hkept,
          hmanifests.imp_right fun h => ⟨hempty h.1, h.2⟩⟩
  obtain ⟨last, manifests, hlast, hkept, hmanifests⟩ := hframe
  rw [hlast]
  refine ⟨?_, ?_, ?_, ?_⟩
  · intro before operation after hsplit hlater
    have habsolute : isAbsolutePath operation.absoluteDestination = true :=
      (inspectNode_eq_ok (hreviewed.destinations operation (by simp [hsplit]))).1
    have hafter : MutationHolds { reached with files := last, manifests := manifests } operation :=
      (hholds before operation after hsplit hlater).congr (hkept _)
    unfold MutationHolds at hafter
    split
    · trivial
    · rename_i hmutation
      simp only [hmutation] at hafter
      simp [World.inspectPath, inspectNode, habsolute, hafter, observe]
    · rename_i content hmutation
      simp only [hmutation] at hafter
      simp [World.inspectPath, inspectNode, habsolute, hafter, observe]
  · rcases hmanifests with hsame | ⟨hempty, hreclaimed⟩
    · refine Or.inl ?_
      simp [World.inspectState, inspectNode, hstatePath, hsame, hworld, observe]
    · refine Or.inr ⟨hempty, ?_⟩
      simp [World.inspectState, inspectNode, hstatePath, hreclaimed, observe]
  · intro record hrecord
    obtain ⟨_, _, _, _, _, _, hspec⟩ := plan.replacementState_spec
    exact ((hspec record).mp hrecord).2
  · rw [hworld]
    exact ReferenceIndex.ownerDigests_without _ _ _

end Transaction

/-! ## Conflicts and shared destinations -/

section Sample

local instance : StandardLibrary := plainLibrary

/-- One record with two JSON effects in one file. -/
def sharedEffect (jsonPath : String) : EffectProof where
  kind := .mergeJson
  destination := ".mcp.json"
  actualMode := .copy
  installedDigest := ⟨"a7"⟩
  jsonPath := some jsonPath
  mergeMode := some .key
  identityDigest := some ⟨"b8"⟩

def sharedRecord : InstallationRecord :=
  { sampleRecord with effects := [sharedEffect "mcpServers", sharedEffect "servers"] }

def sharedState : InstallState := ⟨[sharedRecord], by decide, by decide⟩

local instance : ManifestCodec := tableCodec [sampleState, sharedState, emptyState]

/-- What the adapter does not promise: that a conflict means everything is as
reviewed, and that every operation of a removal is still in force at its end. -/
def RemovedOrPreserved (faults : UninstallFaults) (world : World) (plan : UninstallPlan) : Prop :=
  ∃ item, (applyUninstallPlan faults world plan).item = some item ∧
    ((item.status = .removed ∧ Uninstalled plan (applyUninstallPlan faults world plan).world ∧
        ∀ operation ∈ plan.operations,
          MutationHolds (applyUninstallPlan faults world plan).world operation) ∨
      ((item.status = .conflict ∨ item.status = .failed) ∧ (item.detail.rollbackErrors = [] →
        Preserved plan (applyUninstallPlan faults world plan).world)))

def sampleRemoval : UninstallOperation where
  effect := proofOf sampleOperation
  absoluteDestination := "/work/.claude/style.md"
  precondition := .file [35] false
  mutation := .remove

def sampleIndex : ReferenceIndex :=
  ⟨[⟨.installed, "project/team/guideline/style/claude", ⟨"c0ffee"⟩⟩], by simp⟩

def sampleUninstallData : UninstallPlanData where
  record := sampleRecord
  force := false
  operations := [sampleRemoval]
  statePath := "/work/.agent-artifacts/manifest.json"
  stateLockPath := "/work/.agent-artifacts/state.lock"
  statePrecondition := .file (installStateBytes sampleState) false
  replacementState := emptyState
  objectStorePaths := ⟨"/data"⟩
  referencePrecondition := sampleIndex
  terminal := none
  detail := ""

def sampleUninstall : UninstallPlan := ⟨sampleUninstallData, by decide⟩

/-- The two removals of the shared file, each computed from its reviewed content. -/
def sharedRemoval (jsonPath : String) (content : Bytes) : UninstallOperation where
  effect := sharedEffect jsonPath
  absoluteDestination := "/work/.mcp.json"
  precondition := .file [35] false
  mutation := .write content

def sharedUninstall : UninstallPlan where
  toUninstallPlanData :=
    { sampleUninstallData with
      record := sharedRecord
      operations := [sharedRemoval "mcpServers" [1], sharedRemoval "servers" [2]]
      statePrecondition := .file (installStateBytes sharedState) false }
  accepted := by decide

/-- A manifest and one file of the project. -/
def installedWorld (state : InstallState) (path : String) (content : Bytes) : World where
  files other := if other = path then .file content false else .absent
  manifests other :=
    if other = "/work/.agent-artifacts/manifest.json" then .file (installStateBytes state) false
    else .absent
  references := sampleIndex
  objects _ := none
  resolves _ _ := false
  direct _ _ := false

end Sample

end AgentArtifacts
