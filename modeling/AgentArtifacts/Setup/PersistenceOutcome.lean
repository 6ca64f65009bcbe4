import AgentArtifacts.Installation.Atomicity
import AgentArtifacts.Protocol.JsonText
import AgentArtifacts.Setup.Persistence

/-!
# What a failed persistence leaves

Of the three stores that `persist_setup` writes the reference index is not restored, and a
file is restored only where its write returned. So a failed call leaves everything as it
was exactly where the step that failed changed nothing itself.
-/

namespace AgentArtifacts.Setup

open Compensation

section Outcome

variable [StandardLibrary] [ManifestCodec] [Redaction] [PlainJson]

variable {faults : PersistFaults} {world : World} {plan : CanonicalSetupPlan} {record : SetupStateRecord}
  {expected : Option SetupStateRecord}

/-! ## The claim of the adapter -/

/-- The file has the record, the installation points at it and the object is retained. -/
structure Persisted (world : World) (plan : CanonicalSetupPlan) (record : SetupStateRecord) : Prop where
  file : ∃ content, recordBytes record = .ok content ∧ world.files plan.setupStatePath = .file content false
  pointer : ∃ state installation, world.manifests plan.installStatePath = .file (installStateBytes state) false ∧
    selectedRecord state plan.request = some installation ∧ installation.setupStateRef = some plan.setupStateRef
  references : plan.ownerDigests world.references = [plan.objectDigest]

/-- The setup file, the manifest and the references of the owner are as they were. -/
structure Untouched (before after : World) (plan : CanonicalSetupPlan) : Prop where
  file : after.files plan.setupStatePath = before.files plan.setupStatePath
  manifest : after.manifests plan.installStatePath = before.manifests plan.installStatePath
  references : plan.ownerDigests after.references = plan.ownerDigests before.references

def PersistReport.AllOrNothing (report : PersistReport) (before : World) (plan : CanonicalSetupPlan)
    (record : SetupStateRecord) : Prop :=
  match report.result with
  | .ok _ => Persisted report.world plan record
  | .error _ => Untouched before report.world plan

/-! ## How far a call comes -/

/-- The call comes to the write of the setup file. -/
def ReachesSetup (faults : PersistFaults) (world : World) (plan : CanonicalSetupPlan) (record : SetupStateRecord)
    (expected : Option SetupStateRecord) : Prop :=
  faults.lock = none ∧ ∃ found state content, inspectSetup faults world plan expected = .ok found ∧
    pointedState plan found = .ok state ∧ recordBytes record = .ok content

/-- A node that a file can be moved over. -/
def replaceable : Node → Bool
  | .directory _ => false
  | .unreadable _ => false
  | _ => true

/-- The call comes to the write of the manifest. -/
def ReachesInstall (faults : PersistFaults) (world : World) (plan : CanonicalSetupPlan) (record : SetupStateRecord)
    (expected : Option SetupStateRecord) : Prop :=
  ReachesSetup faults world plan record expected ∧ faults.setup = none ∧
    replaceable (world.files plan.setupStatePath) = true

/-- The call comes to the update of the references. -/
def ReachesReferences (faults : PersistFaults) (world : World) (plan : CanonicalSetupPlan) (record : SetupStateRecord)
    (expected : Option SetupStateRecord) : Prop :=
  ReachesInstall faults world plan record expected ∧ faults.install = none

/-- The references are written, and the call fails after that. -/
def FailsAfterReferences (faults : PersistFaults) (world : World) (plan : CanonicalSetupPlan) : Prop :=
  (world.references.replace .setup plan.setupReferenceOwner [plan.objectDigest]).isSome = true ∧
    ((∃ diagnostics, faults.references = .after diagnostics) ∨
      faults.references = .none ∧ faults.unlock.isSome = true)

/-- A write that fails leaves what was there, and where the call fails after the references
are written they were the same before. -/
structure LeavesNothing (faults : PersistFaults) (world : World) (plan : CanonicalSetupPlan)
    (record : SetupStateRecord) (expected : Option SetupStateRecord) : Prop where
  setup : ∀ fault, faults.setup = some fault → ReachesSetup faults world plan record expected →
    fault.left = world.files plan.setupStatePath
  install : ∀ fault, faults.install = some fault → ReachesInstall faults world plan record expected →
    fault.left = world.manifests plan.installStatePath
  references : ReachesReferences faults world plan record expected → FailsAfterReferences faults world plan →
    plan.ownerDigests world.references = [plan.objectDigest]

/-! ## Inspection -/

omit [Redaction] in
/-- What a call that may go on found. -/
theorem inspectSetup_eq_ok {found : Inspection} (h : inspectSetup faults world plan expected = .ok found) :
    world.readState plan.installStatePath = .ok (some found.state) ∧
      selectedRecord found.state plan.request = some found.current ∧
      (found.current = plan.installation ∨ found.current = plan.pointed plan.installation) ∧
      world.inspectPath plan.setupStatePath = .ok found.setupBefore ∧
      world.inspectState plan.installStatePath = .ok found.installBefore ∧
      faults.readReferences = none ∧ stateMatches plan found.setupBefore expected = true ∧
      plan.ownerDigests world.references = plan.setupReferencePrecondition := by
  unfold inspectSetup at h
  split at h
  · rename_i state hstate
    split at h
    · rename_i current hcurrent
      split at h
      · cases h
      · rename_i hknown
        split at h
        · rename_i setupBefore installBefore hsetup hinstall hreferences
          split at h
          · rename_i hmatches
            obtain rfl := Except.ok.inj h
            rw [Bool.and_eq_true, beq_iff_eq] at hmatches
            exact ⟨hstate, hcurrent, by tauto, hsetup, hinstall, hreferences, hmatches⟩
          · cases h
        · cases h
    · cases h
  · cases h

end Outcome

section Nodes

variable [StandardLibrary] {world : World}

/-- A node that was inspected, as it was observed. -/
theorem observe_of_inspectPath {path : String} {observed : Observed} (h : world.inspectPath path = .ok observed) :
    observe (world.resolves path) (world.files path) = .ok observed :=
  (inspectNode_eq_ok h).2

theorem observe_of_inspectState {path : String} {observed : Observed} (h : world.inspectState path = .ok observed) :
    observe (world.resolves path) (world.manifests path) = .ok observed :=
  (inspectNode_eq_ok h).2

/-- A manifest that was read is a file. -/
theorem manifest_of_readState [ManifestCodec] {path : String} {state : InstallState}
    (h : world.readState path = .ok (some state)) :
    ∃ content executable, world.manifests path = .file content executable := by
  obtain ⟨observed, hobserved, hread⟩ := Result.of_bind_ok h
  cases observed with
  | file content executable =>
      exact ⟨content, executable, node_of_observe_file (observe_of_inspectState hobserved)⟩
  | absent => cases hread
  | tree tree => cases hread
  | symlink target found => cases hread
  | special digest => cases hread

/-- One file put back is as it was, whatever was written over it. -/
theorem restoreFiles_one {fault : Option WriteFault} {path label : String} {snapshot : Observed}
    {resolves : String → Bool} {initial files : String → Node} {node : Node}
    (hobserved : observe resolves (initial path) = .ok snapshot) (hfiles : files = Function.update initial path node)
    (herrors : (restoreFiles (fun _ => fault) [⟨path, label, snapshot⟩] files).2 = []) :
    (restoreFiles (fun _ => fault) [⟨path, label, snapshot⟩] files).1 = initial := by
  have hrestored := restoreFiles_eq initial files (by simpa using ⟨resolves, hobserved⟩) herrors
  rw [hrestored, List.map_singleton, restoreAll, restoreAll, hfiles, Function.update_idem, Function.update_eq_self]

omit [StandardLibrary] in
theorem atomicWrite_eq (content : Bytes) (node : Node) :
    (replaceable node = true ∧ atomicWrite content node = .ok (.file content false)) ∨
      replaceable node = false ∧ ∃ message, atomicWrite content node = .error message := by
  cases node with
  | directory tree => exact Or.inr ⟨rfl, _, rfl⟩
  | unreadable reason => exact Or.inr ⟨rfl, _, rfl⟩
  | absent => exact Or.inl ⟨rfl, rfl⟩
  | file old executable => exact Or.inl ⟨rfl, rfl⟩
  | symlink target => exact Or.inl ⟨rfl, rfl⟩
  | special digest => exact Or.inl ⟨rfl, rfl⟩

omit [StandardLibrary] in
/-- How an atomic write ends, and what it leaves. -/
theorem settle_atomicWrite (fault : Option WriteFault) (content : Bytes) (node : Node) :
    (∃ failed, fault = some failed ∧ settle fault node (atomicWrite content node) = (failed.left, some failed.message)) ∨
      (fault = none ∧ replaceable node = false ∧
        ∃ message, settle fault node (atomicWrite content node) = (node, some message)) ∨
      (fault = none ∧ replaceable node = true ∧
        settle fault node (atomicWrite content node) = (.file content false, none)) := by
  cases fault with
  | some failed => exact Or.inl ⟨failed, rfl, rfl⟩
  | none =>
      rcases atomicWrite_eq content node with ⟨hfree, hwrite⟩ | ⟨hblocked, message, hwrite⟩
      · exact Or.inr (Or.inr ⟨rfl, hfree, by rw [hwrite, settle]⟩)
      · exact Or.inr (Or.inl ⟨rfl, hblocked, message, by rw [hwrite, settle]⟩)

end Nodes

section Outcome

variable [StandardLibrary] [ManifestCodec] [Redaction] [PlainJson]

variable {faults : PersistFaults} {world : World} {plan : CanonicalSetupPlan} {record : SetupStateRecord}
  {expected : Option SetupStateRecord}

/-! ## The writes -/

/-- The world with both files written. -/
def bothWritten (world : World) (plan : CanonicalSetupPlan) (content : Bytes) (state : InstallState) : World :=
  (world.setFile plan.setupStatePath (.file content false)).setManifest plan.installStatePath
    (.file (installStateBytes state) false)

omit [StandardLibrary] [Redaction] [PlainJson] in
/-- How the writes end: at the setup file, at the manifest, or with the references. -/
theorem writeAll_cases (faults : PersistFaults) (world : World) (plan : CanonicalSetupPlan) (content : Bytes)
    (state : InstallState) :
    (∃ node message, writeAll faults world plan content state =
        { world := world.setFile plan.setupStatePath node, raised := some message } ∧
        ((∃ fault, faults.setup = some fault ∧ node = fault.left) ∨
          faults.setup = none ∧ replaceable (world.files plan.setupStatePath) = false ∧
            node = world.files plan.setupStatePath)) ∨
      ((faults.setup = none ∧ replaceable (world.files plan.setupStatePath) = true) ∧
        ∃ node message, writeAll faults world plan content state =
          { world := (world.setFile plan.setupStatePath (.file content false)).setManifest plan.installStatePath node,
            wroteSetup := true, raised := some message } ∧
          ((∃ fault, faults.install = some fault ∧ node = fault.left) ∨
            faults.install = none ∧ replaceable (world.manifests plan.installStatePath) = false ∧
              node = world.manifests plan.installStatePath)) ∨
      (faults.setup = none ∧ replaceable (world.files plan.setupStatePath) = true) ∧ faults.install = none ∧
        writeAll faults world plan content state =
          { world := (updateReferences faults.references (bothWritten world plan content state) .setup
              plan.setupReferenceOwner [plan.objectDigest] "cannot retain setup object reference").1,
            wroteSetup := true, wroteInstall := true,
            raised := (updateReferences faults.references (bothWritten world plan content state) .setup
              plan.setupReferenceOwner [plan.objectDigest] "cannot retain setup object reference").2.map
                Raised.message } := by
  unfold writeAll
  rcases settle_atomicWrite faults.setup content (world.files plan.setupStatePath) with
    ⟨fault, hfault, hsettle⟩ | ⟨hnone, hblocked, message, hsettle⟩ | ⟨hnone, hfree, hsettle⟩
  · exact Or.inl ⟨fault.left, fault.message, by simp only [hsettle], Or.inl ⟨fault, hfault, rfl⟩⟩
  · exact Or.inl ⟨_, message, by simp only [hsettle], Or.inr ⟨hnone, hblocked, rfl⟩⟩
  · refine Or.inr ?_
    simp only [hsettle, World.setFile_manifests]
    rcases settle_atomicWrite faults.install (installStateBytes state) (world.manifests plan.installStatePath) with
      ⟨fault, hfault, hinstall⟩ | ⟨hintact, hblocked, message, hinstall⟩ | ⟨hintact, _, hinstall⟩
    · exact Or.inl ⟨⟨hnone, hfree⟩, fault.left, fault.message, by simp only [hinstall], Or.inl ⟨fault, hfault, rfl⟩⟩
    · exact Or.inl ⟨⟨hnone, hfree⟩, _, message, by simp only [hinstall], Or.inr ⟨hintact, hblocked, rfl⟩⟩
    · refine Or.inr ⟨⟨hnone, hfree⟩, hintact, ?_⟩
      simp only [hinstall, bothWritten]

/-! ## What the restores leave -/

variable {found : Inspection} {written : Written} {message : String} {content : Bytes} {state : InstallState}

omit [ManifestCodec] [Redaction] [PlainJson] in
theorem compensate_installFailed {node other : Node} {raised : Option String}
    (hsetup : world.inspectPath plan.setupStatePath = .ok found.setupBefore)
    (hwritten : written = { world := (world.setFile plan.setupStatePath node).setManifest plan.installStatePath other,
                            wroteSetup := true, raised := raised })
    (herrors : (compensate faults plan found written message).restoreErrors = []) :
    (compensate faults plan found written message).world = world.setManifest plan.installStatePath other := by
  subst hwritten
  have hfiles := restoreFiles_one (observe_of_inspectPath hsetup) rfl (by simpa [compensate] using herrors)
  simp only [compensate, Bool.false_eq_true, if_false, if_true, World.setManifest_files, World.setFile_files, hfiles]
  rfl

omit [Redaction] [PlainJson] in
theorem compensate_referencesFailed {index : ReferenceIndex} {raised : Option String}
    (hsetup : world.inspectPath plan.setupStatePath = .ok found.setupBefore)
    (hinstall : world.inspectState plan.installStatePath = .ok found.installBefore)
    (hwritten : written = { world := (bothWritten world plan content state).setReferences index, wroteSetup := true,
                            wroteInstall := true, raised := raised })
    (herrors : (compensate faults plan found written message).restoreErrors = []) :
    (compensate faults plan found written message).world = world.setReferences index := by
  subst hwritten
  simp only [compensate, bothWritten, if_true, List.append_eq_nil_iff, World.setReferences_manifests,
    World.setReferences_files, World.setManifest_manifests, World.setManifest_files, World.setFile_manifests,
    World.setFile_files] at herrors ⊢
  rw [restoreFiles_one (observe_of_inspectPath hsetup) rfl herrors.2,
    restoreFiles_one (observe_of_inspectState hinstall) rfl herrors.1]
  rfl

/-! ## The references -/

omit [StandardLibrary] [ManifestCodec] [Redaction] [PlainJson] in
/-- An update that failed either left the index or replaced the set of the owner. -/
theorem updateReferences_failed {next : World} (hnext : next.references = world.references)
    (hfailed : faults.unlock.isSome = true ∨ (updateReferences faults.references next .setup plan.setupReferenceOwner
      [plan.objectDigest] "cannot retain setup object reference").2 ≠ none) :
    ∃ index, (updateReferences faults.references next .setup plan.setupReferenceOwner [plan.objectDigest]
        "cannot retain setup object reference").1 = next.setReferences index ∧
      (plan.ownerDigests index = plan.ownerDigests world.references ↔
        (FailsAfterReferences faults world plan → plan.ownerDigests world.references = [plan.objectDigest])) := by
  have hkept (h : ¬ FailsAfterReferences faults world plan) :
      plan.ownerDigests world.references = plan.ownerDigests world.references ↔
        (FailsAfterReferences faults world plan → plan.ownerDigests world.references = [plan.objectDigest]) :=
    ⟨fun _ hfails => absurd hfails h, fun _ => rfl⟩
  have hreplaced {index : ReferenceIndex}
      (hindex : world.references.replace .setup plan.setupReferenceOwner [plan.objectDigest] = some index)
      (h : FailsAfterReferences faults world plan) :
      plan.ownerDigests index = plan.ownerDigests world.references ↔
        (FailsAfterReferences faults world plan → plan.ownerDigests world.references = [plan.objectDigest]) := by
    have hsingle : plan.ownerDigests index = [plan.objectDigest] := ReferenceIndex.ownerDigests_replace_single hindex
    rw [hsingle]
    exact ⟨fun heq _ => heq.symm, fun hsame => (hsame h).symm⟩
  have hself : next.setReferences world.references = next := by
    rw [← hnext]
    rfl
  unfold updateReferences replaceReferences at hfailed ⊢
  rw [hnext] at hfailed ⊢
  cases hfault : faults.references with
  | before diagnostics =>
      refine ⟨world.references, rfl, hkept ?_⟩
      rintro ⟨_, ⟨_, hafter⟩ | ⟨hnone, _⟩⟩
      · rw [hfault] at hafter
        cases hafter
      · rw [hfault] at hnone
        cases hnone
  | none =>
      cases hindex : world.references.replace .setup plan.setupReferenceOwner [plan.objectDigest] with
      | none =>
          refine ⟨world.references, hself.symm, hkept fun hfails => ?_⟩
          rw [FailsAfterReferences, hindex] at hfails
          exact absurd hfails.1 (by decide)
      | some index =>
          simp only [hfault, hindex, Option.map_some, ne_eq, not_true_eq_false, or_false] at hfailed
          exact ⟨index, rfl, hreplaced hindex ⟨by rw [hindex]; rfl, Or.inr ⟨hfault, hfailed⟩⟩⟩
  | after diagnostics =>
      cases hindex : world.references.replace .setup plan.setupReferenceOwner [plan.objectDigest] with
      | none =>
          refine ⟨world.references, hself.symm, hkept fun hfails => ?_⟩
          rw [FailsAfterReferences, hindex] at hfails
          exact absurd hfails.1 (by decide)
      | some index => exact ⟨index, rfl, hreplaced hindex ⟨by rw [hindex]; rfl, Or.inl ⟨_, hfault⟩⟩⟩

/-! ## Success -/

omit [StandardLibrary] [ManifestCodec] [Redaction] [PlainJson] in
theorem key_of_isFor {item : InstallationRecord} {request : SetupRequest}
    (h : item.isFor request.source request.identity request.profile request.scope = true) :
    item.key = ⟨request.coordinate.str, request.profile.value, request.scope.value⟩ := by
  simp only [InstallationRecord.isFor, Bool.and_eq_true, beq_iff_eq] at h
  obtain ⟨⟨⟨hsource, hidentity⟩, hprofile⟩, hscope⟩ := h
  rw [InstallationRecord.key, InstallationRecord.coordinate, SetupRequest.coordinate, hsource, hidentity, hprofile, hscope]

omit [StandardLibrary] [ManifestCodec] [Redaction] [PlainJson] in
/-- The installation that the new manifest selects points at the record. -/
theorem selected_of_pointedState (hselected : selectedRecord found.state plan.request = some found.current)
    (h : pointedState plan found = .ok state) :
    selectedRecord state plan.request = some (plan.pointed found.current) := by
  unfold pointedState at h
  split at h
  · have hfound : found.state.installations.find? (fun item => item.isFor plan.request.source plan.request.identity
        plan.request.profile plan.request.scope) = some found.current := hselected
    have hfor := List.find?_some hfound
    have hmem : plan.pointed found.current ∈ state.installations := by
      refine (InstallState.mem_make h _).mpr (List.mem_map.mpr ⟨found.current, List.mem_of_find?_eq_some hfound, ?_⟩)
      exact if_pos rfl
    cases hfind : selectedRecord state plan.request with
    | none =>
        have hnone := List.find?_eq_none.mp hfind (plan.pointed found.current) hmem
        exact absurd hfor hnone
    | some other =>
        have hother := List.find?_some hfind
        have hkey : (plan.pointed found.current).key = _ := key_of_isFor hfor
        have hsame := state.eq_of_key_eq (List.mem_of_find?_eq_some hfind) hmem
          ((key_of_isFor hother).trans hkey.symm)
        rw [hsame]
  · cases h

omit [StandardLibrary] in
theorem persisted_of_written (hselected : selectedRecord found.state plan.request = some found.current)
    (hstate : pointedState plan found = .ok state) (hcontent : recordBytes record = .ok content)
    (hdone : (updateReferences faults.references (bothWritten world plan content state) .setup plan.setupReferenceOwner
      [plan.objectDigest] "cannot retain setup object reference").2 = none) :
    Persisted (updateReferences faults.references (bothWritten world plan content state) .setup plan.setupReferenceOwner
      [plan.objectDigest] "cannot retain setup object reference").1 plan record := by
  obtain ⟨hfault, index, hindex⟩ := updateReferences_succeeds_iff.mp hdone
  have hworld : (updateReferences faults.references (bothWritten world plan content state) .setup
      plan.setupReferenceOwner [plan.objectDigest] "cannot retain setup object reference").1 =
        (bothWritten world plan content state).setReferences index := by
    unfold updateReferences replaceReferences
    rw [hfault]
    simp only [hindex, Option.map_some]
  rw [hworld]
  refine ⟨⟨content, hcontent, ?_⟩, ⟨state, _, ?_, selected_of_pointedState hselected hstate, rfl⟩, ?_⟩
  · simp [bothWritten]
  · simp [bothWritten]
  · exact ReferenceIndex.ownerDigests_replace_single hindex

/-! ## The call -/

theorem leavesNothing_of_not (h : ¬ ReachesSetup faults world plan record expected) :
    LeavesNothing faults world plan record expected where
  setup _ _ hreaches := absurd hreaches h
  install _ _ hreaches := absurd hreaches.1 h
  references hreaches := absurd hreaches.1.1 h

/-- A call that stops before the writes leaves the world. -/
theorem persistSetup_stopped (h : ¬ ReachesSetup faults world plan record expected) :
    (persistSetup faults world plan record expected).AllOrNothing world plan record := by
  have huntouched (diagnostics : List Diagnostic) (errors : List String) :
      PersistReport.AllOrNothing ⟨world, .error diagnostics, errors⟩ world plan record := ⟨rfl, rfl, rfl⟩
  unfold persistSetup
  cases hlock : faults.lock with
  | some message => exact huntouched _ _
  | none =>
      cases hinspect : inspectSetup faults world plan expected with
      | error diagnostics =>
          cases hunlock : faults.unlock with
          | some message => exact huntouched _ _
          | none => exact huntouched _ _
      | ok found =>
          have hwritten : ∃ message, writeSetup faults world plan record found = { world, raised := some message } := by
            unfold writeSetup
            cases hstate : pointedState plan found with
            | error message => exact ⟨message, rfl⟩
            | ok state =>
                cases hcontent : recordBytes record with
                | error message => exact ⟨message, rfl⟩
                | ok content => exact absurd ⟨hlock, found, state, content, hinspect, hstate, hcontent⟩ h
          obtain ⟨message, hwritten⟩ := hwritten
          simp only [hwritten]
          cases hunlock : faults.unlock with
          | some other => exact huntouched _ _
          | none => exact huntouched _ _

/-- A call that comes to the writes ends as they do. -/
theorem persistSetup_eq (hlock : faults.lock = none) (hinspect : inspectSetup faults world plan expected = .ok found)
    (hstate : pointedState plan found = .ok state) (hcontent : recordBytes record = .ok content) :
    persistSetup faults world plan record expected =
      match faults.unlock <|> (writeAll faults world plan content state).raised with
      | some message => compensate faults plan found (writeAll faults world plan content state) message
      | none => ⟨(writeAll faults world plan content state).world, .ok (), []⟩ := by
  have hwritten : writeSetup faults world plan record found = writeAll faults world plan content state := by
    rw [writeSetup, hstate, hcontent]
  rw [persistSetup, hlock, hinspect, ← hwritten]
  all_goals rfl

omit [StandardLibrary] [ManifestCodec] [Redaction] [PlainJson] in
theorem raised_some (message : String) : ∃ first, (faults.unlock <|> some message) = some first := by
  cases faults.unlock with
  | none => exact ⟨message, rfl⟩
  | some first => exact ⟨first, rfl⟩

omit [StandardLibrary] in
/-- A failed call is nothing where the three stores are as before. -/
theorem compensate_allOrNothing_iff {written : Written} :
    (compensate faults plan found written message).AllOrNothing world plan record ↔
      Untouched world (compensate faults plan found written message).world plan := Iff.rfl

omit [StandardLibrary] [ManifestCodec] [Redaction] [PlainJson] in
theorem untouched_setFile_iff {node : Node} :
    Untouched world (world.setFile plan.setupStatePath node) plan ↔ node = world.files plan.setupStatePath := by
  refine ⟨fun h => ?_, fun h => ⟨?_, rfl, rfl⟩⟩
  · have hfile := h.file
    simpa using hfile
  · simpa using h

omit [StandardLibrary] [ManifestCodec] [Redaction] [PlainJson] in
theorem untouched_setManifest_iff {node : Node} :
    Untouched world (world.setManifest plan.installStatePath node) plan ↔
      node = world.manifests plan.installStatePath := by
  refine ⟨fun h => ?_, fun h => ⟨rfl, ?_, rfl⟩⟩
  · have hmanifest := h.manifest
    simpa using hmanifest
  · simpa using h

omit [StandardLibrary] [ManifestCodec] [Redaction] [PlainJson] in
theorem untouched_setReferences_iff {index : ReferenceIndex} :
    Untouched world (world.setReferences index) plan ↔
      plan.ownerDigests index = plan.ownerDigests world.references :=
  ⟨fun h => h.references, fun h => ⟨rfl, rfl, h⟩⟩

/-- A persistence whose restores succeed is all or nothing exactly where the step that
fails leaves nothing of its own. -/
theorem persistSetup_allOrNothing_iff
    (hrestore : (persistSetup faults world plan record expected).restoreErrors = []) :
    (persistSetup faults world plan record expected).AllOrNothing world plan record ↔
      LeavesNothing faults world plan record expected := by
  by_cases hreaches : ReachesSetup faults world plan record expected
  swap
  · exact iff_of_true (persistSetup_stopped hreaches) (leavesNothing_of_not hreaches)
  obtain ⟨hlock, found, state, content, hinspect, hstate, hcontent⟩ := id hreaches
  obtain ⟨hread, hselected, -, hsetup, hinstall, -⟩ := inspectSetup_eq_ok hinspect
  rw [persistSetup_eq hlock hinspect hstate hcontent] at hrestore ⊢
  rcases writeAll_cases faults world plan content state with
    ⟨node, message, hwritten, hnode⟩ | ⟨hrecorded, node, message, hwritten, hnode⟩ | ⟨hrecorded, hintact, hwritten⟩
  · -- The setup file is not written, so nothing is put back.
    obtain ⟨first, hfirst⟩ : ∃ first, (faults.unlock <|> some message) = some first := raised_some message
    simp only [hwritten, hfirst, compensate_allOrNothing_iff] at hrestore ⊢
    change Untouched world (world.setFile plan.setupStatePath node) plan ↔ _
    rw [untouched_setFile_iff]
    rcases hnode with ⟨fault, hfault, rfl⟩ | ⟨hnone, hblocked, rfl⟩
    · refine ⟨fun hleft => ⟨?_, ?_, ?_⟩, fun h => h.setup fault hfault hreaches⟩
      · intro other hother _
        rw [hfault] at hother
        obtain rfl := Option.some.inj hother
        exact hleft
      · intro other _ hinstalls
        exact absurd (hfault.symm.trans hinstalls.2.1) (by simp)
      · intro hreferences
        exact absurd (hfault.symm.trans hreferences.1.2.1) (by simp)
    · refine iff_of_true rfl ⟨?_, ?_, ?_⟩
      · intro other hother
        exact absurd (hnone.symm.trans hother) (by simp)
      · intro other _ hinstalls
        exact absurd (hblocked.symm.trans hinstalls.2.2) (by simp)
      · intro hreferences
        exact absurd (hblocked.symm.trans hreferences.1.2.2) (by simp)
  · -- The setup file is put back, and the manifest stays as the failed write left it.
    obtain ⟨first, hfirst⟩ : ∃ first, (faults.unlock <|> some message) = some first := raised_some message
    simp only [hwritten, hfirst, compensate_allOrNothing_iff] at hrestore ⊢
    rw [compensate_installFailed hsetup rfl hrestore, untouched_setManifest_iff]
    rcases hnode with ⟨fault, hfault, rfl⟩ | ⟨_, hblocked, _⟩
    · refine ⟨fun hleft => ⟨?_, ?_, ?_⟩, fun h => h.install fault hfault ⟨hreaches, hrecorded⟩⟩
      · intro other hother
        exact absurd (hrecorded.1.symm.trans hother) (by simp)
      · intro other hother _
        rw [hfault] at hother
        obtain rfl := Option.some.inj hother
        exact hleft
      · intro hreferences
        exact absurd (hfault.symm.trans hreferences.2) (by simp)
    · obtain ⟨old, executable, hmanifest⟩ := manifest_of_readState hread
      rw [hmanifest] at hblocked
      cases hblocked
  · have hcomes : ReachesReferences faults world plan record expected := ⟨⟨hreaches, hrecorded⟩, hintact⟩
    have hleaves : LeavesNothing faults world plan record expected ↔
        (FailsAfterReferences faults world plan → plan.ownerDigests world.references = [plan.objectDigest]) := by
      refine ⟨fun h => h.references hcomes, fun h => ⟨?_, ?_, fun _ => h⟩⟩
      · intro other hother
        exact absurd (hrecorded.1.symm.trans hother) (by simp)
      · intro other hother
        exact absurd (hintact.symm.trans hother) (by simp)
    rw [hleaves]
    simp only [hwritten] at hrestore ⊢
    cases hraised : faults.unlock <|> (updateReferences faults.references (bothWritten world plan content state) .setup
        plan.setupReferenceOwner [plan.objectDigest] "cannot retain setup object reference").2.map Raised.message with
    | some first =>
        simp only [hraised, compensate_allOrNothing_iff] at hrestore ⊢
        have hfailed : faults.unlock.isSome = true ∨ (updateReferences faults.references
            (bothWritten world plan content state) .setup plan.setupReferenceOwner [plan.objectDigest]
            "cannot retain setup object reference").2 ≠ none := by
          cases hunlock : faults.unlock with
          | some other => exact Or.inl rfl
          | none =>
              refine Or.inr fun hnone => ?_
              rw [hunlock, hnone] at hraised
              cases hraised
        obtain ⟨index, hindex, hdigests⟩ := updateReferences_failed rfl hfailed
        rw [hindex] at hrestore ⊢
        rw [compensate_referencesFailed hsetup hinstall rfl hrestore, untouched_setReferences_iff]
        exact hdigests
    | none =>
        obtain ⟨hunlock, hdone⟩ : faults.unlock = none ∧ (updateReferences faults.references
            (bothWritten world plan content state) .setup plan.setupReferenceOwner [plan.objectDigest]
            "cannot retain setup object reference").2 = none := by
          cases hunlock : faults.unlock with
          | some other =>
              rw [hunlock] at hraised
              cases hraised
          | none =>
              rw [hunlock] at hraised
              exact ⟨rfl, Option.map_eq_none_iff.mp hraised⟩
        refine iff_of_true (persisted_of_written hselected hstate hcontent hdone) ?_
        rintro ⟨_, ⟨diagnostics, hafter⟩ | ⟨_, hfails⟩⟩
        · rw [(updateReferences_succeeds_iff.mp hdone).1] at hafter
          cases hafter
        · rw [hunlock] at hfails
          cases hfails

end Outcome

/-! ## A retained reference -/

section Sample

local instance : StandardLibrary := plainLibrary

local instance : ManifestCodec := tableCodec [sampleState]

local instance : Redaction := ⟨id⟩

local instance : PlainJson where
  loads text := (JsonText.loads text).toOption
  dumps := JsonText.dumpsIndent
  intOfText text := text.toInt?

def sampleInstaller : SetupInstaller where
  artifact := "guideline/style"
  platforms := ["darwin"]
  requiredTools := []
  inputs := []
  steps := [⟨"mcp", "json.managed-merge@1", []⟩]
  descriptorPath := "setup/installer.toml"
  descriptorHash := "a1"

def sampleSetupPlan : CanonicalSetupPlan where
  request := ⟨sampleSource.sourceAlias, sampleArtifact.identity, sampleProfile, .project, false, false, "darwin"⟩
  installation := sampleRecord
  installStatePath := "/work/.agent-artifacts/manifest.json"
  installStateLockPath := "/work/.agent-artifacts/state.lock"
  trust := "local"
  trustEvidenceDigest := ⟨"e4"⟩
  policyDigest := ⟨"f5"⟩
  objectStorePaths := ⟨"/data"⟩
  objectCandidate := sampleObject
  objectRoot := "/data/objects/sha256/c0/ffee"
  objectDigest := ⟨"c0ffee"⟩
  recipePath := ⟨["setup", "installer.toml"]⟩
  recipeDigest := ⟨"a1"⟩
  customEntrypointPath := none
  customEntrypointDigest := none
  capabilities := []
  capabilityPlanDigest := ⟨"b2"⟩
  legacyPlan := ⟨⟨.guideline, "style", "claude", .project, "team", "/srv/team", sampleInstaller, ""⟩, [], "", "", "", "", none, ""⟩
  setupStateRef := "setup-style"
  setupStatePath := "/work/.agent-artifacts/setup/setup-style.json"
  setupStatePrecondition := .absent
  previousRecord := none
  setupReferenceOwner := "project/team/guideline/style/claude"
  setupReferencePrecondition := []
  reviewDigest := ⟨"d3"⟩

def sampleSetupRecord : SetupStateRecord where
  artifactType := .guideline
  artifactName := "style"
  profile := "claude"
  scope := .project
  status := .configured
  detail := ""

/-- The guideline is installed; its setup has not run. -/
def installedWorld : World :=
  sampleWorld.setManifest "/work/.agent-artifacts/manifest.json" (.file (installStateBytes sampleState) false)

/-- The reference is written, then releasing the store lease fails: the call fails, both files are
put back, and the reference of the owner stays. -/
theorem persistSetup_keeps_reference :
    (persistSetup { references := .after [⟨⟨"store-lock-release"⟩, "lease was lost"⟩] } installedWorld sampleSetupPlan
        sampleSetupRecord none).restoreErrors = [] ∧
      ¬ (persistSetup { references := .after [⟨⟨"store-lock-release"⟩, "lease was lost"⟩] } installedWorld
        sampleSetupPlan sampleSetupRecord none).AllOrNothing installedWorld sampleSetupPlan sampleSetupRecord := by
  refine ⟨by decide, ?_⟩
  intro hall
  have huntouched : Untouched installedWorld (persistSetup
      { references := .after [⟨⟨"store-lock-release"⟩, "lease was lost"⟩] } installedWorld sampleSetupPlan
      sampleSetupRecord none).world sampleSetupPlan := hall
  exact absurd huntouched.references (by decide)

/-- A setup file that cannot be written fails the call and leaves everything as it was. -/
theorem persistSetup_allOrNothing_failed_write :
    (persistSetup { setup := some ⟨.absent, "disk full"⟩ } installedWorld sampleSetupPlan sampleSetupRecord
      none).AllOrNothing installedWorld sampleSetupPlan sampleSetupRecord := by
  have hrestore : (persistSetup { setup := some ⟨.absent, "disk full"⟩ } installedWorld sampleSetupPlan
      sampleSetupRecord none).restoreErrors = [] := by decide
  have hleaves : LeavesNothing { setup := some ⟨.absent, "disk full"⟩ } installedWorld sampleSetupPlan
      sampleSetupRecord none := by
    refine ⟨?_, ?_, ?_⟩
    · intro fault hfault _
      obtain rfl := Option.some.inj hfault
      rfl
    · intro fault hfault
      cases hfault
    · intro hreaches
      exact absurd hreaches.1.2.1 (by decide)
  exact (persistSetup_allOrNothing_iff hrestore).mpr hleaves

end Sample

end AgentArtifacts.Setup
