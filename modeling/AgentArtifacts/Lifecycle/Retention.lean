import Mathlib.Logic.Relation
import AgentArtifacts.Installation.Success
import AgentArtifacts.Lifecycle.Success

/-!
# Recorded installations and the objects they name

The manifests of any number of projects and of the user scope share one object
store and one reference index. An installation retains its object under an owner
that names scope, source, artifact and profile but not the project, so an
operation in one project replaces the reference another project relies on. As
long as no operation meets a record of the same owner in another manifest, every
record keeps its object through every run.
-/

namespace AgentArtifacts

section Retention

variable [StandardLibrary] [ManifestCodec]

/-! ## Recorded installations -/

/-- A manifest of the world holds the record. -/
def RecordedAt (world : World) (path : String) (record : InstallationRecord) : Prop :=
  ∃ content executable state, world.manifests path = .file content executable ∧
    parseInstallState content = .ok state ∧ record ∈ state.installations

variable {path : String} {record : InstallationRecord}

omit [StandardLibrary] in
/-- A manifest written by the store holds the records that were written. -/
theorem recordedAt_written {world : World} {state : InstallState} {executable : Bool}
    (hmanifest : world.manifests path = .file (installStateBytes state) executable)
    (h : RecordedAt world path record) : record ∈ state.installations := by
  obtain ⟨content, bit, parsed, hfile, hparsed, hmem⟩ := h
  rw [hmanifest, Node.file.injEq] at hfile
  rw [← hfile.1] at hparsed
  rw [← ManifestCodec.parse_bytes hparsed]
  exact hmem

/-- What a snapshot of a manifest holds is recorded where it was taken. -/
theorem recordedAt_of_snapshot {world : World} {content : Bytes} {executable : Bool}
    {state : InstallState}
    (hsnapshot : world.inspectState path = .ok (.file content executable))
    (hparsed : parseInstallState content = .ok state) (hmem : record ∈ state.installations) :
    RecordedAt world path record :=
  ⟨content, executable, state, node_of_observe_file (inspectNode_eq_ok hsnapshot).2, hparsed, hmem⟩

/-! ## What a prepared plan records -/

variable {plan : InstallPlan}

/-- The replacement of a prepared plan is the reviewed manifest with one fresh
record, which the plan's owner and object belong to. -/
theorem prepareInstall_replacement {request : InstallRequest} {inputs : PlanningInputs}
    {ports : InstallReadPorts}
    (h : prepareInstall request inputs ports = .ok plan) :
    ∃ fresh current,
      ((plan.statePrecondition = .absent ∧ current = emptyState) ∨
        ∃ content executable, plan.statePrecondition = .file content executable ∧
          parseInstallState content = .ok current) ∧
      referenceOwner fresh = plan.referenceOwner ∧
      fresh.artifact.objectDigest = plan.objectDigest ∧
      ∀ record, record ∈ plan.replacementState.installations ↔
        record = fresh ∨ (record ∈ current.installations ∧ record.key ≠ fresh.key) := by
  obtain ⟨made, hfrom, hdata⟩ := prepareInstall_eq_ok h
  refine ⟨replacementRecord made.current request made.item.coordinate made.source
    (artifactEvidence made.item.artifact) made.operations, made.current, ?_, ?_, ?_, ?_⟩
  · rw [hdata]
    exact reviewedState_eq_ok hfrom.state
  · have hidentity : made.item.artifact.identity = request.identity := by
      have haccepts := (resolveArtifact_eq_ok hfrom.resolved).2
      simp only [ArtifactQuery.accepts, Bool.and_eq_true, beq_iff_eq] at haccepts
      exact haccepts.1.1.2
    have halias : made.source.sourceAlias = made.item.source.sourceAlias :=
      resolvedSource_alias hfrom.source
    rw [hdata]
    simp only [referenceOwner, replacementRecord, artifactEvidence, Preparation.data,
      installReferenceOwner, hidentity, halias]
  · have haccepted := plan.accepted
    simp only [InstallPlanData.valid, Bool.and_eq_true, beq_iff_eq] at haccepted
    have hobject : plan.artifact.objectDigest = plan.objectCandidate.digest :=
      haccepted.1.1.1.1.1.1.1.1.1.1.1.2
    rw [hdata] at hobject
    show made.item.artifact.objectDigest = plan.objectCandidate.digest
    rw [hdata]
    exact hobject
  · intro record
    rw [hdata]
    exact replacementState_eq_ok hfrom.replacement record

/-! ## Runs over one data root -/

/-- One operation on the data root, with the steps of it that fail. -/
inductive StoreEvent where
  | install (plan : InstallPlan) (faults : InstallFaults)
  | uninstall (plan : UninstallPlan) (faults : UninstallFaults)
  | collect (execute : Bool) (deletionFails : ObjectDigest → Bool) (inventory : List ObjectDigest)
  | publish (object : StoredObject)

/-- Plans come out of the planners, for some project and the one data root,
whatever their ports read at that time. -/
inductive PlannedFor (dataRoot : String) : StoreEvent → Prop where
  | install {request inputs ports plan} (faults : InstallFaults)
      (root : inputs.location.dataRoot = dataRoot)
      (prepared : prepareInstall request inputs ports = .ok plan) :
      PlannedFor dataRoot (.install plan faults)
  | update {record inputs ports options updated plan} (faults : InstallFaults)
      (root : inputs.location.dataRoot = dataRoot)
      (prepared : prepareUpdate record inputs ports options = .ok updated)
      (choice : updated.choice = .install plan) : PlannedFor dataRoot (.install plan faults)
  | prune {record inputs ports options updated plan} (faults : UninstallFaults)
      (root : inputs.location.dataRoot = dataRoot)
      (prepared : prepareUpdate record inputs ports options = .ok updated)
      (choice : updated.choice = .uninstall plan) : PlannedFor dataRoot (.uninstall plan faults)
  | uninstall {record state location storePaths ports force plan} (faults : UninstallFaults)
      (root : location.dataRoot = dataRoot)
      (prepared : prepareUninstall record state location storePaths ports force = .ok plan) :
      PlannedFor dataRoot (.uninstall plan faults)
  | collect (execute deletionFails inventory) :
      PlannedFor dataRoot (.collect execute deletionFails inventory)
  | publish (object) : PlannedFor dataRoot (.publish object)

/-- An event carried out with success. -/
inductive Performed (world : World) : StoreEvent → World → Prop where
  | install {plan faults outcome} (reported : (applyPlan faults world plan).outcome = some outcome)
      (succeeded : outcome.succeeded = true) :
      Performed world (.install plan faults) (applyPlan faults world plan).world
  | uninstall {plan faults item} (reviewed : plan.terminal = none)
      (reported : (applyUninstallPlan faults world plan).item = some item)
      (removed : item.status = .removed) :
      Performed world (.uninstall plan faults) (applyUninstallPlan faults world plan).world
  | collect (execute deletionFails inventory) :
      Performed world (.collect execute deletionFails inventory)
        { world with objects := fun digest =>
            if digest ∈ (collectGarbage execute deletionFails world.references inventory).deleted then none
            else world.objects digest }
  | publish (object : StoredObject) (missing : world.objects object.candidate.digest = none) :
      Performed world (.publish object)
        { world with objects := Function.update world.objects object.candidate.digest (some object) }

theorem performed_install {world : World} {faults : InstallFaults}
    (h : (applyPlan faults world plan).outcome.map (·.succeeded) = some true) :
    Performed world (.install plan faults) (applyPlan faults world plan).world := by
  obtain ⟨outcome, hreported, hsucceeded⟩ := Option.map_eq_some_iff.mp h
  exact .install hreported hsucceeded

/-- No other manifest holds a record under the same owner with another object,
or any record under it when the owner lets its object go. -/
def OwnerUnshared (world : World) : StoreEvent → Prop
  | .install plan _ => ∀ path record, path ≠ plan.statePath → RecordedAt world path record →
      referenceOwner record = plan.referenceOwner → record.artifact.objectDigest = plan.objectDigest
  | .uninstall plan _ => ∀ path record, path ≠ plan.statePath → RecordedAt world path record →
      referenceOwner record ≠ plan.referenceOwner
  | _ => True

def StoreStep (dataRoot : String) (world after : World) : Prop :=
  ∃ event, PlannedFor dataRoot event ∧ Performed world event after

def UnsharedStep (dataRoot : String) (world after : World) : Prop :=
  ∃ event, PlannedFor dataRoot event ∧ Performed world event after ∧ OwnerUnshared world event

/-! ## The invariant -/

/-- Every record of every manifest owns a reference to its object, and the object is stored. -/
structure Retained (world : World) : Prop where
  reference : ∀ path record, RecordedAt world path record →
    ⟨.installed, referenceOwner record, record.artifact.objectDigest⟩ ∈ world.references.references
  object : ∀ path record, RecordedAt world path record →
    (world.objects record.artifact.objectDigest).isSome = true

omit [StandardLibrary] in
theorem retained_of_empty {world : World} (h : ∀ path, world.manifests path = .absent) :
    Retained world := by
  have hnone {path : String} {record : InstallationRecord} : ¬ RecordedAt world path record := by
    rintro ⟨content, executable, _, hfile, _⟩
    rw [h path] at hfile
    exact absurd hfile (by simp)
  exact ⟨fun _ _ hrecorded => absurd hrecorded hnone, fun _ _ hrecorded => absurd hrecorded hnone⟩

variable {dataRoot : String}

/-- Updates install through the same planner. -/
theorem plannedFor_install {faults : InstallFaults}
    (h : PlannedFor dataRoot (.install plan faults)) :
    ∃ request inputs ports, prepareInstall request inputs ports = .ok plan := by
  cases h with
  | install _ _ prepared => exact ⟨_, _, _, prepared⟩
  | update _ _ prepared choice => exact ⟨_, _, _, prepareUpdate_install prepared choice⟩

variable {world after : World}

/-- The records after an installation: the fresh one, and records that were there before. -/
theorem recordedAt_installed {request : InstallRequest} {inputs : PlanningInputs}
    {ports : InstallReadPorts} (hprepared : prepareInstall request inputs ports = .ok plan)
    (hinstalled : Installed world plan after) (h : RecordedAt after path record) :
    (referenceOwner record = plan.referenceOwner ∧ record.artifact.objectDigest = plan.objectDigest) ∨
      (RecordedAt world path record ∧
        (path = plan.statePath → referenceOwner record ≠ plan.referenceOwner)) := by
  obtain ⟨fresh, current, hreviewed, howner, hobject, hmembers⟩ := prepareInstall_replacement hprepared
  obtain ⟨executable, hmanifests⟩ := hinstalled.manifests
  by_cases hpath : path = plan.statePath
  · subst hpath
    have hwritten : after.manifests plan.statePath =
        .file (installStateBytes plan.replacementState) executable := by
      rw [hmanifests, Function.update_self]
    rcases (hmembers record).mp (recordedAt_written hwritten h) with rfl | ⟨hmem, hkey⟩
    · exact Or.inl ⟨howner, hobject⟩
    · refine Or.inr ⟨?_, ?_⟩
      · have hstate := preconditionsCurrent_state hinstalled.current
        rcases hreviewed with ⟨_, rfl⟩ | ⟨content, bit, hsnapshot, hparsed⟩
        · exact absurd hmem (by simp [emptyState])
        · rw [hsnapshot] at hstate
          exact recordedAt_of_snapshot hstate hparsed hmem
      · intro _ hsame
        exact hkey (key_eq_of_referenceOwner_eq (hsame.trans howner.symm))
  · obtain ⟨content, bit, state, hfile, hparsed, hmem⟩ := h
    rw [hmanifests, Function.update_of_ne hpath] at hfile
    exact Or.inr ⟨⟨content, bit, state, hfile, hparsed, hmem⟩, fun heq => absurd heq hpath⟩

/-- The records after a removal were there before, and in the manifest of the
plan none of them has its owner. -/
theorem recordedAt_removed {plan : UninstallPlan} (hremoved : Removed world plan after)
    (h : RecordedAt after path record) :
    RecordedAt world path record ∧
      (path = plan.statePath → referenceOwner record ≠ plan.referenceOwner) := by
  by_cases hpath : path = plan.statePath
  · subst hpath
    rcases hremoved.manifests with hwritten | ⟨_, hreclaimed⟩
    · have hmanifest : after.manifests plan.statePath =
          .file (installStateBytes plan.replacementState) false := by
        rw [hwritten, Function.update_self]
      obtain ⟨content, bit, current, hsnapshot, hparsed, _, hmembers⟩ := plan.replacementState_spec
      obtain ⟨hmem, hkey⟩ := (hmembers record).mp (recordedAt_written hmanifest h)
      have hstate := hremoved.reviewed.state
      rw [hsnapshot] at hstate
      exact ⟨recordedAt_of_snapshot hstate hparsed hmem,
        fun _ hsame => hkey (key_eq_of_referenceOwner_eq hsame)⟩
    · obtain ⟨content, bit, state, hfile, _⟩ := h
      rw [hreclaimed, Function.update_self] at hfile
      exact absurd hfile (by simp)
  · obtain ⟨content, bit, state, hfile, hparsed, hmem⟩ := h
    have hsame : after.manifests path = world.manifests path := by
      rcases hremoved.manifests with hwritten | ⟨_, hreclaimed⟩
      · rw [hwritten, Function.update_of_ne hpath]
      · rw [hreclaimed, Function.update_of_ne hpath]
    rw [hsame] at hfile
    exact ⟨⟨content, bit, state, hfile, hparsed, hmem⟩, fun heq => absurd heq hpath⟩

theorem retained_install {faults : InstallFaults} (hplanned : PlannedFor dataRoot (.install plan faults))
    (hinstalled : Installed world plan after) (hunshared : OwnerUnshared world (.install plan faults))
    (hretained : Retained world) : Retained after := by
  obtain ⟨request, inputs, ports, hprepared⟩ := plannedFor_install hplanned
  have hstored : (after.objects plan.objectDigest).isSome = true := by
    have hcurrent := hinstalled.current
    simp only [preconditionsCurrent, Bool.and_eq_true, beq_iff_eq] at hcurrent
    rw [hinstalled.objects, hcurrent.1.1]
    rfl
  constructor
  · intro path record hrecorded
    rw [hinstalled.references]
    rcases recordedAt_installed hprepared hinstalled hrecorded with ⟨howner, hobject⟩ | ⟨hbefore, hsame⟩
    · simp [howner, hobject]
    · by_cases howner : referenceOwner record = plan.referenceOwner
      · -- Only a record of another manifest can have the owner, and then it has the object.
        have hpath : path ≠ plan.statePath := fun heq => hsame heq howner
        simp [howner, hunshared path record hpath hbefore howner]
      · simp only [howner, if_false]
        exact hretained.reference path record hbefore
  · intro path record hrecorded
    rcases recordedAt_installed hprepared hinstalled hrecorded with ⟨_, hobject⟩ | ⟨hbefore, _⟩
    · rw [hobject]
      exact hstored
    · rw [hinstalled.objects]
      exact hretained.object path record hbefore

theorem retained_uninstall {plan : UninstallPlan} {faults : UninstallFaults}
    (hremoved : Removed world plan after) (hunshared : OwnerUnshared world (.uninstall plan faults))
    (hretained : Retained world) : Retained after := by
  constructor
  · intro path record hrecorded
    obtain ⟨hbefore, hsame⟩ := recordedAt_removed hremoved hrecorded
    have howner : referenceOwner record ≠ plan.referenceOwner := by
      by_cases hpath : path = plan.statePath
      · exact hsame hpath
      · exact hunshared path record hpath hbefore
    have hmem := hretained.reference path record hbefore
    rw [hremoved.reviewed.references] at hmem
    rw [hremoved.references]
    simp [UninstallPlanData.referenceReplacement, ReferenceIndex.without, hmem,
      ObjectReference.ownedBy, howner]
  · intro path record hrecorded
    rw [hremoved.objects]
    exact hretained.object path record (recordedAt_removed hremoved hrecorded).1

/-- What one step preserves. -/
theorem retained_step (h : UnsharedStep dataRoot world after) (hretained : Retained world) : Retained after := by
  obtain ⟨event, hplanned, hperformed, hunshared⟩ := h
  cases hperformed with
  | install reported succeeded =>
      exact retained_install hplanned (applyPlan_installed reported succeeded) hunshared hretained
  | uninstall _ reported removed =>
      exact retained_uninstall (applyUninstallPlan_removed reported removed) hunshared hretained
  | collect execute deletionFails inventory =>
      refine ⟨hretained.reference, ?_⟩
      intro path record hrecorded
      have hkept := @collectGarbage_keeps _ execute deletionFails inventory _
        (hretained.reference path record hrecorded)
      simp only [hkept, if_false]
      exact hretained.object path record hrecorded
  | publish object missing =>
      refine ⟨hretained.reference, ?_⟩
      intro path record hrecorded
      have hobject := hretained.object path record hrecorded
      by_cases hdigest : record.artifact.objectDigest = object.candidate.digest
      · rw [hdigest]
        simp
      · simp only [Function.update_of_ne hdigest]
        exact hobject

/-- What a run preserves. -/
theorem retained_run {start world : World} (hstart : Retained start)
    (hrun : Relation.ReflTransGen (UnsharedStep dataRoot) start world) : Retained world := by
  induction hrun with
  | refl => exact hstart
  | tail _ hstep ih => exact retained_step hstep ih

/-- Every record keeps its object: the index refers to it, it is stored, and no
collection deletes it. -/
def KeepsRecordedObjects (world : World) : Prop :=
  ∀ path record, RecordedAt world path record →
    (∃ owner, ⟨.installed, owner, record.artifact.objectDigest⟩ ∈ world.references.references) ∧
      (world.objects record.artifact.objectDigest).isSome = true ∧
      ∀ execute deletionFails inventory, record.artifact.objectDigest ∉
        (collectGarbage execute deletionFails world.references inventory).deleted

/-- In every run whose operations share no owner with another manifest, every
record of every manifest keeps its object at every point. -/
theorem keepsRecordedObjects_of_run {dataRoot : String} {start world : World}
    (hstart : Retained start) (hrun : Relation.ReflTransGen (UnsharedStep dataRoot) start world) :
    KeepsRecordedObjects world := by
  have hretained := retained_run hstart hrun
  intro path record hrecorded
  have hreference := hretained.reference path record hrecorded
  exact ⟨⟨_, hreference⟩, hretained.object path record hrecorded, fun execute deletionFails inventory =>
    collectGarbage_keeps hreference⟩

end Retention

/-! ## Two projects with one owner -/

section Sample

attribute [local instance] plainLibrary styleManifests

def firstWorld : World := (applyPlan {} styleWorld firstPlan).world

def secondPlan : InstallPlan :=
  ⟨stylePlanData "/two" "2.0.0" (sampleDigest 'b') [36] secondStyle, by decide +kernel⟩

theorem secondPlan_prepared :
    prepareInstall styleRequest secondInputs firstWorld.readPorts = .ok secondPlan :=
  prepareInstall_of_data (by decide +kernel)

def secondWorld : World := (applyPlan {} firstWorld secondPlan).world

/-- One installation from an empty world is a run without a shared owner, and it
leaves a record. -/
theorem keepsRecordedObjects_first_install :
    RecordedAt firstWorld "/one/.agent-artifacts/manifest.json"
        (styleRecord "1.0.0" (sampleDigest 'a') [35]) ∧
      KeepsRecordedObjects firstWorld := by
  refine ⟨⟨installStateBytes firstStyle, false, firstStyle, by decide +kernel, by decide +kernel, by decide⟩, ?_⟩
  have hstart : Retained styleWorld := retained_of_empty fun _ => rfl
  have hstep : UnsharedStep "/data" styleWorld firstWorld := by
    refine ⟨.install firstPlan {}, .install {} rfl firstPlan_prepared,
      performed_install (by decide +kernel), ?_⟩
    rintro path record _ ⟨content, executable, _, hfile, _⟩
    exact absurd hfile (by simp [styleWorld, freshWorld])
  exact keepsRecordedObjects_of_run hstart (.single hstep)

/-- Installing another version in a second project takes the first project's
reference away: its record names an object that a collection would delete. -/
theorem keepsRecordedObjects_second_project :
    (∀ path, styleWorld.manifests path = .absent) ∧
      Relation.ReflTransGen (StoreStep "/data") styleWorld secondWorld ∧
      ¬ KeepsRecordedObjects secondWorld := by
  refine ⟨fun _ => rfl, ?_, ?_⟩
  · have hfirst : StoreStep "/data" styleWorld firstWorld :=
      ⟨.install firstPlan {}, .install {} rfl firstPlan_prepared,
        performed_install (by decide +kernel)⟩
    have hsecond : StoreStep "/data" firstWorld secondWorld :=
      ⟨.install secondPlan {}, .install {} rfl secondPlan_prepared,
        performed_install (by decide +kernel)⟩
    exact .tail (.single hfirst) hsecond
  · intro hkeeps
    have hrecorded : RecordedAt secondWorld "/one/.agent-artifacts/manifest.json"
        (styleRecord "1.0.0" (sampleDigest 'a') [35]) :=
      ⟨installStateBytes firstStyle, false, firstStyle, by decide +kernel, by decide +kernel, by decide⟩
    obtain ⟨⟨owner, hreference⟩, _⟩ := hkeeps _ _ hrecorded
    have hothers : ∀ reference ∈ secondWorld.references.references,
        reference.digest ≠ sampleDigest 'a' := by decide +kernel
    exact hothers _ hreference rfl

end Sample

end AgentArtifacts
