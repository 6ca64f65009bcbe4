import Mathlib.Data.Fintype.Basic
import AgentArtifacts.Library.Runs
import AgentArtifacts.Installation.Atomicity
import AgentArtifacts.Lifecycle.Apply

/-!
# Installing while garbage is collected

Any number of installations and uninstallations share one object store and one
reference index with publications and collections. Updates of the index and
collections hold the store lease, so each of them is one step; so are the read
of an object, an inspection and a write of a file. What inspections and writes
of files find is left open, since every process may change them.

An installation relies on its object from the moment it retains it under a
transaction reference. The object was read before, and nothing looks again.
-/

namespace AgentArtifacts

open Runs

namespace StoreRaces

section

variable [StandardLibrary] [ManifestCodec]

inductive Run where
  | install (plan : InstallPlan)
  | uninstall (plan : UninstallPlan)

def Run.owner : Run → String
  | .install plan => plan.referenceOwner
  | .uninstall plan => plan.referenceOwner

/-- The next step of a run. -/
inductive Phase where
  | idle
  /-- `_preconditions_current`: the object, the operations, and the manifest. -/
  | readObject
  | inspect (rest : List InstallOperation)
  | inspectState
  | retain
  | apply (rest : List InstallOperation) (attempted : Nat) (applied : Bool)
  | writeState (attempted : Nat) (applied : Bool)
  | refer (attempted : Nat) (status : InstallStatus)
  | release (status : InstallStatus)
  /-- A rollback with a number of restores to come. -/
  | restore (left : Nat) (retained : Bool)
  | cleanUp
  | returned (status : InstallStatus)
  /-- An uninstallation reviews state and index again, mutates its destinations,
  replaces the manifest and releases its reference. -/
  | review
  | mutate (rest : List UninstallOperation) (attempted : Nat)
  | replaceState (attempted : Nat)
  | dropReference (attempted : Nat)
  | verify (attempted : Nat) (reported : Option ReferenceIndex)
  | restoreReference (left : Nat)
  | undo (left : Nat)
  | ended
deriving DecidableEq

/-- The run has begun and has not returned. -/
def Phase.active : Phase → Bool
  | .idle => false
  | .returned _ => false
  | .ended => false
  | _ => true

/-- The steps of `apply_plan` under the scope lock. The index is `none` when its
constructor raised, which no handler of the call catches. -/
def installStep (plan : InstallPlan) (objects : ObjectDigest → Option StoredObject) (references : ReferenceIndex)
    (works : Bool) (fault : ReferenceFault) : Phase → ReferenceIndex × Phase
  | .idle => (references, .readObject)
  | .readObject =>
      (references,
        if works = true ∧ objects plan.objectDigest = some ⟨plan.objectCandidate, plan.objectRoot⟩ then
          .inspect plan.operations
        else .returned .conflicted)
  | .inspect [] => (references, .inspectState)
  | .inspect (_ :: rest) => (references, if works then .inspect rest else .returned .conflicted)
  | .inspectState => (references, if works then .retain else .returned .conflicted)
  | .retain =>
      match replaceReferences fault references .transaction (transactionOwner plan) [plan.objectDigest] with
      | none => (references, .ended)
      | some (index, .ok _) => (index, .apply plan.operations 0 false)
      | some (index, .error _) => (index, .restore 0 false)
  | .apply [] attempted applied => (references, .writeState attempted applied)
  | .apply (operation :: rest) attempted applied =>
      (references,
        if operationIsCurrent operation then .apply rest attempted applied
        else if works then .apply rest (attempted + 1) true
        else .restore (attempted + 1) true)
  | .writeState attempted applied =>
      let current := stateIsCurrent plan
      (references,
        if current then .refer attempted (if applied then .applied else .current)
        else if works then .refer (attempted + 1) .applied
        else .restore (attempted + 1) true)
  | .refer attempted status =>
      match replaceReferences fault references .installed plan.referenceOwner [plan.objectDigest] with
      | none => (references, .ended)
      | some (index, .ok _) => (index, .release status)
      | some (index, .error _) => (index, .restore attempted true)
  | .release status =>
      match replaceReferences fault references .transaction (transactionOwner plan) [] with
      | none => (references, .ended)
      | some (index, _) => (index, .returned status)
  | .restore 0 retained => (references, if retained then .cleanUp else .returned .failed)
  | .restore (left + 1) retained => (references, .restore left retained)
  | .cleanUp =>
      match replaceReferences fault references .transaction (transactionOwner plan) [] with
      | none => (references, .ended)
      | some (index, _) => (index, .returned .failed)
  | phase => (references, phase)

/-- The steps of `apply_uninstall_plan` under the scope lock. -/
def uninstallStep (plan : UninstallPlan) (references : ReferenceIndex) (works : Bool) (fault : ReferenceFault) :
    Phase → ReferenceIndex × Phase
  | .idle => (references, .review)
  | .review =>
      (references, if works = true ∧ references = plan.referencePrecondition then .mutate plan.operations 0 else .ended)
  | .mutate [] attempted => (references, .replaceState attempted)
  | .mutate (operation :: rest) attempted =>
      (references,
        if !operation.mutation.changes then .mutate rest attempted
        else if works then .mutate rest (attempted + 1)
        else .undo (attempted + 1))
  | .replaceState attempted =>
      (references, if works then .dropReference (attempted + 1) else .undo (attempted + 1))
  | .dropReference attempted =>
      match replaceReferences fault references .installed plan.referenceOwner [] with
      | none => (references, .undo attempted)
      | some (index, .ok updated) => (index, .verify attempted (some updated))
      | some (index, .error _) => (index, .verify attempted none)
  | .verify attempted reported =>
      let current := if works then some references else none
      (references,
        match reported with
        | none => if current = some plan.referenceReplacement then .ended else .undo attempted
        | some updated =>
            if updated = plan.referenceReplacement ∧ current = some plan.referenceReplacement then .ended
            else if (current.map fun index => (index.ownerDigests .installed plan.referenceOwner).isEmpty) = some true then
              .restoreReference attempted
            else .undo attempted)
  | .restoreReference left =>
      match replaceReferences fault references .installed plan.referenceOwner
          (plan.referencePrecondition.ownerDigests .installed plan.referenceOwner) with
      | none => (references, .ended)
      | some (index, _) => (index, .undo left)
  | .undo 0 => (references, .ended)
  | .undo (left + 1) => (references, .undo left)
  | phase => (references, phase)

def Run.step (objects : ObjectDigest → Option StoredObject) (references : ReferenceIndex) (works : Bool)
    (fault : ReferenceFault) (phase : Phase) : Run → ReferenceIndex × Phase
  | .install plan => installStep plan objects references works fault phase
  | .uninstall plan => uninstallStep plan references works fault phase

/-- The set of references the next step of a run replaces. -/
def Run.replaces : Run → Phase → Option (ReferenceKind × String)
  | .install plan, .retain => some (.transaction, transactionOwner plan)
  | .install plan, .release _ => some (.transaction, transactionOwner plan)
  | .install plan, .cleanUp => some (.transaction, transactionOwner plan)
  | .install plan, .refer _ _ => some (.installed, plan.referenceOwner)
  | .uninstall plan, .dropReference _ => some (.installed, plan.referenceOwner)
  | .uninstall plan, .restoreReference _ => some (.installed, plan.referenceOwner)
  | _, _ => none

/-! ## The shared store -/

variable {R : Type}

structure State (R : Type) where
  objects : ObjectDigest → Option StoredObject
  references : ReferenceIndex
  phase : R → Phase

def State.start : State R where
  objects _ := none
  references := emptyIndex
  phase _ := .idle

inductive Action (R : Type) where
  /-- The next step of a run: whether its file access works, and how its update of the index ends. -/
  | call (r : R) (works : Bool) (fault : ReferenceFault)
  /-- The process of a run ends. -/
  | stop (r : R)
  | publish (object : StoredObject)
  | collect (execute : Bool) (deletionFails : ObjectDigest → Bool) (inventory : List ObjectDigest)

variable [DecidableEq R]

def State.step (runs : R → Run) (s : State R) : Action R → Option (State R)
  | .call r works fault =>
      let result := (runs r).step s.objects s.references works fault (s.phase r)
      some { s with references := result.1, phase := Function.update s.phase r result.2 }
  | .stop r => some { s with phase := Function.update s.phase r .ended }
  | .publish object =>
      -- A stored object is verified and kept.
      if (s.objects object.candidate.digest).isSome then some s
      else some { s with objects := Function.update s.objects object.candidate.digest (some object) }
  | .collect execute deletionFails inventory =>
      let deleted := (collectGarbage execute deletionFails s.references inventory).deleted
      some { s with objects := fun digest => if digest ∈ deleted then none else s.objects digest }

/-- No two runs of one reference owner are active at a time. -/
def State.Distinct (runs : R → Run) (s : State R) : Action R → Prop
  | .call r _ _ => s.phase r = .idle → ∀ q, (s.phase q).active = true → (runs q).owner ≠ (runs r).owner
  | _ => True

def State.replaces (runs : R → Run) (s : State R) : Action R → Option (ReferenceKind × String)
  | .call r _ _ => (runs r).replaces (s.phase r)
  | _ => none

/-- The object is stored and a reference names it. -/
def State.Guards (s : State R) (reference : ObjectReference) : Prop :=
  (s.objects reference.digest).isSome = true ∧ reference ∈ s.references.references

def installedReference (plan : InstallPlan) : ObjectReference :=
  ⟨.installed, plan.referenceOwner, plan.objectDigest⟩

def transactionReference (plan : InstallPlan) : ObjectReference :=
  ⟨.transaction, transactionOwner plan, plan.objectDigest⟩

/-- When an installation returns as applied or current, its object is stored and
referenced, and stays so until the references of its owner are replaced. -/
def State.Protects (runs : R → Run) (s : State R) : Prop :=
  ∀ r plan action t status, runs r = .install plan → s.step runs action = some t →
    s.phase r ≠ .returned status → t.phase r = .returned status → (status = .applied ∨ status = .current) →
    ∀ u, Reach (State.step runs) (fun s action => s.replaces runs action ≠ some (.installed, plan.referenceOwner)) t u →
      u.Guards (installedReference plan)

/-- An installation retains its object while the object is stored. -/
def State.Careful (runs : R → Run) (s : State R) : Action R → Prop
  | .call r _ .none =>
      match runs r, s.phase r with
      | .install plan, .retain => (s.objects plan.objectDigest).isSome = true
      | _, _ => True
  | _ => True

instance [Fintype R] (runs : R → Run) (s : State R) (action : Action R) : Decidable (s.Distinct runs action) := by
  unfold State.Distinct
  split <;> infer_instance

omit [DecidableEq R] in
instance (runs : R → Run) (s : State R) (action : Action R) : Decidable (s.Careful runs action) := by
  unfold State.Careful
  split
  · split <;> infer_instance
  · infer_instance

/-! ## What a run relies on -/

/-- The reference that keeps the object of an installation. -/
def guard : Run → Phase → Option ObjectReference
  | .install plan, .apply _ _ _ => some (transactionReference plan)
  | .install plan, .writeState _ _ => some (transactionReference plan)
  | .install plan, .refer _ _ => some (transactionReference plan)
  | .install plan, .release _ => some (installedReference plan)
  | _, _ => none

/-- A step of a run leaves the index, or replaces one set of it. A run relies on a
new reference when it has just retained its object or relied on it before. -/
inductive CallEffect (run : Run) (references : ReferenceIndex) (phase : Phase) :
    ReferenceFault → ReferenceIndex × Phase → Prop
  | quiet {fault : ReferenceFault} {next : Phase}
      (hguard : ∀ reference, guard run next = some reference → guard run phase = some reference) :
      CallEffect run references phase fault (references, next)
  | replaced {kind : ReferenceKind} {owner : String} {digests : List ObjectDigest} {fault : ReferenceFault}
      {index : ReferenceIndex} {next : Phase} (hreplaces : run.replaces phase = some (kind, owner))
      (hindex : references.replace kind owner digests = some index)
      (hguard : ∀ reference, guard run next = some reference →
        reference.ownedBy kind owner = true ∧ reference.digest ∈ digests ∧
          ((∃ plan, run = .install plan ∧ phase = .retain ∧ fault = .none ∧ reference.digest = plan.objectDigest) ∨
            ∃ earlier, guard run phase = some earlier ∧ earlier.digest = reference.digest)) :
      CallEffect run references phase fault (index, next)

variable {kind : ReferenceKind} {owner : String} {fault : ReferenceFault}

omit [StandardLibrary] [ManifestCodec] in
theorem replaceReferences_cases {references index : ReferenceIndex} {digests : List ObjectDigest}
    {result : Result ReferenceIndex}
    (h : replaceReferences fault references kind owner digests = some (index, result)) :
    (index = references ∧ ∀ updated, result ≠ .ok updated) ∨
      (references.replace kind owner digests = some index ∧ ∀ updated, result = .ok updated → fault = .none) := by
  cases fault with
  | before diagnostics =>
      cases h
      exact Or.inl ⟨rfl, by simp⟩
  | none =>
      obtain ⟨updated, hindex, hpair⟩ := Option.map_eq_some_iff.mp h
      cases hpair
      exact Or.inr ⟨hindex, fun _ _ => rfl⟩
  | after diagnostics =>
      obtain ⟨updated, hindex, hpair⟩ := Option.map_eq_some_iff.mp h
      cases hpair
      exact Or.inr ⟨hindex, by simp⟩

/-- An update after which the run relies on nothing. -/
theorem CallEffect.updated {run : Run} {references index : ReferenceIndex} {phase next : Phase}
    {digests : List ObjectDigest} {result : Result ReferenceIndex}
    (hreplaces : run.replaces phase = some (kind, owner))
    (h : replaceReferences fault references kind owner digests = some (index, result))
    (hguard : guard run next = none) : CallEffect run references phase fault (index, next) := by
  rcases replaceReferences_cases h with ⟨rfl, _⟩ | ⟨hindex, _⟩
  · exact .quiet (by simp [hguard])
  · exact .replaced hreplaces hindex (by simp [hguard])

theorem installStep_effect (plan : InstallPlan) (objects : ObjectDigest → Option StoredObject)
    (references : ReferenceIndex) (works : Bool) (fault : ReferenceFault) (phase : Phase) :
    CallEffect (.install plan) references phase fault (installStep plan objects references works fault phase) := by
  have hquiet {next : Phase} (hnext : guard (.install plan) next = none) :
      CallEffect (.install plan) references phase fault (references, next) := .quiet (by simp [hnext])
  cases phase with
  | readObject =>
      simp only [installStep]
      split <;> exact hquiet rfl
  | inspect rest =>
      cases rest with
      | nil => exact hquiet rfl
      | cons operation rest => cases works <;> exact hquiet rfl
  | inspectState => cases works <;> exact hquiet rfl
  | retain =>
      simp only [installStep]
      split
      · exact hquiet rfl
      · rename_i index updated h
        rcases replaceReferences_cases h with ⟨_, hnot⟩ | ⟨hindex, hfault⟩
        · exact absurd rfl (hnot updated)
        · apply CallEffect.replaced rfl hindex
          intro reference hreference
          cases hreference
          refine ⟨by simp [ObjectReference.ownedBy, transactionReference], by simp [transactionReference], ?_⟩
          exact Or.inl ⟨plan, rfl, rfl, hfault updated rfl, rfl⟩
      · rename_i h
        exact .updated rfl h rfl
  | apply rest attempted applied =>
      cases rest with
      | nil => exact .quiet fun _ h => h
      | cons operation rest =>
          simp only [installStep]
          split
          · exact .quiet fun _ h => h
          · split
            · exact .quiet fun _ h => h
            · exact hquiet rfl
  | writeState attempted applied =>
      simp only [installStep]
      split
      · exact .quiet fun _ h => h
      · split
        · exact .quiet fun _ h => h
        · exact hquiet rfl
  | refer attempted status =>
      simp only [installStep]
      split
      · exact hquiet rfl
      · rename_i index updated h
        rcases replaceReferences_cases h with ⟨_, hnot⟩ | ⟨hindex, _⟩
        · exact absurd rfl (hnot updated)
        · apply CallEffect.replaced rfl hindex
          intro reference hreference
          cases hreference
          refine ⟨by simp [ObjectReference.ownedBy, installedReference], by simp [installedReference], ?_⟩
          exact Or.inr ⟨transactionReference plan, rfl, rfl⟩
      · rename_i h
        exact .updated rfl h rfl
  | release status =>
      simp only [installStep]
      split
      · exact hquiet rfl
      · rename_i h
        exact .updated rfl h rfl
  | restore left retained =>
      cases left with
      | zero => cases retained <;> exact hquiet rfl
      | succ left => exact hquiet rfl
  | cleanUp =>
      simp only [installStep]
      split
      · exact hquiet rfl
      · rename_i h
        exact .updated rfl h rfl
  | _ => exact hquiet rfl

theorem uninstallStep_effect (plan : UninstallPlan) (references : ReferenceIndex) (works : Bool)
    (fault : ReferenceFault) (phase : Phase) :
    CallEffect (.uninstall plan) references phase fault (uninstallStep plan references works fault phase) := by
  have hquiet (next : Phase) : CallEffect (.uninstall plan) references phase fault (references, next) :=
    .quiet (by simp [guard])
  cases phase with
  | mutate rest attempted => cases rest <;> exact hquiet _
  | dropReference attempted =>
      simp only [uninstallStep]
      split
      · exact hquiet _
      · rename_i h
        exact .updated rfl h rfl
      · rename_i h
        exact .updated rfl h rfl
  | restoreReference left =>
      simp only [uninstallStep]
      split
      · exact hquiet _
      · rename_i h
        exact .updated rfl h rfl
  | undo left => cases left <;> exact hquiet _
  | _ => exact hquiet _

theorem Run.step_effect (run : Run) (objects : ObjectDigest → Option StoredObject) (references : ReferenceIndex)
    (works : Bool) (fault : ReferenceFault) (phase : Phase) :
    CallEffect run references phase fault (run.step objects references works fault phase) := by
  cases run with
  | install plan => exact installStep_effect plan objects references works fault phase
  | uninstall plan => exact uninstallStep_effect plan references works fault phase

/-! ## Stored and referenced -/

variable {runs : R → Run} {s t : State R}

variable {action : Action R} {reference : ObjectReference}

/-- A stored and referenced object stays so in every step that does not replace its reference. -/
theorem State.Guards.step (h : s.Guards reference)
    (hstep : s.step runs action = some t)
    (hother : ∀ kind owner, s.replaces runs action = some (kind, owner) → reference.ownedBy kind owner = false) :
    t.Guards reference := by
  obtain ⟨hstored, hmem⟩ := h
  cases action with
  | call r works fault =>
      have heffect := (runs r).step_effect s.objects s.references works fault (s.phase r)
      cases hstep
      refine ⟨hstored, ?_⟩
      dsimp only
      cases hresult : (runs r).step s.objects s.references works fault (s.phase r) with
      | mk index next =>
          rw [hresult] at heffect
          cases heffect with
          | quiet _ => exact hmem
          | replaced hreplaces hindex _ =>
              rw [ReferenceIndex.mem_replace hindex]
              exact Or.inl ⟨hmem, hother _ _ hreplaces⟩
  | stop r =>
      cases hstep
      exact ⟨hstored, hmem⟩
  | publish object =>
      simp only [State.step] at hstep
      split at hstep
      · cases hstep
        exact ⟨hstored, hmem⟩
      · rename_i habsent
        cases hstep
        refine ⟨?_, hmem⟩
        have hne : reference.digest ≠ object.candidate.digest := by
          intro heq
          rw [heq] at hstored
          exact habsent hstored
        simpa [hne] using hstored
  | collect execute deletionFails inventory =>
      cases hstep
      refine ⟨?_, hmem⟩
      have hkept := @collectGarbage_keeps s.references execute deletionFails inventory reference hmem
      simpa [hkept] using hstored

/-! ## Runs that do not share an owner -/

/-- The sets of references of a run. -/
def Run.Owns (run : Run) (kind : ReferenceKind) (owner : String) : Prop :=
  (kind = .installed ∧ owner = run.owner) ∨ (kind = .transaction ∧ owner = "transaction/" ++ run.owner)

theorem Run.Owns.owner_eq {run other : Run} (h : run.Owns kind owner)
    (hother : other.Owns kind owner) : run.owner = other.owner := by
  rcases h with ⟨rfl, rfl⟩ | ⟨rfl, rfl⟩
  · rcases hother with ⟨_, howner⟩ | ⟨hkind, _⟩
    · exact howner
    · cases hkind
  · rcases hother with ⟨hkind, _⟩ | ⟨_, howner⟩
    · cases hkind
    · have hchars := congrArg String.toList howner
      rw [String.toList_append, String.toList_append] at hchars
      exact String.toList_injective (List.append_cancel_left hchars)

variable {phase : Phase}

theorem Run.owns_of_replaces {run : Run}
    (h : run.replaces phase = some (kind, owner)) : run.Owns kind owner ∧ phase.active = true := by
  unfold Run.replaces at h
  split at h <;> cases h
  · exact ⟨Or.inr ⟨rfl, rfl⟩, rfl⟩
  · exact ⟨Or.inr ⟨rfl, rfl⟩, rfl⟩
  · exact ⟨Or.inr ⟨rfl, rfl⟩, rfl⟩
  · exact ⟨Or.inl ⟨rfl, rfl⟩, rfl⟩
  · exact ⟨Or.inl ⟨rfl, rfl⟩, rfl⟩
  · exact ⟨Or.inl ⟨rfl, rfl⟩, rfl⟩

theorem owns_of_guard {run : Run}
    (h : guard run phase = some reference) : run.Owns reference.kind reference.owner ∧ phase.active = true := by
  unfold guard at h
  split at h <;> cases h
  · exact ⟨Or.inr ⟨rfl, rfl⟩, rfl⟩
  · exact ⟨Or.inr ⟨rfl, rfl⟩, rfl⟩
  · exact ⟨Or.inr ⟨rfl, rfl⟩, rfl⟩
  · exact ⟨Or.inl ⟨rfl, rfl⟩, rfl⟩

/-- A run that is over stays so. -/
theorem Run.step_over (run : Run) (objects : ObjectDigest → Option StoredObject) (references : ReferenceIndex)
    (works : Bool) (fault : ReferenceFault) (hidle : phase ≠ .idle) (h : phase.active = false) :
    (run.step objects references works fault phase).2.active = false := by
  cases run <;> cases phase <;> first | exact absurd rfl hidle | rfl | cases h

/-- Active runs have owners of their own, and what they rely on is stored and referenced. -/
structure State.Invariant (runs : R → Run) (s : State R) : Prop where
  distinct : ∀ q r, (s.phase q).active = true → (s.phase r).active = true → (runs q).owner = (runs r).owner → q = r
  guarded : ∀ r reference, guard (runs r) (s.phase r) = some reference → s.Guards reference

omit [DecidableEq R] in
theorem State.invariant_start : (State.start : State R).Invariant runs := by
  constructor
  · intro q r hq
    cases hq
  · intro r reference h
    have hactive := (owns_of_guard h).2
    cases hactive

variable {r : R}

omit [DecidableEq R] in
/-- Another run does not replace what an active run relies on. -/
theorem State.Invariant.not_replaced (h : s.Invariant runs)
    (hguard : guard (runs r) (s.phase r) = some reference)
    (hother : ∀ works fault, action ≠ .call r works fault)
    (hreplaces : s.replaces runs action = some (kind, owner)) : reference.ownedBy kind owner = false := by
  cases action with
  | call q works fault =>
      obtain ⟨howns, hactive⟩ := Run.owns_of_replaces hreplaces
      obtain ⟨hguardOwns, hguardActive⟩ := owns_of_guard hguard
      by_contra howned
      simp only [ObjectReference.ownedBy, Bool.not_eq_false, Bool.and_eq_true, beq_iff_eq] at howned
      rw [howned.1, howned.2] at hguardOwns
      have hsame := h.distinct r q hguardActive hactive (hguardOwns.owner_eq howns)
      subst hsame
      exact hother works fault rfl
  | stop q => cases hreplaces
  | publish object => cases hreplaces
  | collect execute deletionFails inventory => cases hreplaces

/-- What a run relies on after its own step. -/
theorem State.Invariant.guarded_call (h : s.Invariant runs) {works : Bool}
    (hcareful : s.Careful runs (.call r works fault)) (hstep : s.step runs (.call r works fault) = some t)
    (hguard : guard (runs r) (t.phase r) = some reference) : t.Guards reference := by
  have heffect := (runs r).step_effect s.objects s.references works fault (s.phase r)
  cases hstep
  dsimp only at hguard ⊢
  cases hresult : (runs r).step s.objects s.references works fault (s.phase r) with
  | mk index next =>
      rw [hresult] at heffect
      simp only [hresult, Function.update_self] at hguard
      cases heffect with
      | quiet hquiet => exact h.guarded r reference (hquiet reference hguard)
      | replaced hreplaces hindex hnew =>
          obtain ⟨howned, hdigest, hstored⟩ := hnew reference hguard
          refine ⟨?_, (ReferenceIndex.mem_replace hindex reference).mpr (Or.inr ⟨howned, hdigest⟩)⟩
          rcases hstored with ⟨plan, hrun, hphase, hfault, hsame⟩ | ⟨earlier, hearlier, hsame⟩
          · subst hfault
            simp only [State.Careful, hrun, hphase] at hcareful
            rw [hsame]
            exact hcareful
          · rw [← hsame]
            exact (h.guarded r earlier hearlier).1

/-- The active runs after a step were active before or have just begun. -/
theorem State.active_step (hstep : s.step runs action = some t)
    (hactive : (t.phase r).active = true) :
    (s.phase r).active = true ∨ (s.phase r = .idle ∧ ∃ works fault, action = .call r works fault) := by
  cases action with
  | call q works fault =>
      cases hstep
      by_cases hrq : r = q
      · subst hrq
        simp only [Function.update_self] at hactive
        by_cases hidle : s.phase r = .idle
        · exact Or.inr ⟨hidle, works, fault, rfl⟩
        · left
          by_contra hnot
          have hover := (runs r).step_over s.objects s.references works fault hidle (by simpa using hnot)
          rw [hover] at hactive
          cases hactive
      · simp only [Function.update_of_ne hrq] at hactive
        exact Or.inl hactive
  | stop q =>
      cases hstep
      by_cases hrq : r = q
      · subst hrq
        simp [Phase.active] at hactive
      · simp only [Function.update_of_ne hrq] at hactive
        exact Or.inl hactive
  | publish object =>
      simp only [State.step] at hstep
      split at hstep <;> cases hstep <;> exact Or.inl hactive
  | collect execute deletionFails inventory =>
      cases hstep
      exact Or.inl hactive

theorem State.phase_step (hstep : s.step runs action = some t)
    (hother : ∀ works fault, action ≠ .call r works fault) : t.phase r = s.phase r ∨ t.phase r = .ended := by
  cases action with
  | call q works fault =>
      cases hstep
      have hrq : r ≠ q := by
        rintro rfl
        exact hother works fault rfl
      exact Or.inl (by simp [hrq])
  | stop q =>
      cases hstep
      by_cases hrq : r = q
      · exact Or.inr (by simp [hrq])
      · exact Or.inl (by simp [hrq])
  | publish object =>
      simp only [State.step] at hstep
      split at hstep <;> cases hstep <;> exact Or.inl rfl
  | collect execute deletionFails inventory =>
      cases hstep
      exact Or.inl rfl

theorem State.Invariant.step (h : s.Invariant runs) (hdistinct : s.Distinct runs action)
    (hcareful : s.Careful runs action) (hstep : s.step runs action = some t) : t.Invariant runs := by
  constructor
  · intro q r hq hr howner
    rcases active_step hstep hq with hbefore | ⟨hidle, works, fault, rfl⟩
    · rcases active_step hstep hr with hother | ⟨hidle, works, fault, rfl⟩
      · exact h.distinct q r hbefore hother howner
      · exact absurd howner (hdistinct hidle q hbefore)
    · by_contra hne
      rcases active_step hstep hr with hother | ⟨_, _, _, hcall⟩
      · exact hdistinct hidle r hother howner.symm
      · cases hcall
        exact hne rfl
  · intro r reference hguard
    by_cases hcall : ∃ works fault, action = .call r works fault
    · obtain ⟨works, fault, rfl⟩ := hcall
      exact h.guarded_call hcareful hstep hguard
    · have hother : ∀ works fault, action ≠ .call r works fault := fun works fault heq => hcall ⟨works, fault, heq⟩
      rcases phase_step hstep hother with hphase | hphase
      · rw [hphase] at hguard
        exact (h.guarded r reference hguard).step hstep fun _ _ => h.not_replaced hguard hother
      · rw [hphase] at hguard
        have hactive := (owns_of_guard hguard).2
        cases hactive

/-- An installation returns as applied or current from its last update only. -/
theorem installStep_returned {plan : InstallPlan} {objects : ObjectDigest → Option StoredObject}
    {references : ReferenceIndex} {works : Bool} {status : InstallStatus}
    (h : (installStep plan objects references works fault phase).2 = .returned status)
    (hnot : phase ≠ .returned status) (hstatus : status = .applied ∨ status = .current) :
    phase = .release status := by
  cases phase with
  | release other =>
      simp only [installStep] at h
      split at h <;> cases h
      rfl
  | returned other => exact absurd h hnot
  | idle => cases h
  | readObject =>
      simp only [installStep] at h
      split at h <;> cases h
      simp at hstatus
  | inspect rest =>
      cases rest with
      | nil => cases h
      | cons operation rest =>
          cases works <;> cases h
          simp at hstatus
  | inspectState =>
      cases works <;> cases h
      simp at hstatus
  | retain =>
      simp only [installStep] at h
      split at h <;> cases h
  | apply rest attempted applied =>
      cases rest with
      | nil => cases h
      | cons operation rest =>
          simp only [installStep] at h
          split at h
          · cases h
          · split at h <;> cases h
  | writeState attempted applied =>
      simp only [installStep] at h
      split at h
      · cases h
      · split at h <;> cases h
  | refer attempted other =>
      simp only [installStep] at h
      split at h <;> cases h
  | restore left retained =>
      cases left with
      | zero =>
          cases retained <;> cases h
          simp at hstatus
      | succ left => cases h
  | cleanUp =>
      simp only [installStep] at h
      split at h <;> cases h
      simp at hstatus
  | _ => cases h

/-- In a run in which owners are distinct and every installation retains an object
that is stored, installations keep their objects. -/
theorem installs_keep_objects
    (h : Reach (State.step runs) (fun s action => s.Distinct runs action ∧ s.Careful runs action) State.start s) :
    s.Protects runs := by
  have hinvariant : s.Invariant runs :=
    h.invariant State.invariant_start fun _ _ _ hs hallowed hstep => hs.step hallowed.1 hallowed.2 hstep
  intro r plan action t status hrun hstep hnot hreturned hstatus u hreach
  have hkept : t.Guards (installedReference plan) := by
    have hcall : ∃ works fault, action = .call r works fault := by
      by_contra hother
      rcases State.phase_step hstep (fun works fault heq => hother ⟨works, fault, heq⟩) with hphase | hphase
      · exact hnot (hphase.symm.trans hreturned)
      · rw [hphase] at hreturned
        cases hreturned
    obtain ⟨works, fault, rfl⟩ := hcall
    have hresult : (installStep plan s.objects s.references works fault (s.phase r)).2 = .returned status := by
      cases hstep
      simpa [hrun, Run.step] using hreturned
    have hrelease := installStep_returned hresult hnot hstatus
    have hguarded := hinvariant.guarded r (installedReference plan) (by rw [hrun, hrelease]; rfl)
    apply hguarded.step hstep
    intro kind owner hreplaces
    simp only [State.replaces, hrun, hrelease, Run.replaces, Option.some.injEq, Prod.mk.injEq] at hreplaces
    rw [← hreplaces.1]
    simp [ObjectReference.ownedBy, installedReference]
  refine Reach.invariant (P := fun v => v.Guards (installedReference plan)) hreach hkept ?_
  intro v action w hv hother hstep
  apply hv.step hstep
  intro kind owner hreplaces
  by_contra howned
  simp only [ObjectReference.ownedBy, Bool.not_eq_false, Bool.and_eq_true, beq_iff_eq] at howned
  apply hother
  rw [hreplaces, ← howned.1, ← howned.2]
  rfl

end

/-! ## A collection between two steps -/

section Sample

local instance : StandardLibrary := plainLibrary

local instance : ManifestCodec := tableCodec [sampleState]

def oneRun : Unit → Run := fun _ => .install samplePlan

def calls (n : Nat) : List (Action Unit) := List.replicate n (.call () true .none)

def publishSample : Action Unit := .publish ⟨sampleObject, "/data/objects/sha256/c0/ffee"⟩

def collectSample : Action Unit := .collect true (fun _ => false) [sampleObject.digest]

/-- The collection meets the transaction reference. -/
def collectedLate : List (Action Unit) := publishSample :: calls 6 ++ collectSample :: calls 4

/-- The collection comes between the read of the object and its transaction reference. -/
def collectedEarly : List (Action Unit) := publishSample :: calls 2 ++ collectSample :: calls 8

theorem installs_keep_objects_collected :
    ∃ s, runAll (State.step oneRun) (fun s action => s.Distinct oneRun action ∧ s.Careful oneRun action) State.start
        collectedLate = some s ∧ s.phase () = .release .applied ∧ s.Protects oneRun := by
  have hrelease : (runAll (State.step oneRun) (fun s action => s.Distinct oneRun action ∧ s.Careful oneRun action)
      State.start collectedLate).map (·.phase ()) = some (.release .applied) := by decide
  obtain ⟨s, hrun, hphase⟩ := Option.map_eq_some_iff.mp hrelease
  exact ⟨s, hrun, hphase, installs_keep_objects (reach_of_runAll hrun)⟩

theorem installs_lose_an_object :
    ¬ ∀ s, Reach (State.step oneRun) (State.Distinct oneRun) State.start s → s.Protects oneRun := by
  intro hall
  have hreturns : ((runAll (State.step oneRun) (State.Distinct oneRun) State.start collectedEarly).bind fun s =>
      (s.step oneRun (.call () true .none)).map fun t =>
        (s.phase (), t.phase (), (t.objects sampleObject.digest).isSome)) =
      some (.release .applied, .returned .applied, false) := by decide
  obtain ⟨s, hrun, hlast⟩ := Option.bind_eq_some_iff.mp hreturns
  obtain ⟨t, hstep, hphases⟩ := Option.map_eq_some_iff.mp hlast
  simp only [Prod.mk.injEq] at hphases
  obtain ⟨hbefore, hafter, hlost⟩ := hphases
  have hnot : s.phase () ≠ .returned .applied := by
    rw [hbefore]
    simp
  have hkept := hall s (reach_of_runAll hrun) () samplePlan _ t .applied rfl hstep hnot hafter (Or.inl rfl) t .start
  have hstored : (t.objects sampleObject.digest).isSome = true := hkept.1
  rw [hlost] at hstored
  cases hstored

end Sample

end StoreRaces

end AgentArtifacts
