import AgentArtifacts.Library.Compensation
import AgentArtifacts.Installation.World

/-!
# Steps that may fail and their compensation

The writes, reference updates and restores both adapters are made of. A failed
write may leave any node; a failed reference update may have taken effect; the
restores of a rollback collect their errors, and when there are none they have
put back the nodes their snapshots were taken of.
-/

namespace AgentArtifacts

open Compensation

/-! ## Writes -/

/-- A failed write leaves some node and a reason. -/
structure WriteFault where
  left : Node
  message : String
deriving DecidableEq

/-- The node after a write together with the reason when it failed. -/
def settle (fault : Option WriteFault) (current : Node) (intended : Except String Node) :
    Node × Option String :=
  match fault with
  | some fault => (fault.left, some fault.message)
  | none =>
      match intended with
      | .ok node => (node, none)
      | .error message => (current, some message)

/-- An atomic replacement moves a file over anything but a directory. -/
def atomicWrite (content : Bytes) : Node → Except String Node
  | .directory _ => .error "is a directory"
  | .unreadable reason => .error reason
  | _ => .ok (.file content false)

theorem atomicWrite_eq_ok {content : Bytes} {current node : Node}
    (h : atomicWrite content current = .ok node) : node = .file content false := by
  cases current with
  | directory tree => exact absurd h (by simp [atomicWrite])
  | unreadable reason => exact absurd h (by simp [atomicWrite])
  | absent => exact (Except.ok.inj h).symm
  | file old executable => exact (Except.ok.inj h).symm
  | symlink target => exact (Except.ok.inj h).symm
  | special digest => exact (Except.ok.inj h).symm

/-! ## Reference updates -/

/-- An exception of a step. The index constructor raises one that the adapter
does not catch. -/
inductive Raised where
  | caught (message : String)
  | escaped
deriving DecidableEq

/-- One update of the reference index, and what it raises when it fails. -/
def updateReferences (fault : ReferenceFault) (world : World) (kind : ReferenceKind) (owner : String)
    (digests : List ObjectDigest) (label : String) : World × Option Raised :=
  match replaceReferences fault world.references kind owner digests with
  | none => (world, some .escaped)
  | some (index, .ok _) => (world.setReferences index, none)
  | some (index, .error diagnostics) =>
      (world.setReferences index, some (.caught (label ++ ": " ++ messages diagnostics)))

variable {fault : ReferenceFault} {world : World} {digests : List ObjectDigest}

/-- An update of one kind leaves the digests of every owner of another kind. -/
theorem updateReferences_ownerDigests {kind other : ReferenceKind} {owner otherOwner label : String}
    (hne : kind ≠ other) :
    (updateReferences fault world other otherOwner digests label).1.references.ownerDigests kind owner =
      world.references.ownerDigests kind owner := by
  unfold updateReferences replaceReferences
  cases fault with
  | none =>
      cases hreplace : world.references.replace other otherOwner digests with
      | none => rfl
      | some index =>
          exact ReferenceIndex.ownerDigests_replace_of_ne hreplace (Or.inl hne)
  | before diagnostics => rfl
  | after diagnostics =>
      cases hreplace : world.references.replace other otherOwner digests with
      | none => rfl
      | some index =>
          exact ReferenceIndex.ownerDigests_replace_of_ne hreplace (Or.inl hne)

theorem updateReferences_mem_of_ne {kind other : ReferenceKind} {owner otherOwner label : String}
    (hne : kind ≠ other) (digest : ObjectDigest) :
    ⟨kind, owner, digest⟩ ∈
        (updateReferences fault world other otherOwner digests label).1.references.references ↔
      ⟨kind, owner, digest⟩ ∈ world.references.references := by
  rw [← ReferenceIndex.mem_ownerDigests, ← ReferenceIndex.mem_ownerDigests,
    updateReferences_ownerDigests hne]

theorem updateReferences_world (fault : ReferenceFault) (world : World) (kind : ReferenceKind)
    (owner label : String) (digests : List ObjectDigest) :
    ∃ index, (updateReferences fault world kind owner digests label).1 =
      world.setReferences index := by
  unfold updateReferences
  cases replaceReferences fault world.references kind owner digests with
  | none => exact ⟨world.references, rfl⟩
  | some result =>
      obtain ⟨index, outcome⟩ := result
      cases outcome with
      | ok value => exact ⟨index, rfl⟩
      | error diagnostics => exact ⟨index, rfl⟩

theorem updateReferences_succeeds_iff {kind : ReferenceKind} {owner label : String} :
    (updateReferences fault world kind owner digests label).2 = none ↔
      fault = .none ∧ ∃ index, world.references.replace kind owner digests = some index := by
  unfold updateReferences replaceReferences
  cases fault with
  | before diagnostics => simp
  | after diagnostics =>
      cases world.references.replace kind owner digests <;> simp
  | none =>
      cases world.references.replace kind owner digests <;> simp

/-- Only an index that cannot be built lets an exception escape. -/
theorem updateReferences_not_escaped {kind : ReferenceKind} {owner label : String}
    {index : ReferenceIndex} (h : world.references.replace kind owner digests = some index) :
    (updateReferences fault world kind owner digests label).2 ≠ some .escaped := by
  unfold updateReferences replaceReferences
  cases fault <;> simp [h]

/-- An update either leaves the index or writes the replaced one. -/
theorem updateReferences_index {kind : ReferenceKind}
    {owner label : String} :
    (updateReferences fault world kind owner digests label).1.references = world.references ∨
      world.references.replace kind owner digests =
        some (updateReferences fault world kind owner digests label).1.references := by
  unfold updateReferences replaceReferences
  cases fault with
  | before diagnostics => exact Or.inl rfl
  | after diagnostics =>
      cases hreplace : world.references.replace kind owner digests with
      | none => exact Or.inl rfl
      | some index => exact Or.inr rfl
  | none =>
      cases hreplace : world.references.replace kind owner digests with
      | none => exact Or.inl rfl
      | some index => exact Or.inr rfl

/-! ## Restores -/

/-- One restore, with the label its failure is reported under. -/
structure Restoration where
  path : String
  label : String
  snapshot : Observed

/-- Restores in the given order; the errors are collected. -/
def restoreFiles (faults : String → Option WriteFault) :
    List Restoration → (String → Node) → (String → Node) × List String
  | [], files => (files, [])
  | item :: rest, files =>
      let step := settle (faults item.path) (files item.path) (restoredNode item.snapshot)
      let after := restoreFiles faults rest (Function.update files item.path step.1)
      match step.2 with
      | none => after
      | some message => (after.1, (item.label ++ ": " ++ message) :: after.2)

variable [StandardLibrary]

/-- A restore that succeeds puts back the node its snapshot was taken of. -/
theorem settle_restored {fault : Option WriteFault} {current initial node : Node}
    {snapshot : Observed} {resolves : String → Bool}
    (hobserved : observe resolves initial = .ok snapshot)
    (h : settle fault current (restoredNode snapshot) = (node, none)) : node = initial := by
  unfold settle at h
  cases fault with
  | some fault => exact absurd h (by simp)
  | none =>
      cases hrestored : restoredNode snapshot with
      | error message => exact absurd h (by simp [hrestored])
      | ok restored =>
          have hrestorable : snapshot.restorable = true := by
            cases hsnapshot : snapshot with
            | special digest => simp [hsnapshot, restoredNode] at hrestored
            | _ => rfl
          rw [restoredNode_of_observe hobserved hrestorable] at h
          simp only [Prod.mk.injEq, and_true] at h
          exact h.symm

/-- Restores that all succeed put back the nodes their snapshots were taken of. -/
theorem restoreFiles_eq {faults : String → Option WriteFault} {items : List Restoration}
    (initial files : String → Node)
    (hobserved : ∀ item ∈ items, ∃ resolves, observe resolves (initial item.path) = .ok item.snapshot)
    (herrors : (restoreFiles faults items files).2 = []) :
    (restoreFiles faults items files).1 = restoreAll initial (items.map (·.path)) files := by
  induction items generalizing files with
  | nil => rfl
  | cons item rest ih =>
      obtain ⟨resolves, hitem⟩ := hobserved item (by simp)
      simp only [restoreFiles] at herrors ⊢
      cases hstep : settle (faults item.path) (files item.path) (restoredNode item.snapshot) with
      | mk node failure =>
          rw [hstep] at herrors
          cases failure with
          | some message => exact absurd herrors (by simp)
          | none =>
              have hnode : node = initial item.path := settle_restored hitem hstep
              simp only [List.map_cons, restoreAll] at herrors ⊢
              rw [hnode] at herrors ⊢
              exact ih _ (fun other hother => hobserved other (by simp [hother])) herrors

end AgentArtifacts
