import Mathlib.Data.List.Dedup
import AgentArtifacts.Installation.Snapshot

/-!
# Objects, object references and garbage collection

The reference index is one table of owned digests, kept sorted and free of
duplicates, so two indexes with the same members are the same value. An update
replaces the digests of one owner and kind; it may report a failure before its
write or after it, since releasing the store lease is its last step.
-/

namespace AgentArtifacts

/-! ## Objects -/

/-- A canonical package: its digest and its entries. -/
structure ObjectCandidate where
  digest : ObjectDigest
  entries : List TreeMember
deriving DecidableEq

structure StoredObject where
  candidate : ObjectCandidate
  root : String
deriving DecidableEq

/-- The managed layout below one data root. -/
structure ObjectStorePaths where
  root : String
deriving DecidableEq

def ObjectStorePaths.objects (paths : ObjectStorePaths) : String :=
  joinPath (joinPath paths.root "objects") "sha256"

/-- Objects are sharded by the first two digits of their digest. -/
def ObjectStorePaths.objectRoot (paths : ObjectStorePaths) (digest : ObjectDigest) : String :=
  joinPath (joinPath paths.objects (String.ofList (digest.value.toList.take 2)))
    (String.ofList (digest.value.toList.drop 2))

/-! ## The reference index -/

inductive ReferenceKind where
  | installed
  | setup
  | sourceCurrent
  | retained
  | rollback
  | transaction
deriving DecidableEq

def ReferenceKind.value : ReferenceKind → String
  | .installed => "installed"
  | .setup => "setup"
  | .sourceCurrent => "source-current"
  | .retained => "retained"
  | .rollback => "rollback"
  | .transaction => "transaction"

structure ObjectReference where
  kind : ReferenceKind
  owner : String
  digest : ObjectDigest
deriving DecidableEq

def ObjectReference.sortKey (reference : ObjectReference) : List String :=
  [reference.kind.value, reference.owner, reference.digest.value]

theorem ObjectReference.sortKey_injective {a b : ObjectReference} (h : a.sortKey = b.sortKey) :
    a = b := by
  obtain ⟨ka, oa, ⟨da⟩⟩ := a
  obtain ⟨kb, ob, ⟨db⟩⟩ := b
  simp only [ObjectReference.sortKey, List.cons.injEq, and_true] at h
  obtain ⟨hkind, howner, hdigest⟩ := h
  have hk : ka = kb := by
    cases ka <;> cases kb <;> first | rfl | exact absurd hkind (by decide)
  rw [hk, howner, hdigest]

def maxReferences : Nat := 100000

structure ReferenceIndex where
  references : List ObjectReference
  sorted : references.Pairwise fun a b => a.sortKey < b.sortKey
deriving DecidableEq

def emptyIndex : ReferenceIndex := ⟨[], .nil⟩

/-- Indexes are determined by their members. -/
theorem ReferenceIndex.ext_mem {a b : ReferenceIndex}
    (h : ∀ reference, reference ∈ a.references ↔ reference ∈ b.references) : a = b := by
  have hnodup (index : ReferenceIndex) : index.references.Nodup :=
    index.sorted.imp fun hlt heq => absurd hlt (by rw [heq]; exact lt_irrefl _)
  have hperm : a.references.Perm b.references :=
    (List.perm_ext_iff_of_nodup (hnodup a) (hnodup b)).mpr h
  have heq : a.references = b.references := by
    refine hperm.eq_of_pairwise ?_ a.sorted b.sorted
    intro x y _ _ hxy hyx
    exact absurd (lt_trans hxy hyx) (lt_irrefl _)
  cases a
  cases b
  simpa using heq

def sortReferences (references : List ObjectReference) : List ObjectReference :=
  references.insertionSort fun a b => a.sortKey ≤ b.sortKey

/-- The constructor of an index; `none` is its error on duplicates or on more
references than the index may hold. -/
def ReferenceIndex.make (references : List ObjectReference) : Option ReferenceIndex :=
  let ordered := sortReferences references
  if h : ordered.length ≤ maxReferences ∧
      ordered.Pairwise (fun a b => a.sortKey < b.sortKey) then
    some ⟨ordered, h.2⟩
  else none

variable {index : ReferenceIndex}

theorem ReferenceIndex.mem_make {references : List ObjectReference}
    (h : ReferenceIndex.make references = some index) (reference : ObjectReference) :
    reference ∈ index.references ↔ reference ∈ references := by
  unfold ReferenceIndex.make at h
  simp only at h
  split at h
  · rw [← Option.some.inj h]
    exact (List.perm_insertionSort _ references).mem_iff
  · exact absurd h (by simp)

/-- Whether a reference belongs to an owner's set of one kind. -/
def ObjectReference.ownedBy (reference : ObjectReference) (kind : ReferenceKind) (owner : String) :
    Bool :=
  reference.kind == kind && reference.owner == owner

def ReferenceIndex.ownerDigests (index : ReferenceIndex) (kind : ReferenceKind) (owner : String) :
    List ObjectDigest :=
  (index.references.filter fun reference => reference.ownedBy kind owner).map (·.digest)

/-- Members of an owner's set leave an index; what is left is still sorted. -/
def ReferenceIndex.without (index : ReferenceIndex) (kind : ReferenceKind) (owner : String) :
    ReferenceIndex :=
  ⟨index.references.filter fun reference => !reference.ownedBy kind owner, index.sorted.filter _⟩

/-- The index with one owner's set replaced. -/
def ReferenceIndex.replace (index : ReferenceIndex) (kind : ReferenceKind) (owner : String)
    (digests : List ObjectDigest) : Option ReferenceIndex :=
  ReferenceIndex.make ((index.references.filter fun reference => !reference.ownedBy kind owner) ++
    digests.map fun digest => ⟨kind, owner, digest⟩)

variable {kind : ReferenceKind} {owner : String}

theorem ReferenceIndex.mem_replace {index updated : ReferenceIndex} {digests : List ObjectDigest}
    (h : index.replace kind owner digests = some updated) (reference : ObjectReference) :
    reference ∈ updated.references ↔
      (reference ∈ index.references ∧ reference.ownedBy kind owner = false) ∨
        (reference.ownedBy kind owner = true ∧ reference.digest ∈ digests) := by
  rw [ReferenceIndex.mem_make h]
  simp only [List.mem_append, List.mem_filter, List.mem_map, Bool.not_eq_eq_eq_not, Bool.not_true]
  refine or_congr_right ?_
  constructor
  · rintro ⟨digest, hdigest, rfl⟩
    simpa [ObjectReference.ownedBy] using hdigest
  · rintro ⟨howned, hdigest⟩
    simp only [ObjectReference.ownedBy, Bool.and_eq_true, beq_iff_eq] at howned
    exact ⟨reference.digest, hdigest, by rw [← howned.1, ← howned.2]⟩

theorem ReferenceIndex.mem_ownerDigests {digest : ObjectDigest} :
    digest ∈ index.ownerDigests kind owner ↔ ⟨kind, owner, digest⟩ ∈ index.references := by
  unfold ReferenceIndex.ownerDigests
  simp only [List.mem_map, List.mem_filter]
  constructor
  · rintro ⟨reference, ⟨hmem, howned⟩, rfl⟩
    simp only [ObjectReference.ownedBy, Bool.and_eq_true, beq_iff_eq] at howned
    rw [← howned.1, ← howned.2]
    exact hmem
  · intro hmem
    exact ⟨_, ⟨hmem, by simp [ObjectReference.ownedBy]⟩, rfl⟩

/-- The digests of an owner are listed in order, so they are determined by membership. -/
theorem ReferenceIndex.ownerDigests_congr {a b : ReferenceIndex}
    (h : ∀ reference, reference.ownedBy kind owner = true →
      (reference ∈ a.references ↔ reference ∈ b.references)) :
    a.ownerDigests kind owner = b.ownerDigests kind owner := by
  have hfilter : (⟨a.references.filter fun r => r.ownedBy kind owner, a.sorted.filter _⟩ :
      ReferenceIndex) = ⟨b.references.filter fun r => r.ownedBy kind owner, b.sorted.filter _⟩ := by
    refine ReferenceIndex.ext_mem ?_
    intro reference
    simp only [List.mem_filter]
    constructor
    · rintro ⟨hmem, howned⟩
      exact ⟨(h reference howned).mp hmem, howned⟩
    · rintro ⟨hmem, howned⟩
      exact ⟨(h reference howned).mpr hmem, howned⟩
  have hlists := congrArg ReferenceIndex.references hfilter
  unfold ReferenceIndex.ownerDigests
  simp only at hlists
  rw [hlists]

/-- An update of another kind or owner leaves an owner's set as it was. -/
theorem ReferenceIndex.ownerDigests_replace_of_ne {index updated : ReferenceIndex}
    {kind other : ReferenceKind} {owner otherOwner : String} {digests : List ObjectDigest}
    (h : index.replace other otherOwner digests = some updated)
    (hne : kind ≠ other ∨ owner ≠ otherOwner) :
    updated.ownerDigests kind owner = index.ownerDigests kind owner := by
  refine ReferenceIndex.ownerDigests_congr ?_
  intro reference howned
  have hother : reference.ownedBy other otherOwner = false := by
    simp only [ObjectReference.ownedBy, Bool.and_eq_true, beq_iff_eq] at howned
    rcases hne with hkind | howner
    · simp [ObjectReference.ownedBy, howned.1, hkind]
    · simp [ObjectReference.ownedBy, howned.2, howner]
  rw [ReferenceIndex.mem_replace h]
  simp [hother]

theorem ReferenceIndex.mem_ownerDigests_replace {index updated : ReferenceIndex} {digests : List ObjectDigest}
    (h : index.replace kind owner digests = some updated) (digest : ObjectDigest) :
    digest ∈ updated.ownerDigests kind owner ↔ digest ∈ digests := by
  rw [ReferenceIndex.mem_ownerDigests, ReferenceIndex.mem_replace h]
  simp [ObjectReference.ownedBy]

theorem ReferenceIndex.ownerDigests_replace_single {index updated : ReferenceIndex} {digest : ObjectDigest}
    (h : index.replace kind owner [digest] = some updated) :
    updated.ownerDigests kind owner = [digest] := by
  have hnodup : (updated.ownerDigests kind owner).Nodup := by
    unfold ReferenceIndex.ownerDigests
    refine (List.nodup_map_iff_inj_on ?_).mpr ?_
    · exact (updated.sorted.imp fun hlt heq => absurd hlt (by rw [heq]; exact lt_irrefl _)).filter _
    · intro a ha b hb hab
      have hownedA := (List.mem_filter.mp ha).2
      have hownedB := (List.mem_filter.mp hb).2
      simp only [ObjectReference.ownedBy, Bool.and_eq_true, beq_iff_eq] at hownedA hownedB
      obtain ⟨ka, oa, da⟩ := a
      obtain ⟨kb, ob, db⟩ := b
      simp_all
  refine List.perm_singleton.mp ((List.perm_ext_iff_of_nodup hnodup (by simp)).mpr ?_)
  intro other
  rw [ReferenceIndex.mem_ownerDigests_replace h]

theorem ReferenceIndex.length_make {references : List ObjectReference}
    (h : ReferenceIndex.make references = some index) :
    index.references.length ≤ maxReferences := by
  unfold ReferenceIndex.make at h
  simp only at h
  split at h
  · rename_i hfits
    rw [← Option.some.inj h]
    exact hfits.1
  · exact absurd h (by simp)

/-- Releasing the digests of an owner never outgrows the index. -/
theorem ReferenceIndex.replace_nil
    (h : index.references.length ≤ maxReferences) (kind : ReferenceKind) (owner : String) :
    index.replace kind owner [] = some (index.without kind owner) := by
  have hkept := index.sorted.filter fun reference => !reference.ownedBy kind owner
  have hordered : sortReferences (index.references.filter fun r => !r.ownedBy kind owner) =
      index.references.filter fun r => !r.ownedBy kind owner :=
    (hkept.imp fun hlt => le_of_lt hlt).insertionSort_eq
  have hlength : (index.references.filter fun r => !r.ownedBy kind owner).length ≤ maxReferences :=
    le_trans (List.length_filter_le _ _) h
  unfold ReferenceIndex.replace ReferenceIndex.make
  simp only [List.map_nil, List.append_nil, hordered]
  rw [dif_pos ⟨hlength, hkept⟩]
  rfl

/-- An index replaced by nothing is the index without the owner's set. -/
theorem ReferenceIndex.eq_without {index updated : ReferenceIndex} (h : index.replace kind owner [] = some updated) :
    updated = index.without kind owner := by
  refine ReferenceIndex.ext_mem ?_
  intro reference
  rw [ReferenceIndex.mem_replace h]
  simp [ReferenceIndex.without]

theorem ReferenceIndex.ownerDigests_without (index : ReferenceIndex) (kind : ReferenceKind)
    (owner : String) : (index.without kind owner).ownerDigests kind owner = [] := by
  unfold ReferenceIndex.ownerDigests ReferenceIndex.without
  rw [List.filter_filter]
  simp

/-! ## Updates -/

/-- How one call of `replace_references` ends: as intended, or with diagnostics
reported before or after its write took effect. -/
inductive ReferenceFault where
  | none
  | before (diagnostics : List Diagnostic)
  | after (diagnostics : List Diagnostic)
deriving DecidableEq

/-- The index on disk after a call together with what the call reports. The
outer `none` is the constructor error on an index that is too large. -/
def replaceReferences (fault : ReferenceFault) (index : ReferenceIndex) (kind : ReferenceKind)
    (owner : String) (digests : List ObjectDigest) : Option (ReferenceIndex × Result ReferenceIndex) :=
  match fault with
  | .before diagnostics => some (index, .error diagnostics)
  | .none => (index.replace kind owner digests).map fun updated => (updated, .ok updated)
  | .after diagnostics =>
      (index.replace kind owner digests).map fun updated => (updated, .error diagnostics)

/-! ## Garbage collection -/

structure GcOutcome where
  referenced : List ObjectDigest
  candidates : List ObjectDigest
  deleted : List ObjectDigest
deriving DecidableEq

/-- Digests of the inventory that no reference names; deletion may fail for some
of them, and a dry run deletes nothing. -/
def collectGarbage (execute : Bool) (deletionFails : ObjectDigest → Bool) (index : ReferenceIndex)
    (inventory : List ObjectDigest) : GcOutcome :=
  let referenced := (index.references.map (·.digest)).dedup
  let candidates := inventory.filter fun digest => !referenced.contains digest
  ⟨referenced, candidates, if execute then candidates.filter fun d => !deletionFails d else []⟩

/-- A collection deletes no digest that any reference names. -/
theorem collectGarbage_keeps {execute : Bool} {deletionFails : ObjectDigest → Bool} {inventory : List ObjectDigest}
    {reference : ObjectReference}
    (h : reference ∈ index.references) :
    reference.digest ∉ (collectGarbage execute deletionFails index inventory).deleted := by
  intro hdeleted
  have hcandidate : reference.digest ∈
      inventory.filter fun digest => !((index.references.map (·.digest)).dedup.contains digest) := by
    unfold collectGarbage at hdeleted
    simp only at hdeleted
    split at hdeleted
    · exact List.mem_of_mem_filter hdeleted
    · exact absurd hdeleted (by simp)
  have hnot := (List.mem_filter.mp hcandidate).2
  have hreferenced : reference.digest ∈ (index.references.map (·.digest)).dedup :=
    List.mem_dedup.mpr (List.mem_map_of_mem h)
  have hcontains := List.elem_eq_true_of_mem hreferenced
  simp only [List.contains, hcontains, Bool.not_true, Bool.false_eq_true] at hnot

end AgentArtifacts
