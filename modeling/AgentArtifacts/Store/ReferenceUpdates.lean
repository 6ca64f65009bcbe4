import AgentArtifacts.Library.Runs
import AgentArtifacts.Sources.Model
import AgentArtifacts.Store.ReferenceDocuments

/-!
# Updating the references under the lease

An update reads the index, replaces the set of one owner and writes the index, all while it
holds the store lease. The constructor of the index bounds the number of references and the
reader bounds the file; the update itself bounds neither.
-/

namespace AgentArtifacts.References

open Runs (Reach)
open Manifest (validDigest)

def storeUnsafeEntry : DiagnosticCode := ⟨"store-unsafe-entry"⟩

def storeLockBusy : DiagnosticCode := ⟨"store-lock-busy"⟩

def maxReferenceBytes : Nat := 10 * 1024 * 1024

/-! ## The store -/

/-- The checks of the constructor are made of the references that the digests stand for. -/
structure ReferenceUpdateRequest where
  kind : ReferenceKind
  owner : String
  digests : List ObjectDigest
  probes_valid : ∀ digest ∈ digests, (⟨kind, owner, digest⟩ : ObjectReference).valid = true
  digests_sorted : digests.Pairwise fun a b => a.value < b.value

/-- The file of references and the lease, with the index that was last written and how the last
call ended. -/
structure ReferenceStore where
  file : Option Bytes := none
  leased : Bool := false
  written : ReferenceIndex := emptyIndex
  ended : Option (Raising (Result ReferenceIndex)) := none

def emptyStore : ReferenceStore := {}

section Calls

variable [StandardLibrary]

/-- `read_references`. -/
def readReferences (file : Option Bytes) : Result ReferenceIndex :=
  match file with
  | none => .ok emptyIndex
  | some content =>
      if content.length > maxReferenceBytes then
        error storeUnsafeEntry "object reference state is not a bounded regular file"
      else parseReferenceIndex content

/-- `write_references`. -/
def writeReferences (store : ReferenceStore) (index : ReferenceIndex) : ReferenceStore :=
  { store with file := some (referenceIndexBytes index), written := index }

/-- `_release_result`. -/
def releaseResult (store : ReferenceStore) (outcome : Result ReferenceIndex) : ReferenceStore :=
  { store with leased := false, ended := some (.ok outcome) }

/-- `replace_references`; what the constructor of the index raises passes the release by. -/
def replaceReferences (store : ReferenceStore) (request : ReferenceUpdateRequest) : ReferenceStore :=
  if store.leased then
    { store with ended := some (.ok (error storeLockBusy "store operation is already running")) }
  else
    let held := { store with leased := true }
    match readReferences held.file with
    | .error diagnostics => releaseResult held (.error diagnostics)
    | .ok current =>
        match current.replace request.kind request.owner request.digests with
        | none => { held with ended := some (.error "object references must be unique") }
        | some updated => releaseResult (writeReferences held updated) (.ok updated)

def call (store : ReferenceStore) (request : ReferenceUpdateRequest) : Option ReferenceStore :=
  some (replaceReferences store request)

/-! ## Safety -/

/-- The last call returned, the lease is free and the index that was last written is read back. -/
structure Safe (store : ReferenceStore) : Prop where
  returned : ∀ outcome, store.ended = some outcome → ∃ result, outcome = .ok result
  released : store.leased = false
  readable : readReferences store.file = .ok store.written

/-- What a request leaves of an index, and what it adds. -/
def updatedReferences (index : ReferenceIndex) (request : ReferenceUpdateRequest) : List ObjectReference :=
  index.references.filter (fun reference => !reference.ownedBy request.kind request.owner) ++
    request.digests.map fun digest => ⟨request.kind, request.owner, digest⟩

/-- The references that a request leads to are no more, and no larger, than an index may be. -/
def Fits (store : ReferenceStore) (request : ReferenceUpdateRequest) : Prop :=
  (updatedReferences store.written request).length ≤ maxReferences ∧
    documentSize (updatedReferences store.written request) ≤ maxReferenceBytes

/-- A safe store whose file was written from an index within the bounds. -/
structure Sound (store : ReferenceStore) : Prop extends Safe store where
  valid : ∀ reference ∈ store.written.references, reference.valid = true

omit [StandardLibrary] in
theorem nodup_updatedReferences (index : ReferenceIndex) (request : ReferenceUpdateRequest) :
    (updatedReferences index request).Nodup := by
  have hindex : index.references.Nodup := index.sorted.imp fun hlt heq => absurd hlt (by rw [heq]; exact lt_irrefl _)
  have hdigests : request.digests.Nodup :=
    request.digests_sorted.imp fun hlt heq => absurd hlt (by rw [heq]; exact lt_irrefl _)
  refine List.Nodup.append (hindex.filter _) (hdigests.map fun a b h => ?_) ?_
  · exact congrArg ObjectReference.digest h
  · intro reference hkept hadded
    obtain ⟨digest, _, rfl⟩ := List.mem_map.mp hadded
    have howned := (List.mem_filter.mp hkept).2
    simp [ObjectReference.ownedBy] at howned

omit [StandardLibrary] in
theorem valid_updatedReferences {index : ReferenceIndex} (h : ∀ reference ∈ index.references, reference.valid = true)
    (request : ReferenceUpdateRequest) : ∀ reference ∈ updatedReferences index request, reference.valid = true := by
  intro reference hreference
  rcases List.mem_append.mp hreference with hkept | hadded
  · exact h reference (List.mem_of_mem_filter hkept)
  · obtain ⟨digest, hdigest, rfl⟩ := List.mem_map.mp hadded
    exact request.probes_valid digest hdigest

omit [StandardLibrary] in
/-- The constructor accepts distinct references up to its bound. -/
theorem make_iff {references : List ObjectReference} (h : references.Nodup) :
    (∃ index, ReferenceIndex.make references = some index ∧ index.references.Perm references) ↔
      references.length ≤ maxReferences := by
  have hperm : (sortReferences references).Perm references := List.perm_insertionSort _ _
  have hsorted : (sortReferences references).Pairwise fun a b => a.sortKey < b.sortKey := by
    have : Std.Total fun a b : ObjectReference => a.sortKey ≤ b.sortKey := ⟨fun _ _ => le_total _ _⟩
    have : IsTrans ObjectReference fun a b => a.sortKey ≤ b.sortKey := ⟨fun _ _ _ => le_trans⟩
    have hle := List.pairwise_insertionSort (fun a b : ObjectReference => a.sortKey ≤ b.sortKey) references
    refine (hle.and (hperm.nodup_iff.mpr h)).imp fun hboth => ?_
    exact lt_of_le_of_ne hboth.1 fun hsame => hboth.2 (ObjectReference.sortKey_injective hsame)
  constructor
  · rintro ⟨index, hmake, hindex⟩
    rw [← hindex.length_eq]
    exact ReferenceIndex.length_make hmake
  · intro hcount
    have hfits : (sortReferences references).length ≤ maxReferences := hperm.length_eq ▸ hcount
    refine ⟨⟨sortReferences references, hsorted⟩, ?_, hperm⟩
    unfold ReferenceIndex.make
    dsimp only
    rw [dif_pos ⟨hfits, hsorted⟩]

/-- What is written within the bounds is read back, and what is larger is not. -/
theorem readReferences_written [JsonRuntime] {index : ReferenceIndex} (hvalid : ∀ reference ∈ index.references, reference.valid = true)
    (hcount : index.references.length ≤ maxReferences) :
    readReferences (some (referenceIndexBytes index)) = .ok index ↔ documentSize index.references ≤ maxReferenceBytes := by
  unfold readReferences
  dsimp only
  rw [length_referenceIndexBytes hvalid]
  constructor
  · intro h
    by_contra hlarge
    rw [if_pos (not_le.mp hlarge)] at h
    cases h
  · intro hfits
    rw [if_neg (not_lt.mpr hfits)]
    exact parseReferenceIndex_written hvalid hcount

variable {store : ReferenceStore}

/-- What a call on a sound store comes to. -/
theorem replaceReferences_eq (h : Sound store) (request : ReferenceUpdateRequest) :
    replaceReferences store request =
      match ReferenceIndex.make (updatedReferences store.written request) with
      | none => { store with leased := true, ended := some (.error "object references must be unique") }
      | some updated => releaseResult (writeReferences { store with leased := true } updated) (.ok updated) := by
  unfold replaceReferences
  simp only [h.released, h.readable, Bool.false_eq_true, if_false]
  rfl

/-- With more references than an index holds, the call raises and keeps the lease. -/
theorem replaceReferences_crowded (h : Sound store) {request : ReferenceUpdateRequest}
    (hcount : maxReferences < (updatedReferences store.written request).length) :
    replaceReferences store request =
      { store with leased := true, ended := some (.error "object references must be unique") } := by
  have hnone : ReferenceIndex.make (updatedReferences store.written request) = none := by
    cases hmake : ReferenceIndex.make (updatedReferences store.written request) with
    | none => rfl
    | some updated =>
        unfold ReferenceIndex.make at hmake
        dsimp only at hmake
        split at hmake
        · rename_i hfits
          rw [sortReferences, List.length_insertionSort] at hfits
          exact absurd hfits.1 (not_le.mpr hcount)
        · cases hmake
  rw [replaceReferences_eq h, hnone]

theorem replaceReferences_counted (h : Sound store) {request : ReferenceUpdateRequest}
    (hcount : (updatedReferences store.written request).length ≤ maxReferences) :
    ∃ updated : ReferenceIndex, updated.references.Perm (updatedReferences store.written request) ∧
      updated.references.length ≤ maxReferences ∧ (∀ reference ∈ updated.references, reference.valid = true) ∧
      replaceReferences store request =
        releaseResult (writeReferences { store with leased := true } updated) (.ok updated) := by
  obtain ⟨updated, hmake, hperm⟩ := (make_iff (nodup_updatedReferences store.written request)).mpr hcount
  have hvalid := valid_updatedReferences h.valid request
  refine ⟨updated, hperm, ReferenceIndex.length_make hmake,
    fun reference hreference => hvalid reference (hperm.mem_iff.mp hreference), ?_⟩
  rw [replaceReferences_eq h, hmake]

/-- A call on a sound store leaves it safe exactly where its request fits, and then it is sound again. -/
theorem replaceReferences_sound [JsonRuntime] (h : Sound store) (request : ReferenceUpdateRequest) :
    (Safe (replaceReferences store request) ↔ Fits store request) ∧
      (Fits store request → Sound (replaceReferences store request)) := by
  by_cases hcount : (updatedReferences store.written request).length ≤ maxReferences
  · obtain ⟨updated, hperm, hupdatedCount, hupdatedValid, hcall⟩ := replaceReferences_counted h hcount
    have hread := readReferences_written hupdatedValid hupdatedCount
    rw [documentSize_perm hperm] at hread
    have hsafe : documentSize (updatedReferences store.written request) ≤ maxReferenceBytes →
        Safe (replaceReferences store request) := by
      intro hsize
      rw [hcall]
      refine ⟨?_, rfl, hread.mpr hsize⟩
      exact fun outcome hended => ⟨.ok updated, (Option.some.inj hended).symm⟩
    refine ⟨⟨fun hafter => ⟨hcount, ?_⟩, fun hfits => hsafe hfits.2⟩, fun hfits => ⟨hsafe hfits.2, ?_⟩⟩
    · have hreadable := hafter.readable
      rw [hcall] at hreadable
      exact hread.mp hreadable
    · rw [hcall]
      exact hupdatedValid
  · have hcall := replaceReferences_crowded h (not_le.mp hcount)
    refine ⟨⟨fun hafter => ?_, fun hfits => absurd hfits.1 hcount⟩, fun hfits => absurd hfits.1 hcount⟩
    have hreleased := hafter.released
    rw [hcall] at hreleased
    cases hreleased

theorem emptyStore_sound : Sound emptyStore where
  returned := by
    intro outcome h
    cases h
  released := rfl
  readable := rfl
  valid := by
    intro reference h
    cases h

/-- Where every request of a run from the empty store fits, each call returns, the lease is free
again and the index that was last written is read back; the next call keeps this exactly where
its request fits. -/
theorem replaceReferences_run [JsonRuntime] {store : ReferenceStore} (h : Reach call Fits emptyStore store) :
    Safe store ∧ ∀ request next, call store request = some next → (Safe next ↔ Fits store request) := by
  have hsound : Sound store := by
    refine h.invariant emptyStore_sound fun before request next hbefore hfits hcall => ?_
    obtain rfl := Option.some.inj hcall
    exact (replaceReferences_sound hbefore request).2 hfits
  refine ⟨hsound.toSafe, fun request next hcall => ?_⟩
  obtain rfl := Option.some.inj hcall
  exact (replaceReferences_sound hsound request).1

/-! ## Histories -/

omit [StandardLibrary] in
/-- The digests of an owner stand in order. -/
theorem ownerDigests_sorted (index : ReferenceIndex) (kind : ReferenceKind) (owner : String) :
    (index.ownerDigests kind owner).Pairwise fun a b => a.value < b.value := by
  refine List.pairwise_map.mpr ((index.sorted.filter _).imp_of_mem fun {a b} ha hb hlt => ?_)
  have howned := (List.mem_filter.mp ha).2
  have hother := (List.mem_filter.mp hb).2
  simp only [ObjectReference.ownedBy, Bool.and_eq_true, beq_iff_eq] at howned hother
  rw [ObjectReference.sortKey, ObjectReference.sortKey, howned.1, howned.2, hother.1, hother.2] at hlt
  simpa only [List.cons_lt_cons_self, List.cons_lt_cons_iff, List.not_lt_nil, and_false, or_false] using hlt

def ReferenceUpdateRequest.isOf (request : ReferenceUpdateRequest) (kind : ReferenceKind) (owner : String) : Bool :=
  request.kind == kind && request.owner == owner

/-- The digests that the last request of an owner gives it. -/
def lastDigests (requests : List ReferenceUpdateRequest) (kind : ReferenceKind) (owner : String) : List ObjectDigest :=
  requests.foldl (fun digests request => if request.isOf kind owner then request.digests else digests) []

/-- Every request of a history fits where it is made. -/
def AllFit : ReferenceStore → List ReferenceUpdateRequest → Prop
  | _, [] => True
  | store, request :: rest => Fits store request ∧ AllFit (replaceReferences store request) rest

/-- A fitting request gives its owner its digests, and every other owner keeps what it had. -/
theorem ownerDigests_replaceReferences (h : Sound store) {request : ReferenceUpdateRequest}
    (hfits : Fits store request) (kind : ReferenceKind) (owner : String) :
    (replaceReferences store request).written.ownerDigests kind owner =
      if request.isOf kind owner then request.digests else store.written.ownerDigests kind owner := by
  obtain ⟨updated, hperm, -, -, hcall⟩ := replaceReferences_counted h hfits.1
  have hwritten : (replaceReferences store request).written = updated := by
    rw [hcall]
    rfl
  have hmem (digest : ObjectDigest) : digest ∈ updated.ownerDigests kind owner ↔
      digest ∈ if request.isOf kind owner then request.digests else store.written.ownerDigests kind owner := by
    rw [ReferenceIndex.mem_ownerDigests, hperm.mem_iff, updatedReferences, List.mem_append, List.mem_filter, List.mem_map]
    by_cases hsame : request.isOf kind owner = true
    · rw [if_pos hsame]
      simp only [ReferenceUpdateRequest.isOf, Bool.and_eq_true, beq_iff_eq] at hsame
      simp [ObjectReference.ownedBy, hsame.1, hsame.2]
    · rw [if_neg hsame, ReferenceIndex.mem_ownerDigests]
      have howned : ObjectReference.ownedBy ⟨kind, owner, digest⟩ request.kind request.owner = false := by
        rw [← Bool.not_eq_true]
        simpa only [ReferenceUpdateRequest.isOf, ObjectReference.ownedBy, Bool.and_eq_true, beq_iff_eq,
          eq_comm (b := kind), eq_comm (b := owner)] using hsame
      rw [howned, Bool.not_false, and_iff_left rfl, or_iff_left]
      rintro ⟨_, _, heq⟩
      rw [← heq] at howned
      simp [ObjectReference.ownedBy] at howned
  rw [hwritten]
  have hsorted : (if request.isOf kind owner then request.digests else store.written.ownerDigests kind owner).Pairwise
      fun a b => a.value < b.value := by
    split
    · exact request.digests_sorted
    · exact ownerDigests_sorted _ _ _
  have hnodup {digests : List ObjectDigest} (hdigests : digests.Pairwise fun a b => a.value < b.value) : digests.Nodup :=
    hdigests.imp fun hlt heq => absurd hlt (by rw [heq]; exact lt_irrefl _)
  have hupdated := ownerDigests_sorted updated kind owner
  refine ((List.perm_ext_iff_of_nodup (hnodup hupdated) (hnodup hsorted)).mpr hmem).eq_of_pairwise ?_ hupdated hsorted
  exact fun a b _ _ hlt hgt => absurd (lt_trans hlt hgt) (lt_irrefl _)

theorem replaceReferences_history [JsonRuntime] {requests : List ReferenceUpdateRequest}
    (h : Sound store) (hfits : AllFit store requests) :
    Sound (requests.foldl replaceReferences store) ∧
      ∀ kind owner, (requests.foldl replaceReferences store).written.ownerDigests kind owner =
        requests.foldl (fun digests request => if request.isOf kind owner then request.digests else digests)
          (store.written.ownerDigests kind owner) := by
  induction requests generalizing store with
  | nil => exact ⟨h, fun _ _ => rfl⟩
  | cons request rest ih =>
      obtain ⟨hsound, hrest⟩ := ih ((replaceReferences_sound h request).2 hfits.1) hfits.2
      refine ⟨hsound, fun kind owner => ?_⟩
      rw [List.foldl_cons, List.foldl_cons, hrest, ownerDigests_replaceReferences h hfits.1]

omit [StandardLibrary] in
/-- A collection deletes the stored digests that no owner names, those apart whose deletion fails. -/
theorem mem_collectGarbage {deletionFails : ObjectDigest → Bool} {index : ReferenceIndex} {inventory : List ObjectDigest}
    {digest : ObjectDigest} :
    digest ∈ (collectGarbage true deletionFails index inventory).deleted ↔
      digest ∈ inventory ∧ deletionFails digest = false ∧ ∀ kind owner, digest ∉ index.ownerDigests kind owner := by
  unfold collectGarbage
  dsimp only
  rw [if_pos rfl, List.mem_filter, List.mem_filter, and_assoc, Bool.not_eq_true', Bool.not_eq_true',
    ← Bool.not_eq_true, List.contains_iff_mem, List.mem_dedup, List.mem_map, and_comm (b := deletionFails digest = false)]
  refine and_congr_right fun _ => and_congr_right fun _ => ?_
  simp only [ReferenceIndex.mem_ownerDigests]
  refine ⟨fun h kind owner hmem => h ⟨_, hmem, rfl⟩, ?_⟩
  rintro h ⟨reference, hmem, rfl⟩
  exact h _ _ hmem

/-- After a history of fitting updates the index read back gives every owner the digests of its last
request, and a collection made then deletes what is stored and in no owner's last request. -/
theorem replaceReferences_lastWins [JsonRuntime] {requests : List ReferenceUpdateRequest}
    (h : AllFit emptyStore requests) :
    ∃ index, readReferences (requests.foldl replaceReferences emptyStore).file = .ok index ∧
      (∀ kind owner, index.ownerDigests kind owner = lastDigests requests kind owner) ∧
      ∀ deletionFails inventory digest, digest ∈ (collectGarbage true deletionFails index inventory).deleted ↔
        digest ∈ inventory ∧ deletionFails digest = false ∧ ∀ kind owner, digest ∉ lastDigests requests kind owner := by
  obtain ⟨hsound, howners⟩ := replaceReferences_history emptyStore_sound h
  refine ⟨_, hsound.readable, howners, fun deletionFails inventory digest => ?_⟩
  rw [mem_collectGarbage]
  simp only [howners]
  rfl

end Calls

/-! ## Long histories -/

/-- A library whose hash is one number. -/
@[reducible] def numberLibrary (n : Nat) : StandardLibrary := pythonLibrary (fun _ => Framing.bigEndian 32 n) fun _ => true

def numberedDigest (n : Nat) : ObjectDigest := @sha256Bytes (numberLibrary n) []

theorem numberedDigest_valid (n : Nat) : validDigest (numberedDigest n) = true :=
  @validDigest_sha256Bytes (numberLibrary n) (fun _ => Framing.bigEndian_length 32 n) []

theorem numberedDigest_injective {m n : Nat} (hm : m < 256 ^ 32) (hn : n < 256 ^ 32)
    (h : numberedDigest m = numberedDigest n) : m = n := by
  have hoctets := congrArg digestOctets h
  rw [numberedDigest, numberedDigest, @digestOctets_sha256Bytes (numberLibrary m),
    @digestOctets_sha256Bytes (numberLibrary n)] at hoctets
  exact Framing.bigEndian_injective hm hn hoctets

def manyDigests (count : Nat) : List ObjectDigest :=
  ((List.range count).map numberedDigest).insertionSort fun a b => a.value ≤ b.value

theorem length_manyDigests (count : Nat) : (manyDigests count).length = count := by
  rw [manyDigests, List.length_insertionSort, List.length_map, List.length_range]

theorem manyDigests_sorted {count : Nat} (hcount : count ≤ 256 ^ 32) :
    (manyDigests count).Pairwise fun a b => a.value < b.value := by
  have hnodup : ((List.range count).map numberedDigest).Nodup := by
    refine List.Nodup.map_on (fun m hm n hn h => ?_) List.nodup_range
    exact numberedDigest_injective (lt_of_lt_of_le (List.mem_range.mp hm) hcount)
      (lt_of_lt_of_le (List.mem_range.mp hn) hcount) h
  have : Std.Total fun a b : ObjectDigest => a.value ≤ b.value := ⟨fun _ _ => le_total _ _⟩
  have : IsTrans ObjectDigest fun a b => a.value ≤ b.value := ⟨fun _ _ _ => le_trans⟩
  have hle := List.pairwise_insertionSort (fun a b : ObjectDigest => a.value ≤ b.value) ((List.range count).map numberedDigest)
  refine (hle.and ((List.perm_insertionSort _ _).nodup_iff.mpr hnodup)).imp fun {a b} hboth => ?_
  refine lt_of_le_of_ne hboth.1 fun hsame => hboth.2 ?_
  cases a
  cases b
  exact congrArg ObjectDigest.mk hsame

/-- A request of one owner for many digests. -/
def manyRequest (owner : String) (howner : isReferenceOwner owner = true) (count : Nat) (hcount : count ≤ 256 ^ 32) :
    ReferenceUpdateRequest where
  kind := .retained
  owner
  digests := manyDigests count
  probes_valid := by
    intro digest hdigest
    obtain ⟨n, _, rfl⟩ := List.mem_map.mp ((List.perm_insertionSort _ _).mem_iff.mp hdigest)
    rw [ObjectReference.valid, howner, numberedDigest_valid, Bool.and_self]
  digests_sorted := manyDigests_sorted hcount

theorem updatedReferences_many (owner : String) (howner : isReferenceOwner owner = true) (count : Nat) (hcount : count ≤ 256 ^ 32) :
    updatedReferences emptyStore.written (manyRequest owner howner count hcount) =
      (manyDigests count).map fun digest => ⟨.retained, owner, digest⟩ := rfl

theorem documentSize_many (owner : String) (count : Nat) :
    documentSize ((manyDigests count).map fun digest => (⟨.retained, owner, digest⟩ : ObjectReference)) =
      37 + (count * (114 + owner.length) - 1) := by
  have hsize : (fun reference : ObjectReference => reference.size + 1) ∘
      (fun digest => (⟨.retained, owner, digest⟩ : ObjectReference)) = fun _ => 114 + owner.length := by
    funext digest
    have hkind : ReferenceKind.retained.value.length = 8 := rfl
    simp only [Function.comp, ObjectReference.size, hkind]
    omega
  rw [documentSize, List.map_map, hsize, List.map_const', List.sum_replicate_nat, length_manyDigests]

/-- An owner of one letter and so many more. -/
def ownerOf (n : Nat) : String := String.ofList ('a' :: List.replicate n 'a')

theorem length_ownerOf (n : Nat) : (ownerOf n).length = n + 1 := by
  rw [ownerOf, String.length_ofList, List.length_cons, List.length_replicate]

theorem ownerOf_valid {n : Nat} (h : n ≤ 511) : isReferenceOwner (ownerOf n) = true := by
  have hchars : (ownerOf n).toList = 'a' :: List.replicate n 'a' := by
    rw [ownerOf, String.toList_ofList]
  have hall : (List.replicate n 'a').all isOwnerChar = true :=
    List.all_eq_true.mpr fun c hc => List.eq_of_mem_replicate hc ▸ (by decide)
  unfold isReferenceOwner
  rw [hchars]
  dsimp only
  rw [hall, List.length_replicate, decide_eq_true h]
  decide

section Samples

attribute [local instance] storeLibrary

/-- One reference too many raises with the lease held; an index whose file is too large is written
and never read again. -/
theorem replaceReferences_strands :
    (∃ store, Reach call (fun _ _ => True) emptyStore store ∧ store.leased = true) ∧
      ∃ store, Reach call (fun _ _ => True) emptyStore store ∧ store.leased = false ∧
        readReferences store.file ≠ .ok store.written := by
  constructor
  · refine ⟨_, Reach.start.step trivial (rfl : call emptyStore (manyRequest "notes" (by decide) 100001 (by decide)) = _), ?_⟩
    rw [replaceReferences_crowded emptyStore_sound]
    rw [updatedReferences_many, List.length_map, length_manyDigests]
    decide
  · refine ⟨_, Reach.start.step trivial (rfl : call emptyStore (manyRequest (ownerOf 511) (ownerOf_valid (by decide)) 17000 (by decide)) = _), ?_⟩
    have hcount : (updatedReferences emptyStore.written (manyRequest (ownerOf 511) (ownerOf_valid (by decide)) 17000 (by decide))).length ≤
        maxReferences := by
      rw [updatedReferences_many, List.length_map, length_manyDigests]
      decide
    obtain ⟨updated, hperm, hupdatedCount, hupdatedValid, hcall⟩ := replaceReferences_counted emptyStore_sound hcount
    rw [hcall]
    refine ⟨rfl, fun hread => ?_⟩
    have hsize := (@readReferences_written _ (pythonLibrary_jsonRuntime _ _) updated hupdatedValid hupdatedCount).mp hread
    rw [documentSize_perm hperm, updatedReferences_many, documentSize_many, length_ownerOf] at hsize
    unfold maxReferenceBytes at hsize
    omega

theorem replaceReferences_run_notes :
    Safe (replaceReferences emptyStore (manyRequest "notes" (by decide) 2 (by decide))) := by
  have hfits : Fits emptyStore (manyRequest "notes" (by decide) 2 (by decide)) := by
    constructor
    · rw [updatedReferences_many, List.length_map, length_manyDigests]
      decide
    · rw [updatedReferences_many, documentSize_many]
      decide
  exact (@replaceReferences_run _ (pythonLibrary_jsonRuntime _ _) _ (Reach.start.step hfits rfl)).1

theorem replaceReferences_lastWins_drafts :
    ∃ index, readReferences (replaceReferences emptyStore (manyRequest "drafts" (by decide) 3 (by decide))).file = .ok index ∧
      index.ownerDigests .retained "drafts" = manyDigests 3 := by
  have hcount : (updatedReferences emptyStore.written (manyRequest "drafts" (by decide) 3 (by decide))).length = 3 := by
    rw [updatedReferences_many, List.length_map, length_manyDigests]
  have hsize : documentSize (updatedReferences emptyStore.written (manyRequest "drafts" (by decide) 3 (by decide))) = 396 := by
    rw [updatedReferences_many, documentSize_many]
    decide
  obtain ⟨index, hread, howners, -⟩ :=
    @replaceReferences_lastWins _ (pythonLibrary_jsonRuntime _ _) [manyRequest "drafts" (by decide) 3 (by decide)]
      ⟨⟨by rw [hcount]; decide, by rw [hsize]; decide⟩, trivial⟩
  exact ⟨index, hread, howners _ _⟩

end Samples

end AgentArtifacts.References
