import AgentArtifacts.Installation.Prepare
import AgentArtifacts.Lifecycle.MemoryLayout
import AgentArtifacts.Lifecycle.Removal

/-!
# Status and removal agree

The status of an effect and the plan of its removal derive drift separately: the
one counts and orders markers, the other searches the end marker behind the begin
marker; the one looks at the member that carries an identity, the other cuts it
out. Each kind of effect is compared branch by branch.
-/

namespace AgentArtifacts

/-- The states in which an unforced removal goes ahead. -/
def LifecycleStatus.Removable (status : LifecycleStatus) : Prop :=
  status = .current ∨ status = .missing ∨ status = .broken

/-- A removal is planned in a removable state, and changes nothing exactly in a missing one. -/
structure Agrees (status : LifecycleStatus) (removal : Except String Mutation) : Prop where
  planned : (∃ mutation, removal = .ok mutation) ↔ status.Removable
  nothing : removal = .ok .none ↔ status = .missing

theorem Agrees.missing : Agrees .missing (.ok .none) :=
  ⟨by simp [LifecycleStatus.Removable], by simp⟩

theorem Agrees.present {status : LifecycleStatus} (hstatus : status = .current ∨ status = .broken)
    {mutation : Mutation} (h : mutation ≠ .none) : Agrees status (.ok mutation) := by
  rcases hstatus with rfl | rfl
  · exact ⟨by simp [LifecycleStatus.Removable], by simp [h]⟩
  · exact ⟨by simp [LifecycleStatus.Removable], by simp [h]⟩

theorem Agrees.conflict {status : LifecycleStatus} (h : ¬ status.Removable) (message : String) :
    Agrees status (.error message) := by
  refine ⟨by simp [h], ?_⟩
  have hne : status ≠ .missing := fun heq => h (Or.inr (Or.inl heq))
  simp [hne]

theorem not_removable_drifted : ¬ LifecycleStatus.Removable .drifted := by
  simp [LifecycleStatus.Removable]

/-! ## Links and copies -/

theorem linkRemoval_agrees (effect : EffectProof) (snapshot : Observed) :
    Agrees (linkStatus effect snapshot) (linkRemoval effect snapshot false) := by
  unfold linkRemoval
  cases hstatus : linkStatus effect snapshot with
  | missing => exact Agrees.missing
  | current => exact Agrees.present (Or.inl rfl) (by simp)
  | broken => exact Agrees.present (Or.inr rfl) (by simp)
  | _ => exact Agrees.conflict (by simp [LifecycleStatus.Removable]) _

theorem linkRemoval_forced (effect : EffectProof) (snapshot : Observed) :
    ∃ mutation, linkRemoval effect snapshot true = .ok mutation := by
  unfold linkRemoval
  cases linkStatus effect snapshot <;> exact ⟨_, rfl⟩

section Copies

variable [StandardLibrary]

theorem copyRemoval_agrees {effect : EffectProof} (h : effect.restoresFrom = none) (snapshot : Observed)
    (restore : Option Observed) :
    Agrees (if snapshot.isAbsent then .missing else if ownsCopy effect snapshot then .current else .drifted)
      (copyRemoval effect snapshot false restore) := by
  unfold copyRemoval
  by_cases habsent : snapshot.isAbsent = true
  · simp only [habsent, if_true]
    exact Agrees.missing
  · by_cases howned : ownsCopy effect snapshot = true
    · simp only [habsent, howned, h, if_true, Bool.not_true, Bool.false_and, Bool.false_eq_true, if_false]
      exact Agrees.present (Or.inl rfl) (by simp)
    · simp only [habsent, howned, if_false, Bool.not_false, Bool.true_and, if_true, Bool.false_eq_true]
      exact Agrees.conflict not_removable_drifted _

theorem copyRemoval_forced {effect : EffectProof} (h : effect.restoresFrom = none) (snapshot : Observed)
    (restore : Option Observed) : ∃ mutation, copyRemoval effect snapshot true restore = .ok mutation := by
  unfold copyRemoval
  by_cases habsent : snapshot.isAbsent = true
  · exact ⟨.none, by simp [habsent]⟩
  · exact ⟨.remove, by simp [habsent, h]⟩

end Copies

/-! ## Managed blocks -/

/-- One begin marker and one end marker behind it. -/
def PairedMarkers (name : String) (text : Chars) : Prop :=
  Text.count (beginMarker name).toList text = 1 ∧ Text.count (endMarker name).toList text = 1 ∧
    ∃ left inner right, text = left ++ (beginMarker name).toList ++ inner ++ (endMarker name).toList ++ right

def Unmarked (name : String) (text : Chars) : Prop :=
  ¬ (beginMarker name).toList <:+: text ∧ ¬ (endMarker name).toList <:+: text

/-- Markers that delimit no block. -/
def MalformedMarkers (name : String) (text : Chars) : Prop :=
  ¬ Unmarked name text ∧ ¬ PairedMarkers name text

theorem stripManagedBlockChars_of_unmarked {name : String} {text : Chars} (h : Unmarked name text) :
    stripManagedBlockChars name text = some text := by
  have hfirst := Text.partition?_eq_none_iff.mpr h.1
  have hlast := Text.partition?_eq_none_iff.mpr h.2
  simp [stripManagedBlockChars, Text.contains, hfirst, hlast]

theorem length_dropNewline_le (text : Chars) : (dropNewline text).length ≤ text.length := by
  unfold dropNewline
  split <;> simp

variable {name : Slug}

theorem stripManagedBlockChars_of_paired {text : Chars} (h : PairedMarkers name.value text) :
    ∃ stripped, stripManagedBlockChars name.value text = some stripped ∧ stripped ≠ text := by
  obtain ⟨hfirst, hlast, left, inner, right, htext⟩ := h
  have hoccurs : text = left ++ (beginMarker name.value).toList ++ (inner ++ (endMarker name.value).toList ++ right) := by
    rw [htext]
    simp
  have hcontains : Text.contains (beginMarker name.value).toList text = true :=
    Text.partition?_isSome_of_infix ⟨left, _, hoccurs.symm⟩
  obtain ⟨⟨before, after⟩, hbegin⟩ := Option.isSome_iff_exists.mp hcontains
  have hsplit := Text.partition?_eq hbegin
  have hle := Text.partition?_length_le hbegin hoccurs
  have hbefore : before <+: text := ⟨(beginMarker name.value).toList ++ after, by rw [hsplit]; simp⟩
  have hleft : left <+: text := ⟨_, by rw [hoccurs, List.append_assoc]⟩
  obtain ⟨shift, rfl⟩ := List.prefix_of_prefix_length_le hbefore hleft hle
  have htail : (beginMarker name.value).toList ++ after =
      shift ++ (beginMarker name.value).toList ++ inner ++ (endMarker name.value).toList ++ right := by
    have hboth := hsplit.symm.trans htext
    simp only [List.append_assoc, List.append_cancel_left_eq] at hboth
    simpa using hboth
  have hfound : (Text.partition? (endMarker name.value).toList ((beginMarker name.value).toList ++ after)).isSome :=
    Text.partition?_isSome_of_infix ⟨shift ++ (beginMarker name.value).toList ++ inner, right, htail.symm⟩
  obtain ⟨⟨upto, tail⟩, hend⟩ := Option.isSome_iff_exists.mp hfound
  have hpair := Text.partition?_eq hend
  let stripped := before ++ dropNewline tail
  let trimmed := if ['\n', '\n'] <:+ stripped then stripped.dropLast else stripped
  refine ⟨dropNewline trimmed, ?_, ?_⟩
  · simp only [stripManagedBlockChars, hcontains, hfirst, hlast, hbegin, hend, Bool.not_true, Bool.false_and,
      Bool.false_eq_true, if_false, ne_eq, not_true_eq_false, or_self, stripped, trimmed]
  · -- What is left is shorter by the end marker at least.
    intro heq
    have hmarker := List.length_pos_of_ne_nil (Marker.last.chars_ne_nil name)
    have hlength := congrArg List.length (hsplit.trans (by rw [List.append_assoc, hpair]))
    have htrimmed : trimmed.length ≤ stripped.length := by
      show (if _ then _ else _ : Chars).length ≤ _
      split
      · simp
      · exact Nat.le_refl _
    have hdropped := length_dropNewline_le trimmed
    have hdropped' := length_dropNewline_le tail
    rw [heq] at hdropped
    simp only [Marker.chars] at hmarker
    simp only [stripped, List.length_append] at hlength htrimmed
    omega

theorem stripManagedBlockChars_of_malformed {text : Chars}
    (h : MalformedMarkers name.value text) : stripManagedBlockChars name.value text = none := by
  obtain ⟨hmarked, hpaired⟩ := h
  have hsome : ¬ (!Text.contains (beginMarker name.value).toList text &&
      !Text.contains (endMarker name.value).toList text) = true := by
    intro hnone
    simp only [Bool.and_eq_true, Bool.not_eq_true', Text.contains, Option.isSome_eq_false_iff,
      Option.isNone_iff_eq_none, Text.partition?_eq_none_iff] at hnone
    exact hmarked hnone
  unfold stripManagedBlockChars
  simp only [hsome, Bool.false_eq_true, if_false]
  by_cases hcount : Text.count (beginMarker name.value).toList text ≠ 1 ∨
      Text.count (endMarker name.value).toList text ≠ 1
  · simp only [hcount, if_true]
  · simp only [hcount, if_false]
    rw [not_or, not_not, not_not] at hcount
    cases hbegin : Text.partition? (beginMarker name.value).toList text with
    | none => rfl
    | some parts =>
        obtain ⟨before, after⟩ := parts
        cases hend : Text.partition? (endMarker name.value).toList
            ((beginMarker name.value).toList ++ after) with
        | none => simp only [hend]
        | some rest =>
            obtain ⟨upto, tail⟩ := rest
            have hpair := Text.partition?_eq hend
            obtain ⟨inner, rfl⟩ := endMarker_after_beginMarker name hpair
            refine absurd ⟨hcount.1, hcount.2, before, inner, tail, ?_⟩ hpaired
            rw [Text.partition?_eq hbegin, List.append_assoc, hpair]
            simp

theorem managedBlockStatus_of_unmarked {name : String} {content : Bytes} {text : String} {executable : Bool}
    (htext : decodeUtf8 content = some text) (h : Unmarked name text.toList) :
    managedBlockStatus name (.file content executable) = .missing := by
  have hfirst := Text.partition?_eq_none_iff.mpr h.1
  have hlast := Text.partition?_eq_none_iff.mpr h.2
  simp [managedBlockStatus, htext, hfirst, hlast]

/-- The end marker of a pair is not searched before its begin marker. -/
theorem PairedMarkers.ordered {text before after upto tail : Chars}
    (h : PairedMarkers name.value text)
    (hbegin : Text.partition? (beginMarker name.value).toList text = some (before, after))
    (hend : Text.partition? (endMarker name.value).toList text = some (upto, tail)) :
    ¬ upto.length < before.length := by
  obtain ⟨_, hlast, left, inner, right, htext⟩ := h
  intro hlt
  have hsplit := Text.partition?_eq hend
  have hshape : text = left ++ (beginMarker name.value).toList ++
      (inner ++ (endMarker name.value).toList ++ right) := by rw [htext]; simp
  have hle := Text.partition?_length_le hbegin hshape
  have hupto : upto <+: text := ⟨(endMarker name.value).toList ++ tail, by rw [hsplit]; simp⟩
  have hleft : left <+: text := ⟨(beginMarker name.value).toList ++
    (inner ++ ((endMarker name.value).toList ++ right)), by rw [htext]; simp⟩
  obtain ⟨shift, rfl⟩ := List.prefix_of_prefix_length_le hupto hleft (by omega)
  have heq : Marker.last.chars name ++ tail =
      shift ++ (Marker.first.chars name ++ (inner ++ (Marker.last.chars name ++ right))) := by
    have hboth := hsplit.symm.trans htext
    simp only [List.append_assoc, List.append_cancel_left_eq] at hboth
    simpa only [Marker.chars] using hboth
  have hshift : shift ≠ [] := by
    rintro rfl
    rw [List.append_nil] at hle
    omega
  by_cases hlength : shift.length < (Marker.last.chars name).length
  · exact Marker.no_overlap hshift hlength heq
  · -- The pair lies behind the first end marker, so there are two end markers.
    obtain ⟨more, rfl⟩ := List.prefix_of_prefix_length_le (List.prefix_append (Marker.last.chars name) tail)
      (show shift <+: Marker.last.chars name ++ tail from ⟨_, heq.symm⟩) (by omega)
    rw [List.append_assoc, List.append_cancel_left_eq] at heq
    have hagain : Marker.last.chars name <:+: tail :=
      ⟨more ++ (Marker.first.chars name ++ inner), right, by rw [heq]; simp⟩
    have hpos := Text.count_pos (Marker.last.chars_ne_nil name) hagain
    have hcount := Text.count_of_partition? (Marker.last.chars_ne_nil name) hend
    simp only [Marker.chars] at hpos hcount
    omega

theorem managedBlockStatus_of_paired {content : Bytes} {text : String} {executable : Bool}
    (htext : decodeUtf8 content = some text) (h : PairedMarkers name.value text.toList) :
    managedBlockStatus name.value (.file content executable) = .current := by
  obtain ⟨left, inner, right, hsplit⟩ := h.2.2
  have hbeginIn : (beginMarker name.value).toList <:+: text.toList :=
    ⟨left, inner ++ (endMarker name.value).toList ++ right, by rw [hsplit]; simp⟩
  have hendIn : (endMarker name.value).toList <:+: text.toList :=
    ⟨left ++ (beginMarker name.value).toList ++ inner, right, by rw [hsplit]⟩
  have hfirst := Text.partition?_isSome_of_infix hbeginIn
  have hlast := Text.partition?_isSome_of_infix hendIn
  obtain ⟨⟨before, after⟩, hbegin⟩ := Option.isSome_iff_exists.mp hfirst
  obtain ⟨⟨upto, tail⟩, hend⟩ := Option.isSome_iff_exists.mp hlast
  have hordered := h.ordered hbegin hend
  simp only [managedBlockStatus, htext, hbegin, hend, hordered, if_false, h.1, h.2.1, and_self, if_true]

theorem managedBlockStatus_of_malformed {content : Bytes} {text : String} {executable : Bool}
    (htext : decodeUtf8 content = some text) (h : MalformedMarkers name.value text.toList) :
    managedBlockStatus name.value (.file content executable) = .drifted := by
  obtain ⟨hmarked, hpaired⟩ := h
  simp only [managedBlockStatus, htext]
  cases hbegin : Text.partition? (beginMarker name.value).toList text.toList with
  | none =>
      cases hend : Text.partition? (endMarker name.value).toList text.toList with
      | none =>
          exact absurd ⟨Text.partition?_eq_none_iff.mp hbegin, Text.partition?_eq_none_iff.mp hend⟩ hmarked
      | some rest => rfl
  | some parts =>
      obtain ⟨before, after⟩ := parts
      cases hend : Text.partition? (endMarker name.value).toList text.toList with
      | none => rfl
      | some rest =>
          obtain ⟨upto, tail⟩ := rest
          simp only
          by_cases hlt : upto.length < before.length
          · rw [if_pos hlt]
          · rw [if_neg hlt, if_neg]
            intro hcount
            -- Both markers once and in order are a pair.
            have hsplit := Text.partition?_eq hbegin
            have hsplit' := Text.partition?_eq hend
            have hbefore : before <+: text.toList :=
              ⟨(beginMarker name.value).toList ++ after, by rw [hsplit]; simp⟩
            have hupto : upto <+: text.toList :=
              ⟨(endMarker name.value).toList ++ tail, by rw [hsplit']; simp⟩
            obtain ⟨shift, rfl⟩ := List.prefix_of_prefix_length_le hbefore hupto (by omega)
            have heq : (beginMarker name.value).toList ++ after =
                shift ++ (endMarker name.value).toList ++ tail := by
              have hboth := hsplit.symm.trans hsplit'
              simp only [List.append_assoc, List.append_cancel_left_eq] at hboth
              simpa using hboth
            obtain ⟨inner, rfl⟩ := endMarker_after_beginMarker name heq
            exact hpaired ⟨hcount.1, hcount.2, before, inner, tail, by rw [hsplit']; simp⟩

/-- Why a block cannot be taken back even with force. -/
def BlockConflict (name : String) : Observed → Prop
  | .absent => False
  | .file content _ =>
      decodeUtf8 content = none ∨ ∃ text, decodeUtf8 content = some text ∧ MalformedMarkers name text.toList
  | _ => True

theorem blockRemoval_agrees (record : InstallationRecord) (effect : EffectProof) (snapshot : Observed) :
    Agrees (managedBlockStatus record.artifact.identity.name.value snapshot)
      (blockRemoval record effect snapshot) ∧
    ((∃ message, blockRemoval record effect snapshot = .error message) ↔
      BlockConflict record.artifact.identity.name.value snapshot) := by
  cases snapshot with
  | absent => exact ⟨Agrees.missing, by simp [blockRemoval, BlockConflict]⟩
  | tree _ => exact ⟨Agrees.conflict not_removable_drifted _, by simp [blockRemoval, BlockConflict]⟩
  | symlink _ _ => exact ⟨Agrees.conflict not_removable_drifted _, by simp [blockRemoval, BlockConflict]⟩
  | special _ => exact ⟨Agrees.conflict not_removable_drifted _, by simp [blockRemoval, BlockConflict]⟩
  | file content executable =>
      simp only [blockRemoval, stripManagedBlock, BlockConflict]
      cases htext : decodeUtf8 content with
      | none =>
          refine ⟨?_, by simp⟩
          simp only [managedBlockStatus, htext]
          exact Agrees.conflict not_removable_drifted _
      | some text =>
          have hencode := encodeUtf8_of_decodeUtf8 htext
          simp only [Option.bind_eq_bind, Option.bind_some, Option.pure_def, Option.some.injEq, reduceCtorEq,
            false_or, exists_eq_left']
          by_cases hmarked : Unmarked record.artifact.identity.name.value text.toList
          · have hsound : ¬ MalformedMarkers record.artifact.identity.name.value text.toList :=
              fun hmalformed => hmalformed.1 hmarked
            rw [managedBlockStatus_of_unmarked htext hmarked, stripManagedBlockChars_of_unmarked hmarked]
            simp only [Option.bind_some, String.ofList_toList, hencode, if_true]
            exact ⟨Agrees.missing, by simp [hsound]⟩
          · by_cases hpaired : PairedMarkers record.artifact.identity.name.value text.toList
            · have hsound : ¬ MalformedMarkers record.artifact.identity.name.value text.toList :=
                fun hmalformed => hmalformed.2 hpaired
              obtain ⟨stripped, hstripped, hne⟩ := stripManagedBlockChars_of_paired hpaired
              have hchanged : encodeUtf8 (String.ofList stripped) ≠ content := by
                rw [← hencode]
                intro heq
                exact hne (by rw [← encodeUtf8_injective heq, String.toList_ofList])
              rw [managedBlockStatus_of_paired htext hpaired, hstripped]
              simp only [Option.bind_some, hchanged, if_false]
              split
              · exact ⟨Agrees.present (Or.inl rfl) (by simp), by simp [hsound]⟩
              · exact ⟨Agrees.present (Or.inl rfl) (by simp), by simp [hsound]⟩
            · have hmalformed : MalformedMarkers record.artifact.identity.name.value text.toList :=
                ⟨hmarked, hpaired⟩
              rw [managedBlockStatus_of_malformed htext hmalformed,
                stripManagedBlockChars_of_malformed hmalformed]
              exact ⟨Agrees.conflict not_removable_drifted _, by simp [hmalformed]⟩

/-! ## Merged members -/

/-- A member can be replaced at any part of a path that leads somewhere. -/
theorem replaceAt_of_member {replacement : Json} {parts more : List String} {root value : Json}
    (h : root.member (parts ++ more) = some value) : ∃ updated, replaceAt replacement parts root = some updated := by
  induction parts generalizing root with
  | nil => exact ⟨replacement, by simp [replaceAt]⟩
  | cons part rest ih =>
      cases root with
      | obj entries =>
          rw [List.cons_append, Json.member_obj_cons, Option.bind_eq_some_iff] at h
          obtain ⟨child, hchild, hrest⟩ := h
          obtain ⟨updated, hupdated⟩ := ih hrest
          exact ⟨_, by simp only [replaceAt, hchild, hupdated, Option.bind_eq_bind, Option.bind_some]; rfl⟩
      | _ => exact absurd h (by simp [Json.member])

/-- Repeated partition reads the parts of a path, but for an empty last one. -/
theorem partitionParts_append (path : String) : ∃ more, pathParts path = partitionParts path ++ more := by
  unfold pathParts partitionParts
  by_cases hpath : path = ""
  · exact ⟨[], by simp [hpath]⟩
  · simp only [hpath, if_false]
    split
    · rename_i hlast
      exact ⟨[""], (List.dropLast_append_getLast? "" hlast).symm⟩
    · exact ⟨[], by simp⟩

/-- The one member that carries an identity can be cut out. -/
theorem removeMergeIdentity_of_unique {effect : EffectProof} {root : Json} {found : MergeMatch}
    (h : mergeMatches effect root = [found]) : ∃ updated, removeMergeIdentity effect root = some updated := by
  obtain ⟨more, hparts⟩ := partitionParts_append found.path
  have hreplace {container replacement : Json} (hnavigate : navigate root found.path = some container) :
      ∃ updated, replaceAt replacement (partitionParts found.path) root = some updated := by
    rw [navigate, hparts] at hnavigate
    exact replaceAt_of_member hnavigate
  have hplace : (∃ name entries, found.place = .key name ∧ navigate root found.path = some (.obj entries)) ∨
      ∃ place items, found.place = .index place ∧ navigate root found.path = some (.arr items) := by
    unfold mergeMatches at h
    simp only at h
    split at h
    · split at h
      · rename_i hnavigate
        split at h
        · obtain rfl := List.head_eq_of_cons_eq h
          exact Or.inl ⟨_, _, rfl, hnavigate⟩
        · exact absurd h (by simp)
      · exact absurd h (by simp)
    · split at h
      · rename_i hnavigate
        have hmem : found ∈ [found] := List.mem_singleton_self found
        rw [← h] at hmem
        obtain ⟨item, _, rfl⟩ := List.mem_map.mp hmem
        exact Or.inr ⟨_, _, rfl, hnavigate⟩
      · exact absurd h (by simp)
    · exact absurd h (by simp)
  rcases hplace with ⟨name, entries, hname, hnavigate⟩ | ⟨place, items, hindex, hnavigate⟩
  · obtain ⟨updated, hupdated⟩ := hreplace hnavigate
    exact ⟨updated, by simp only [removeMergeIdentity, h, hnavigate, hname]; exact hupdated⟩
  · obtain ⟨updated, hupdated⟩ := hreplace hnavigate
    exact ⟨updated, by simp only [removeMergeIdentity, h, hnavigate, hindex]; exact hupdated⟩

section Merges

variable [StandardLibrary]

/-- Why a merged member cannot be taken back even with force. -/
def MergeConflict (effect : EffectProof) : Observed → Prop
  | .absent => False
  | .file content _ =>
      effect.identityEvidence = .null ∨
        match parseJson content with
        | .error _ => True
        | .ok root => 1 < (mergeMatches effect root).length
  | _ => True

theorem mergeRemoval_agrees (effect : EffectProof) (snapshot : Observed) :
    Agrees (mergeEffectStatus effect snapshot) (mergeRemoval effect snapshot false) := by
  cases snapshot with
  | absent => exact Agrees.missing
  | tree _ => exact Agrees.conflict not_removable_drifted _
  | symlink _ _ => exact Agrees.conflict not_removable_drifted _
  | special _ => exact Agrees.conflict not_removable_drifted _
  | file content executable =>
      simp only [mergeEffectStatus, mergeRemoval]
      by_cases hevidence : effect.identityEvidence = .null
      · simp only [hevidence, if_true]
        exact Agrees.conflict not_removable_drifted _
      · simp only [hevidence, if_false]
        cases parseJson content with
        | error _ => exact Agrees.conflict not_removable_drifted _
        | ok root =>
            simp only
            match hmatches : mergeMatches effect root with
            | [] =>
                simp only [Bool.not_false, Bool.and_true]
                -- Without the member, what stands at its path decides.
                cases navigate root (effect.jsonPath.getD "") with
                | none => exact Agrees.missing
                | some container =>
                    rcases effect.mergeMode with _ | mode
                    · cases container with
                      | obj _ => exact Agrees.missing
                      | _ => exact Agrees.conflict not_removable_drifted _
                    · cases mode with
                      | key =>
                          cases container with
                          | obj _ => exact Agrees.missing
                          | _ => exact Agrees.conflict not_removable_drifted _
                      | list =>
                          cases container with
                          | arr items =>
                              cases items with
                              | nil => exact Agrees.missing
                              | cons _ _ => exact Agrees.conflict not_removable_drifted _
                          | _ => exact Agrees.conflict not_removable_drifted _
            | [found] =>
                obtain ⟨updated, hupdated⟩ := removeMergeIdentity_of_unique hmatches
                by_cases hdigest : jsonDigest found.value = effect.installedDigest
                · simp only [hdigest, if_true, ne_eq, not_true_eq_false, false_and, if_false, hupdated]
                  split
                  · exact Agrees.present (Or.inl rfl) (by simp)
                  · exact Agrees.present (Or.inl rfl) (by simp)
                · simp only [hdigest, if_false, ne_eq, not_false_eq_true, and_self, if_true]
                  exact Agrees.conflict not_removable_drifted _
            | _ :: _ :: _ => exact Agrees.conflict not_removable_drifted _

theorem mergeRemoval_forced (effect : EffectProof) (snapshot : Observed) :
    (∃ message, mergeRemoval effect snapshot true = .error message) ↔ MergeConflict effect snapshot := by
  cases snapshot with
  | absent => simp [mergeRemoval, MergeConflict]
  | tree _ => simp [mergeRemoval, MergeConflict]
  | symlink _ _ => simp [mergeRemoval, MergeConflict]
  | special _ => simp [mergeRemoval, MergeConflict]
  | file content executable =>
      simp only [mergeRemoval, MergeConflict]
      by_cases hevidence : effect.identityEvidence = .null
      · simp [hevidence]
      · simp only [hevidence, if_false, false_or]
        cases parseJson content with
        | error _ => simp
        | ok root =>
            simp only
            cases hmatches : mergeMatches effect root with
            | nil => simp
            | cons found others =>
                cases others with
                | nil =>
                    obtain ⟨updated, hupdated⟩ := removeMergeIdentity_of_unique hmatches
                    simp only [hupdated, Bool.true_eq_false, and_false, if_false]
                    split <;> simp
                | cons _ _ => simp

/-! ## Every kind of effect -/

theorem planRemoval_eq (record : InstallationRecord) (effect : EffectProof) {snapshot : Observed}
    (restore : Option Observed) (hspecial : ∀ digest, snapshot ≠ .special digest) (force : Bool) :
    planRemoval record effect snapshot force restore =
      match effect.kind with
      | .symlinkFile | .symlinkTree => linkRemoval effect snapshot force
      | .mergeJson => mergeRemoval effect snapshot force
      | .managedBlock => blockRemoval record effect snapshot
      | .copyTree | .writeFile => copyRemoval effect snapshot force restore := by
  unfold planRemoval
  split
  · rename_i digest
    exact absurd rfl (hspecial digest)
  · rfl

/-- An effect that displaced nothing is uninstalled without force exactly when its
status is current, missing or broken, without a change exactly when it is missing,
and refused under force only where its identity or its block cannot be told. -/
theorem planRemoval_agrees_with_effectStatus (record : InstallationRecord) (effect : EffectProof)
    (snapshot : Observed) (restore : Option Observed) (hspecial : ∀ digest, snapshot ≠ .special digest)
    (hrestores : effect.restoresFrom = none) :
    ((∃ mutation, planRemoval record effect snapshot false restore = .ok mutation) ↔
      effectStatus record effect snapshot = .current ∨ effectStatus record effect snapshot = .missing ∨
        effectStatus record effect snapshot = .broken) ∧
    (planRemoval record effect snapshot false restore = .ok .none ↔
      effectStatus record effect snapshot = .missing) ∧
    ((∃ message, planRemoval record effect snapshot true restore = .error message) ↔
      effect.kind = .mergeJson ∧ MergeConflict effect snapshot ∨
        effect.kind = .managedBlock ∧ BlockConflict record.artifact.identity.name.value snapshot) := by
  have hplan := planRemoval_eq record effect restore hspecial
  have hnever {removal : Except String Mutation} (hok : ∃ mutation, removal = .ok mutation) :
      ¬ ∃ message, removal = .error message := by
    rintro ⟨message, herror⟩
    obtain ⟨mutation, hmutation⟩ := hok
    rw [hmutation] at herror
    exact absurd herror (by simp)
  rw [hplan false, hplan true]
  unfold effectStatus
  cases effect.kind with
  | symlinkFile =>
      have hagrees := linkRemoval_agrees effect snapshot
      exact ⟨hagrees.planned, hagrees.nothing, by simp [hnever (linkRemoval_forced effect snapshot)]⟩
  | symlinkTree =>
      have hagrees := linkRemoval_agrees effect snapshot
      exact ⟨hagrees.planned, hagrees.nothing, by simp [hnever (linkRemoval_forced effect snapshot)]⟩
  | mergeJson =>
      have hagrees := mergeRemoval_agrees effect snapshot
      exact ⟨hagrees.planned, hagrees.nothing, by simp [mergeRemoval_forced effect snapshot]⟩
  | managedBlock =>
      obtain ⟨hagrees, hforced⟩ := blockRemoval_agrees record effect snapshot
      exact ⟨hagrees.planned, hagrees.nothing, by simp [hforced]⟩
  | copyTree =>
      have hagrees := copyRemoval_agrees hrestores snapshot restore
      exact ⟨hagrees.planned, hagrees.nothing, by simp [hnever (copyRemoval_forced hrestores snapshot restore)]⟩
  | writeFile =>
      have hagrees := copyRemoval_agrees hrestores snapshot restore
      exact ⟨hagrees.planned, hagrees.nothing, by simp [hnever (copyRemoval_forced hrestores snapshot restore)]⟩

end Merges

section Samples

attribute [local instance] plainLibrary

theorem planRemoval_agrees_for_deleted_guideline :
    planRemoval (styleRecord "1.0.0" (sampleDigest '3') [104]) (proofOf (styleOperation "" [104])) .absent false
      none = .ok .none :=
  (planRemoval_agrees_with_effectStatus (styleRecord "1.0.0" (sampleDigest '3') [104])
    (proofOf (styleOperation "" [104])) .absent none (by simp) rfl).2.1.mpr rfl

end Samples

end AgentArtifacts
