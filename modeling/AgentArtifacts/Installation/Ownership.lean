import AgentArtifacts.Installation.Planned

/-!
# What an unforced installation may overwrite

A plan that was prepared without force replaces only what was absent, what
already is as desired, or what the same record proves to own; a merge keeps the
other members of its document. A managed block is also written into a file that
holds another artifact's block, and there the text around it survives unless the
file has an open begin marker, lacks a final newline below a prepended block, or
is not a block file at all.
-/

namespace AgentArtifacts

section Ownership

variable [StandardLibrary] [ManifestCodec]

/-! ## The reasons an operation may proceed -/

/-- The destination already is what the operation would leave there. -/
def HoldsDesired (operation : InstallOperation) : Prop :=
  match operation.action with
  | .copyTree _ tree => operation.precondition = .tree tree
  | .writeFile _ content executable _ _ => operation.precondition = .file content executable
  | .link _ target _ _ => operation.precondition = .symlink target true
  | .mergeJson _ _ _ _ _ content => operation.precondition = .file content false

/-- The state is the one an effect recorded: its link target, or the digest of its content. -/
def RecordedAs (effect : EffectProof) (state : Observed) : Prop :=
  (∃ target targetExists, effect.actualMode = .symlink ∧ state = .symlink target targetExists ∧
      effect.linkTarget = some target) ∨
    (effect.actualMode = .copy ∧ (state.kind = "file" ∨ state.kind = "tree") ∧
      state.digest? = some effect.installedDigest)

/-- The bytes of a merge are those of a document that keeps the other members of
the one at the destination. -/
def MergeKeepsMembers (operation : InstallOperation) : Prop :=
  ∃ payload evidence valueDigest identity before after,
    operation.action = .mergeJson payload.jsonPath payload.mode identity evidence valueDigest
      (documentBytes after) ∧
    (payload.identity ≠ [] → identity = payload.identity) ∧
    existingMapping ⟨operation.absoluteDestination, operation.precondition⟩ = .ok before ∧
    KeepsOtherMembers payload before after

/-- The text of the package, wrapped into the artifact's block, is all that
changes in the text of the destination. -/
def BlockKeepsText (plan : InstallPlanData) (operation : InstallOperation) : Prop :=
  ∃ file body content executable existing sourcePath written bit restoresFrom,
    payloadFile ⟨plan.objectCandidate, plan.objectRoot⟩ none = .ok file ∧
    decodeUtf8 file.content = some body ∧
    operation.precondition = .file content executable ∧ decodeUtf8 content = some existing ∧
    operation.action = .writeFile sourcePath (encodeUtf8 written) bit true restoresFrom ∧
    KeepsOutsideBlock plan.request.identity.name.value body.toList existing.toList written.toList

/-- The manifest the plan was reviewed against. -/
def InstallPlanData.reviewedManifest (plan : InstallPlanData) : InstallState :=
  match plan.statePrecondition with
  | .file content _ =>
      match parseInstallState content with
      | .ok state => state
      | .error _ => emptyState
  | _ => emptyState

def InstallPlanData.previousEffect (plan : InstallPlanData) (operation : InstallOperation) :
    Option EffectProof :=
  AgentArtifacts.previousEffect plan.reviewedManifest plan.request plan.coordinate operation.destination

/-- Nothing that the artifact does not own is lost to the operation. -/
def DestroysNothing (plan : InstallPlanData) (operation : InstallOperation) : Prop :=
  operation.precondition = .absent ∨ HoldsDesired operation ∨
    (∃ effect, plan.previousEffect operation = some effect ∧ RecordedAs effect operation.precondition) ∨
    MergeKeepsMembers operation ∨ BlockKeepsText plan operation

/-! ## Current operations -/

variable {operation : InstallOperation}

omit [ManifestCodec] in
/-- Under collision freedom a current destination is the desired one. -/
theorem operationIsCurrent_iff (hfree : CollisionFree)
    (hvalid : operation.valid = true) (hspecial : ∀ digest, operation.precondition ≠ .special digest) :
    operationIsCurrent operation = true ↔ HoldsDesired operation := by
  unfold operationIsCurrent HoldsDesired
  cases haction : operation.action with
  | link sourcePath target targetState semantics => simp
  | writeFile sourcePath content executable managedBlock restoresFrom =>
      simp only [beq_iff_eq]
      constructor
      · exact Observed.eq_file_of_digest hfree hspecial
      · intro h
        rw [h]
        rfl
  | mergeJson jsonPath mergeMode identity evidence valueDigest content =>
      simp only [beq_iff_eq]
      constructor
      · exact Observed.eq_file_of_digest hfree hspecial
      · intro h
        rw [h]
        rfl
  | copyTree sourcePath tree =>
      have hdigest : (treeMembersDigest tree).toBool = true := by
        simp only [InstallOperation.valid, haction, Bool.and_eq_true] at hvalid
        exact hvalid.2.2
      cases htree : treeMembersDigest tree with
      | error diagnostics => exact absurd hdigest (by simp [htree, Except.toBool])
      | ok digest =>
          simp only [beq_iff_eq, htree]
          constructor
          · exact Observed.eq_tree_of_digest hfree htree hspecial
          · intro h
            simp [h, Observed.digest?, htree, Except.toOption]

omit [ManifestCodec] in
theorem previousOwns_iff (previous : Option EffectProof) (current : Observed) :
    previousOwns previous current = true ↔
      ∃ effect, previous = some effect ∧ RecordedAs effect current := by
  cases previous with
  | none => simp [previousOwns]
  | some effect =>
      simp only [Option.some.injEq, exists_eq_left']
      cases hmode : effect.actualMode with
      | symlink => cases current <;> simp [previousOwns, RecordedAs, hmode]
      | copy => cases current <;> simp [previousOwns, RecordedAs, hmode, Observed.kind]

/-! ## Managed blocks -/

/-- Which memory target the plan writes. -/
def plannedMemoryTarget (inputs : PlanningInputs) (request : InstallRequest) : Option MemoryTarget :=
  (profileForScope inputs.profile request.scope inputs.location.userHome).memory

/-- A managed block goes into a file that neither the artifact owns nor the block
can be written into without a loss: the target is not a block file, the begin
marker is open, or the text below a prepended block lacks its final newline. -/
def LosesSharedText (inputs : PlanningInputs) (plan : InstallPlanData) (operation : InstallOperation) :
    Prop :=
  operation.effectKind = .managedBlock ∧ operation.precondition ≠ .absent ∧
    operationIsCurrent operation = false ∧
    previousOwns (plan.previousEffect operation) operation.precondition = false ∧
    ∃ target content executable text,
      plannedMemoryTarget inputs plan.request = some target ∧
      operation.precondition = .file content executable ∧ decodeUtf8 content = some text ∧
      (target.kind = .dir ∨ BeginsWithoutEnd plan.request.identity.name.value text.toList ∨
        LacksFinalNewline plan.request.identity.name.value text.toList
          (plan.request.memoryMode == .prepend))

variable {request : InstallRequest}

omit [ManifestCodec] in
/-- The one action of a memory that is prepended or appended. -/
theorem nativeActions_managedBlock {stored : StoredObject}
    {targets : ProfileTargets} {snapshots : Snapshots} {actions : List NativeAction}
    (hblock : isManagedBlock request = true)
    (h : nativeActions request stored targets snapshots = .ok actions) :
    ∃ target file body snapshot existing, targets.memory = some target ∧
      payloadFile stored none = .ok file ∧ decodeUtf8 file.content = some body ∧
      snapshotAt snapshots (memoryTargetPath target request.identity.name.value) = .ok snapshot ∧
      existingText snapshot.state = .ok existing ∧
      actions = [.write (memoryTargetPath target request.identity.name.value)
        (encodeUtf8 (match target.kind with
          | .dir => body
          | .file => memoryBlock existing request.identity.name.value body
              (request.memoryMode == .prepend))) none] := by
  simp only [isManagedBlock, Bool.and_eq_true, Bool.or_eq_true, beq_iff_eq] at hblock
  obtain ⟨hkind, hmode⟩ := hblock
  simp only [nativeActions, hkind] at h
  cases htarget : targets.memory with
  | none =>
      rw [htarget] at h
      exact absurd h (by simp [unsupportedKind, raised, error])
  | some target =>
      simp only [htarget, memoryActions] at h
      obtain ⟨file, hfile, h⟩ := Result.of_bind_ok h
      cases hbody : decodeUtf8 file.content with
      | none =>
          simp only [hbody] at h
          obtain ⟨_, hnone, _⟩ := Result.of_bind_ok h
          exact absurd hnone (by simp [error])
      | some body =>
          simp only [hbody] at h
          obtain ⟨text, htext, h⟩ := Result.of_bind_ok h
          obtain rfl := Except.ok.inj htext
          obtain ⟨snapshot, hsnapshot, h⟩ := Result.of_bind_ok h
          obtain ⟨existing, hexisting, h⟩ := Result.of_bind_ok h
          refine ⟨target, file, body, snapshot, existing, rfl, hfile, hbody, hsnapshot, hexisting, ?_⟩
          cases htargetKind : target.kind with
          | dir =>
              have hskip : request.memoryMode ≠ .skip := by
                rcases hmode with hmode | hmode <;> simp [hmode]
              simp only [htargetKind, hskip, false_and, if_false] at h
              exact (Except.ok.inj h).symm
          | file =>
              rcases hmode with hmode | hmode
              · simp only [htargetKind, hmode] at h ⊢
                exact (Except.ok.inj h).symm
              · simp only [htargetKind, hmode] at h ⊢
                exact (Except.ok.inj h).symm

/-! ## The operations of an unforced plan -/

omit [ManifestCodec] in
/-- A merge without force keeps the other members of its document. -/
theorem mergeKeepsMembers_of_becomes {payload : MergePayload} (hforce : request.force = false)
    (h : ActionBecomes request operation.absoluteDestination operation.precondition (.merge payload)
      operation.action) : MergeKeepsMembers operation := by
  cases haction : operation.action with
  | mergeJson jsonPath mergeMode identity evidence valueDigest content =>
      rw [haction] at h
      obtain ⟨rfl, rfl, hidentity, _, _, hmerged⟩ := h
      unfold mergedContent at hmerged
      obtain ⟨before, hbefore, hmerged⟩ := Result.of_bind_ok hmerged
      obtain ⟨after, hafter, hmerged⟩ := Result.of_bind_ok hmerged
      obtain rfl := Except.ok.inj hmerged
      rw [hforce] at hafter
      refine ⟨payload, evidence, valueDigest, identity, before, after, haction, ?_, hbefore,
        mergedDocument_keeps hafter⟩
      intro hne
      rw [hidentity, if_neg hne]
  | copyTree sourcePath tree => rw [haction] at h; exact h.elim
  | writeFile sourcePath content executable managedBlock restoresFrom =>
      rw [haction] at h
      exact h.elim
  | link sourcePath target targetState semantics => rw [haction] at h; exact h.elim

variable {inputs : PlanningInputs} {ports : InstallReadPorts} {made : Preparation}

/-- What a managed block operation of a prepared plan writes. -/
theorem managedBlock_written (hmade : made.From request inputs ports) (hmem : operation ∈ made.operations)
    (hblock : operation.effectKind = .managedBlock) :
    ∃ target file body existing sourcePath executable, plannedMemoryTarget inputs request = some target ∧
      payloadFile made.stored none = .ok file ∧ decodeUtf8 file.content = some body ∧
      existingText operation.precondition = .ok existing ∧
      operation.action = .writeFile sourcePath
        (encodeUtf8 (match target.kind with
          | .dir => body
          | .file => memoryBlock existing request.identity.name.value body
              (request.memoryMode == .prepend))) executable true none := by
  obtain ⟨paths, snapshots, actions, hsnapshots, hactions, hall⟩ :=
    plannedOperations_converted hmade.operations
  obtain ⟨action, haction, hconverted⟩ := exists_of_forall₂_mem hall hmem
  have hbecomes := hconverted.becomes
  obtain ⟨sourcePath, content, executable, restoresFrom, hkind⟩ := operation.action_of_managedBlock hblock
  cases action with
  | copy path => rw [hkind] at hbecomes; exact hbecomes.elim
  | merge payload => rw [hkind] at hbecomes; exact hbecomes.elim
  | write path written source =>
      rw [hkind] at hbecomes
      obtain ⟨rfl, hmanaged, rfl⟩ := hbecomes
      obtain ⟨target, file, body, snapshot, existing, htarget, hfile, hbody, hsnapshot, hexisting,
        hall⟩ := nativeActions_managedBlock hmanaged.symm hactions
      rw [hall, List.mem_singleton, NativeAction.write.injEq] at haction
      obtain ⟨rfl, rfl, rfl⟩ := haction
      -- The snapshot the text was read from is the one of the operation.
      obtain ⟨destination, _, hdestination, _, hobserved, _⟩ :=
        observeTarget_eq_ok (snapshotAt_observed hsnapshots hsnapshot)
      have hsame := hconverted.destination
      rw [NativeAction.destination, hdestination] at hsame
      have habsolute : destination.absolute = operation.absoluteDestination :=
        congrArg Destination.absolute (Except.ok.inj hsame)
      rw [habsolute, hconverted.observed] at hobserved
      rw [← Except.ok.inj hobserved] at hexisting
      exact ⟨target, file, body, existing, sourcePath, executable, htarget, hfile, hbody, hexisting,
        hkind⟩

theorem reviewedManifest_eq (hmade : made.From request inputs ports) :
(made.data request inputs).reviewedManifest = made.current := by
  unfold InstallPlanData.reviewedManifest Preparation.data
  rcases reviewedState_eq_ok hmade.state with ⟨hsnapshot, hcurrent⟩ | ⟨content, executable, hsnapshot, hparsed⟩
  · simp [hsnapshot, hcurrent]
  · simp [hsnapshot, hparsed]

/-- Without force every operation has one of the reasons to proceed. -/
theorem mayProceed_of_unforced (hmade : made.From request inputs ports)
    (hforce : request.force = false) (hmem : operation ∈ made.operations) :
    mayProceed made.current request made.item.coordinate operation = true := by
  have hnone := hmade.unblocked
  simp only [conflicts, hforce, Bool.false_eq_true, if_false, List.map_eq_nil_iff,
    List.filter_eq_nil_iff, Bool.not_eq_true', Bool.not_eq_false] at hnone
  exact hnone operation hmem

/-- A block written into a file keeps the text exactly when no text is lost. -/
theorem blockKeepsText_iff (hmade : made.From request inputs ports) (hmem : operation ∈ made.operations)
    (hblock : operation.effectKind = .managedBlock) {content : Bytes} {executable : Bool}
    (hfile : operation.precondition = .file content executable) :
    BlockKeepsText (made.data request inputs) operation ↔
      ∃ target text, plannedMemoryTarget inputs request = some target ∧ decodeUtf8 content = some text ∧
        ¬ (target.kind = .dir ∨ BeginsWithoutEnd request.identity.name.value text.toList ∨
          LacksFinalNewline request.identity.name.value text.toList (request.memoryMode == .prepend)) := by
  obtain ⟨target, file, body, existing, sourcePath, bit, htarget, hpayload, hbody, hexisting, haction⟩ :=
    managedBlock_written hmade hmem hblock
  obtain ⟨text, htext, rfl⟩ : ∃ text, decodeUtf8 content = some text ∧ existing = some text := by
    rw [hfile] at hexisting
    simp only [existingText] at hexisting
    split at hexisting
    · rename_i text htext
      exact ⟨text, htext, (Except.ok.inj hexisting).symm⟩
    · exact absurd hexisting (by simp [error])
  have hkeeps : BlockKeepsText (made.data request inputs) operation ↔
      KeepsOutsideBlock request.identity.name.value body.toList text.toList
        (match target.kind with
          | .dir => body
          | .file => memoryBlock (some text) request.identity.name.value body
              (request.memoryMode == MemoryMode.prepend)).toList := by
    constructor
    · rintro ⟨file', body', content', executable', text', source', written, bit', restoresFrom, hpayload',
        hbody', hfile', htext', haction', hkept⟩
      simp only [Preparation.data] at hpayload'
      rw [hpayload] at hpayload'
      rw [← Except.ok.inj hpayload', hbody] at hbody'
      rw [hfile, Observed.file.injEq] at hfile'
      rw [← hfile'.1, htext] at htext'
      rw [haction, OperationAction.writeFile.injEq] at haction'
      rw [encodeUtf8_injective haction'.2.1, Option.some.inj hbody', Option.some.inj htext']
      exact hkept
    · intro hkept
      exact ⟨file, body, content, executable, text, sourcePath, _, bit, none, hpayload, hbody, hfile, htext,
        haction, hkept⟩
  rw [hkeeps]
  cases hkind : target.kind with
  | dir =>
      refine iff_of_false (not_keeps_of_plain _ _ _) ?_
      rintro ⟨target', _, htarget', _, hnot⟩
      rw [htarget] at htarget'
      obtain rfl := Option.some.inj htarget'
      exact hnot (Or.inl hkind)
  | file =>
      have hchars : (memoryBlock (some text) request.identity.name.value body
          (request.memoryMode == .prepend)).toList =
            memoryBlockChars text.toList request.identity.name.value body.toList
              (request.memoryMode == .prepend) := by
        simp [memoryBlock]
      simp only [hchars]
      rw [memoryBlockChars_keeps_iff]
      constructor
      · rintro ⟨hend, hfinal⟩
        refine ⟨target, text, htarget, htext, ?_⟩
        rintro (hdir | hbegins | hlacks)
        · rw [hkind] at hdir
          exact absurd hdir (by simp)
        · exact hend hbegins
        · exact hfinal hlacks
      · rintro ⟨_, text', _, htext', hnot⟩
        rw [htext] at htext'
        obtain rfl := Option.some.inj htext'
        exact ⟨fun h => hnot (Or.inr (Or.inl h)), fun h => hnot (Or.inr (Or.inr h))⟩

/-- A prepared operation together with the facts its preparation leaves behind. -/
theorem operation_facts (hfree : CollisionFree) (hmade : made.From request inputs ports)
    (hmem : operation ∈ made.operations) :
    (∃ action, Converted request inputs.location ports action operation) ∧
      (operationIsCurrent operation = true ↔ HoldsDesired operation) := by
  obtain ⟨_, _, actions, _, _, hall⟩ := plannedOperations_converted hmade.operations
  obtain ⟨action, _, hconverted⟩ := exists_of_forall₂_mem hall hmem
  exact ⟨⟨action, hconverted⟩, operationIsCurrent_iff hfree hconverted.valid hconverted.notSpecial⟩

/-- A block that loses shared text has none of the reasons to proceed. -/
theorem not_destroysNothing_of_losesSharedText (hfree : CollisionFree)
    (hmade : made.From request inputs ports)
    (hmem : operation ∈ made.operations)
    (hloses : LosesSharedText inputs (made.data request inputs) operation) :
    ¬ DestroysNothing (made.data request inputs) operation := by
  obtain ⟨hblock, hpresent, hnotCurrent, hnotOwned, target, content, executable, text, htarget, hfile,
    htext, hlost⟩ := hloses
  rintro (habsent | hdesired | howned | hmerge | hkeeps)
  · exact hpresent habsent
  · rw [(operation_facts hfree hmade hmem).2.mpr hdesired] at hnotCurrent
    exact absurd hnotCurrent (by simp)
  · rw [(previousOwns_iff _ _).mpr howned] at hnotOwned
    exact absurd hnotOwned (by simp)
  · obtain ⟨payload, evidence, valueDigest, identity, before, after, haction, _⟩ := hmerge
    exact absurd hblock (by simp [InstallOperation.effectKind, haction])
  · obtain ⟨target', text', htarget', htext', hnot⟩ :=
      (blockKeepsText_iff hmade hmem hblock hfile).mp hkeeps
    have hsameTarget : target = target' := Option.some.inj (htarget.symm.trans htarget')
    have hsameText : text = text' := Option.some.inj (htext.symm.trans htext')
    subst hsameTarget hsameText
    exact hnot hlost

end Ownership

section Sample

attribute [local instance] plainLibrary

end Sample

/-! ## A begin marker without its end -/

section Sample

attribute [local instance] plainLibrary

def notesIdentity (name : Slug) : ArtifactIdentity := ⟨.memory, name⟩

def sharedText : String := "<!-- >>> agent-artifacts memory:a >>> -->\nx\n<!-- <<< agent-artifacts memory:a <<< -->\n"

/-- Another artifact's whole block, and then a begin marker that was left behind. -/
def openText : String := sharedText ++ "<!-- >>> agent-artifacts memory:b >>> -->\nkeep\n"

def notesSource : SourceEvidence :=
  ⟨⟨"team", Eq.refl true⟩, ⟨"team", Eq.refl true⟩, .sourceLocal, "/srv/team", "local", none⟩

def notesRecord (name : Slug) (object : ObjectDigest) (effect : EffectProof) : InstallationRecord where
  source := notesSource
  artifact := ⟨notesIdentity name, "1.0.0", sampleDigest '1', sampleDigest '2', object⟩
  profile := ⟨"claude", Eq.refl true⟩
  profileVersion := 1
  scope := .project
  requestedMode := .copy
  effects := [effect]
  memoryMode := some .prepend

def notesOperation (text : String) : InstallOperation where
  destination := "CLAUDE.md"
  absoluteDestination := "/work/CLAUDE.md"
  precondition := .file (encodeUtf8 text) false
  overwrote := true
  action := .writeFile "payload/b.md" (encodeUtf8 (memoryBlock (some text) "b" "hi\n" true)) false true none

def firstNotes : InstallationRecord :=
  notesRecord ⟨"a", by decide⟩ (sampleDigest 'd')
    { kind := .managedBlock, destination := "CLAUDE.md", actualMode := .copy
      installedDigest := sampleDigest 'c' }

def notesBefore : InstallState := ⟨[firstNotes], by decide, by decide⟩

def notesAfter (text : String) : InstallState :=
  (InstallState.make [firstNotes,
    notesRecord ⟨"b", by decide⟩ (sampleDigest 'b') (proofOf (notesOperation text))]).toOption.getD emptyState

local instance ownershipManifests : ManifestCodec :=
  tableCodec [notesBefore, notesAfter openText, notesAfter sharedText]

def notesRequest : InstallRequest :=
  { identity := notesIdentity ⟨"b", Eq.refl true⟩, profile := ⟨"claude", Eq.refl true⟩ }

def notesInputs : PlanningInputs :=
  teamInputs (indexedArtifact (notesIdentity ⟨"b", by decide⟩) "1.0.0" (sampleDigest 'b')) "/work" (by decide)

def notesStored : StoredObject := storedFile (sampleDigest 'b') "b.md" (encodeUtf8 "hi\n") false

/-- The manifest holds the first block, and the shared file has the given text. -/
def notesWorld (text : String) : World :=
  { freshWorld [notesStored] with
    files := fun path => if path = "/work/CLAUDE.md" then .file (encodeUtf8 text) false else .absent
    manifests := fun path =>
      if path = "/work/.agent-artifacts/manifest.json" then .file (installStateBytes notesBefore) false
      else .absent }

theorem notesPlan_prepared :
    ((prepareInstall notesRequest notesInputs (notesWorld openText).readPorts).map fun plan =>
      (plan.operations, plan.statePrecondition, plan.coordinate, plan.request)) =
      .ok ([notesOperation openText], .file (installStateBytes notesBefore) false,
        ⟨⟨"team", by decide⟩, notesIdentity ⟨"b", by decide⟩, some "1.0.0"⟩, notesRequest) := by
  decide +kernel

theorem notesOperation_open :
    operationIsCurrent (notesOperation openText) = false ∧
      BeginsWithoutEnd "b" openText.toList := by
  refine ⟨by decide +kernel, sharedText.toList, "\nkeep\n".toList, by decide +kernel, by decide +kernel⟩

end Sample

end AgentArtifacts
