import AgentArtifacts.Sources.Subscription

/-!
# The identity of a subscription over its history

Calls on one source instance follow each other, each with the answers its ports
give. A call publishes only what its validator returned unchanged; under
another identity only an adoption does, and only for the transition it expects.
-/

namespace AgentArtifacts.Subscription

variable [StandardLibrary]

/-! ## Reading and publishing -/

theorem readCurrent_eq_ok {failure : CurrentSourceRequest → Option (List Diagnostic)}
    {request : CurrentSourceRequest} {pointer : Pointer} {current : Option CurrentSource}
    (h : readCurrent failure request pointer = .ok current) :
    current = pointer.map fun published => published.current request := by
  unfold readCurrent at h
  cases hfailure : failure request with
  | some diagnostics => simp [hfailure] at h
  | none =>
      rw [hfailure] at h
      exact (Except.ok.inj h).symm

theorem publish_eq_error {failure : SourcePublishCommand → Option (List Diagnostic)}
    {command : SourcePublishCommand} {pointer after : Pointer} {diagnostics : List Diagnostic}
    (h : publish failure command pointer = (.error diagnostics, after)) : after = pointer := by
  unfold publish at h
  cases hfailure : failure command with
  | some own =>
      rw [hfailure] at h
      exact (Prod.mk.inj h).2.symm
  | none => simp [hfailure] at h

theorem publish_eq_ok {failure : SourcePublishCommand → Option (List Diagnostic)}
    {command : SourcePublishCommand} {pointer after : Pointer} {receipt : SourcePublishReceipt}
    (h : publish failure command pointer = (.ok receipt, after)) :
    after = some ⟨command.validated, command.observedAtEpochSeconds⟩ := by
  unfold publish at h
  cases hfailure : failure command with
  | some own => simp [hfailure] at h
  | none =>
      rw [hfailure] at h
      exact (Prod.mk.inj h).2.symm

/-! ## What one operation does to the pointer -/

/-- The candidate that the ports acquired came back from the validator as it was. -/
def Observed (request : SourceRequest) (ports : SourceSyncPorts) (paths : SourceStorePaths)
    (validated : ValidatedSourceCandidate) : Prop :=
  candidate request paths ports = .ok (.ok validated.candidate) ∧
    ports.validate (request.validation validated.candidate) = .ok validated

/-- The transition from what the pointer holds to what was observed. -/
def PublishedSource.transition (before : PublishedSource) (validated : ValidatedSourceCandidate) : TransitionData :=
  ⟨before.validated.declaredSourceId, validated.declaredSourceId,
    before.validated.candidate.resolvedRevision, validated.candidate.resolvedRevision,
    before.validated.candidate.snapshotDigest, validated.candidate.snapshotDigest⟩

/-- The pointer names what was observed, under the identity it had, if any. -/
def Refreshed (pointer : Pointer) (validated : ValidatedSourceCandidate) (after : Pointer) : Prop :=
  (∃ time, after = some ⟨validated, time⟩) ∧
    ∀ before, pointer = some before → before.validated.declaredSourceId = validated.declaredSourceId

/-- The pointer names what was observed, and the move is the one expected. -/
def Adopted (expected : Option SourceIdentityTransition) (pointer : Pointer) (validated : ValidatedSourceCandidate)
    (after : Pointer) : Prop :=
  (∃ time, after = some ⟨validated, time⟩) ∧
    ∃ before, pointer = some before ∧
      expected.map SourceIdentityTransition.toTransitionData = some (before.transition validated)

def IsRetained (outcome : Raising (Result SourceSyncOutcome)) : Prop :=
  ∃ kept, outcome = .ok (.ok kept) ∧ kept.disposition = .retained

theorem syncDisposition_ne_retained (current : Option CurrentSource) (validated : ValidatedSourceCandidate) :
    syncDisposition current validated ≠ .retained := by
  unfold syncDisposition
  cases current with
  | none => simp
  | some current =>
      dsimp only
      split <;> simp

theorem refreshed_of_publish {request : SourceSyncRequest} {ports : SourceSyncPorts} {paths : SourceStorePaths}
    {pointer after : Pointer} {current : Option CurrentSource} {validated : ValidatedSourceCandidate}
    {receipt : SourcePublishReceipt}
    (hread : readCurrent ports.readFailure ⟨paths, request.source.sourceAlias⟩ pointer = .ok current)
    (hchanged : ¬ identityChanged current validated = true)
    (hpublish : publish ports.publishFailure ⟨paths, validated, request.observedAtEpochSeconds⟩ pointer =
      (.ok receipt, after)) : Refreshed pointer validated after := by
  refine ⟨⟨_, publish_eq_ok hpublish⟩, ?_⟩
  intro before hbefore
  subst hbefore
  rw [readCurrent_eq_ok hread] at hchanged
  simpa [identityChanged, PublishedSource.current] using hchanged

theorem adopted_of_publish {request : SourceAdoptionRequest} {ports : SourceSyncPorts} {paths : SourceStorePaths}
    {pointer after : Pointer} {current : CurrentSource} {validated : ValidatedSourceCandidate}
    {observed : SourceIdentityTransition} {receipt : SourcePublishReceipt}
    (hread : readCurrent ports.readFailure ⟨paths, request.source.sourceAlias⟩ pointer = .ok (some current))
    (htransition : sourceIdentityTransition (transitionData current validated) = .ok observed)
    (hexpected : request.expected = some observed)
    (hpublish : publish ports.publishFailure ⟨paths, validated, request.observedAtEpochSeconds⟩ pointer =
      (.ok receipt, after)) : Adopted request.expected pointer validated after := by
  refine ⟨⟨_, publish_eq_ok hpublish⟩, ?_⟩
  obtain ⟨before, hbefore, hcurrent⟩ := Option.map_eq_some_iff.mp (readCurrent_eq_ok hread).symm
  refine ⟨before, hbefore, ?_⟩
  rw [hexpected, Option.map_some, sourceIdentityTransition_eq_ok htransition, ← hcurrent]
  rfl

variable [Redaction]

theorem syncLocked_effect (request : SourceSyncRequest) (ports : SourceSyncPorts) (paths : SourceStorePaths)
    (pointer : Pointer) :
    (syncLocked request ports paths pointer).2 = pointer ∨
      (∃ validated, Observed request.toSourceRequest ports paths validated ∧
        Refreshed pointer validated (syncLocked request ports paths pointer).2) ∧
        ¬ IsRetained (syncLocked request ports paths pointer).1 := by
  fun_cases syncLocked request ports paths pointer
  case case8 hpublish =>
    exact Or.inl (publish_eq_error hpublish)
  case case9 hread hoffline acquired hcandidate validated hvalidate hsame hchanged receipt after hpublish hdiffers =>
    obtain rfl : validated.candidate = acquired := not_not.mp hsame
    refine Or.inr ⟨⟨validated, ⟨hcandidate, hvalidate⟩, refreshed_of_publish hread hchanged hpublish⟩, ?_⟩
    simp [IsRetained]
  case case10 hread hoffline acquired hcandidate validated hvalidate hsame hchanged receipt after hpublish hdiffers =>
    obtain rfl : validated.candidate = acquired := not_not.mp hsame
    refine Or.inr ⟨⟨validated, ⟨hcandidate, hvalidate⟩, refreshed_of_publish hread hchanged hpublish⟩, ?_⟩
    simp [IsRetained, syncDisposition_ne_retained]
  all_goals exact Or.inl rfl

theorem adoptLocked_effect (request : SourceAdoptionRequest) (ports : SourceSyncPorts) (paths : SourceStorePaths)
    (pointer : Pointer) :
    (adoptLocked request ports paths pointer).2 = pointer ∨
      ∃ validated, Observed request.toSourceRequest ports paths validated ∧
        Adopted request.expected pointer validated (adoptLocked request ports paths pointer).2 := by
  fun_cases adoptLocked request ports paths pointer
  case case11 hpublish => exact Or.inl (publish_eq_error hpublish)
  case case12 hread acquired hcandidate validated hvalidate hsame hchanged observed htransition expected hexpected
      hagrees receipt after hpublish hdiffers =>
    obtain rfl : validated.candidate = acquired := not_not.mp hsame
    obtain rfl : expected = observed := not_not.mp hagrees
    exact Or.inr ⟨validated, ⟨hcandidate, hvalidate⟩, adopted_of_publish hread htransition hexpected hpublish⟩
  case case13 hread acquired hcandidate validated hvalidate hsame hchanged observed htransition expected hexpected
      hagrees receipt after hpublish hdiffers =>
    obtain rfl : validated.candidate = acquired := not_not.mp hsame
    obtain rfl : expected = observed := not_not.mp hagrees
    exact Or.inr ⟨validated, ⟨hcandidate, hvalidate⟩, adopted_of_publish hread htransition hexpected hpublish⟩
  all_goals exact Or.inl rfl

/-! ## The lease -/

omit [StandardLibrary] [Redaction] in
/-- The lock request could be made, and the lock port gave a lease. -/
def Leased (paths : SourceStorePaths) (timeoutSeconds : Rat) (staleAfterSeconds : Int)
    (acquire : SourceLockRequest → Result SourceLockLease) : Prop :=
  ∃ request lease, sourceLockRequest ⟨paths.lockDirectory, timeoutSeconds, staleAfterSeconds⟩ = .ok request ∧
    acquire request = .ok lease

omit [StandardLibrary] [Redaction] in
theorem leaseRequest_eq_ok {paths : Raising SourceStorePaths} {known asked : SourceStorePaths}
    {timeoutSeconds : Rat} {staleAfterSeconds : Int} {lock : SourceLockRequest} (hknown : paths = .ok known)
    (h : leaseRequest paths timeoutSeconds staleAfterSeconds = .ok (asked, lock)) :
    asked = known ∧ sourceLockRequest ⟨known.lockDirectory, timeoutSeconds, staleAfterSeconds⟩ = .ok lock := by
  subst hknown
  unfold leaseRequest at h
  cases hlock : sourceLockRequest ⟨known.lockDirectory, timeoutSeconds, staleAfterSeconds⟩ with
  | error text => simp [hlock, bind, Except.bind] at h
  | ok made =>
      simp only [hlock, bind, Except.bind, pure, Except.pure, Except.ok.injEq, Prod.mk.injEq] at h
      exact ⟨h.1.symm, by rw [h.2]⟩

omit [Redaction] in
theorem IsRetained.of_released {outcome : Result SourceSyncOutcome} {release : Result Unit}
    (h : IsRetained (.ok (released outcome release))) : IsRetained (.ok outcome) := by
  obtain ⟨kept, hkept, hretained⟩ := h
  cases release with
  | ok done => exact ⟨kept, hkept, hretained⟩
  | error diagnostics => cases outcome <;> simp [released] at hkept

theorem syncSource_effect {request : SourceSyncRequest} {ports : SourceSyncPorts} {paths : SourceStorePaths}
    (hpaths : request.paths = .ok paths) (pointer : Pointer) :
    (syncSource request ports pointer).2 = pointer ∨
      (∃ validated, Observed request.toSourceRequest ports paths validated ∧
        Refreshed pointer validated (syncSource request ports pointer).2) ∧
        ¬ IsRetained (syncSource request ports pointer).1 ∧ request.source.enabled = true ∧
        Leased paths request.lockTimeoutSeconds request.lockStaleAfterSeconds ports.acquireLock := by
  fun_cases syncSource request ports pointer
  case case4 henabled asked lock hlease lease hlock text after hlocked =>
    obtain ⟨rfl, hrequest⟩ := leaseRequest_eq_ok hpaths hlease
    have heffect := syncLocked_effect request ports asked pointer
    rw [hlocked] at heffect
    rcases heffect with hkept | ⟨hmoved, hretained⟩
    · exact Or.inl hkept
    · exact Or.inr ⟨hmoved, hretained, by simpa using henabled, lock, lease, hrequest, hlock⟩
  case case5 henabled asked lock hlease lease hlock outcome after hlocked =>
    obtain ⟨rfl, hrequest⟩ := leaseRequest_eq_ok hpaths hlease
    have heffect := syncLocked_effect request ports asked pointer
    rw [hlocked] at heffect
    rcases heffect with hkept | ⟨hmoved, hretained⟩
    · exact Or.inl hkept
    · exact Or.inr ⟨hmoved, fun h => hretained h.of_released, by simpa using henabled,
        lock, lease, hrequest, hlock⟩
  all_goals exact Or.inl rfl

theorem adoptSourceIdentity_effect {request : SourceAdoptionRequest} {ports : SourceSyncPorts}
    {paths : SourceStorePaths} (hpaths : request.paths = .ok paths) (pointer : Pointer) :
    (adoptSourceIdentity request ports pointer).2 = pointer ∨
      (∃ validated, Observed request.toSourceRequest ports paths validated ∧
        Adopted request.expected pointer validated (adoptSourceIdentity request ports pointer).2) ∧
        request.source.enabled = true ∧
        Leased paths request.lockTimeoutSeconds request.lockStaleAfterSeconds ports.acquireLock := by
  fun_cases adoptSourceIdentity request ports pointer
  case case4 henabled asked lock hlease lease hlock text after hlocked =>
    obtain ⟨rfl, hrequest⟩ := leaseRequest_eq_ok hpaths hlease
    have heffect := adoptLocked_effect request ports asked pointer
    rw [hlocked] at heffect
    rcases heffect with hkept | hmoved
    · exact Or.inl hkept
    · exact Or.inr ⟨hmoved, by simpa using henabled, lock, lease, hrequest, hlock⟩
  case case5 henabled asked lock hlease lease hlock outcome after hlocked =>
    obtain ⟨rfl, hrequest⟩ := leaseRequest_eq_ok hpaths hlease
    have heffect := adoptLocked_effect request ports asked pointer
    rw [hlocked] at heffect
    rcases heffect with hkept | hmoved
    · exact Or.inl hkept
    · exact Or.inr ⟨hmoved, by simpa using henabled, lock, lease, hrequest, hlock⟩
  all_goals exact Or.inl rfl

omit [Redaction] in
theorem discard_eq {answer : DiscardAnswer} {pointer after : Pointer} {existed : Result Bool}
    (h : discard answer pointer = (existed, after)) : after = pointer ∨ after = none := by
  cases answer with
  | discarded others => exact Or.inr (Prod.mk.inj h).2.symm
  | failed removed diagnostics =>
      cases removed with
      | true => exact Or.inr (Prod.mk.inj h).2.symm
      | false => exact Or.inl (Prod.mk.inj h).2.symm

omit [Redaction] in
/-- A discard either leaves the pointer alone or removes it. -/
theorem discardSource_effect {request : SourceDiscardRequest} {ports : SourceDiscardPorts}
    {paths : SourceStorePaths} (hpaths : request.paths = .ok paths) (pointer : Pointer) :
    (discardSource request ports pointer).2 = pointer ∨
      (discardSource request ports pointer).2 = none ∧
        Leased paths request.lockTimeoutSeconds request.lockStaleAfterSeconds ports.acquireLock := by
  fun_cases discardSource request ports pointer
  case case3 asked lock hlease lease hlock current existed after hdiscard outcome =>
    obtain ⟨rfl, hrequest⟩ := leaseRequest_eq_ok hpaths hlease
    rcases discard_eq hdiscard with hkept | hgone
    · exact Or.inl hkept
    · exact Or.inr ⟨hgone, lock, lease, hrequest, hlock⟩
  all_goals exact Or.inl rfl

/-! ## Histories -/

/-- A call on the source instance with these store paths. -/
inductive Call (paths : SourceStorePaths) where
  | sync (request : SourceSyncRequest) (ports : SourceSyncPorts) (shared : request.paths = .ok paths)
  | freshness (request : SourceFreshnessRequest) (ports : SourceSyncPorts) (shared : request.paths = .ok paths)
  | adopt (request : SourceAdoptionRequest) (ports : SourceSyncPorts) (shared : request.paths = .ok paths)
  | discard (request : SourceDiscardRequest) (ports : SourceDiscardPorts) (shared : request.paths = .ok paths)

variable {paths : SourceStorePaths}

namespace Call

/-- The pointer after the call; a check of freshness only reads it. -/
def after (call : Call paths) (pointer : Pointer) : Pointer :=
  match call with
  | .sync request ports _ => (syncSource request ports pointer).2
  | .freshness _ _ _ => pointer
  | .adopt request ports _ => (adoptSourceIdentity request ports pointer).2
  | .discard request ports _ => (discardSource request ports pointer).2

/-- The validator of the call returned the candidate it was asked about, unchanged. -/
def Observes (call : Call paths) (validated : ValidatedSourceCandidate) : Prop :=
  match call with
  | .sync request ports _ => Observed request.toSourceRequest ports paths validated
  | .freshness request ports _ => Observed request.toSourceRequest ports paths validated
  | .adopt request ports _ => Observed request.toSourceRequest ports paths validated
  | .discard _ _ _ => False

/-- An adoption that expects exactly the transition between the two, and observed the second. -/
def Adopts (call : Call paths) (before after : PublishedSource) : Prop :=
  match call with
  | .adopt request ports _ =>
      Observed request.toSourceRequest ports paths after.validated ∧
        request.expected.map SourceIdentityTransition.toTransitionData = some (before.transition after.validated)
  | _ => False

def IsDiscard (call : Call paths) : Prop :=
  match call with
  | .discard _ _ _ => True
  | _ => False

/-- The source is enabled, where that is asked, and the call got the lease. -/
def Locks (call : Call paths) : Prop :=
  match call with
  | .sync request ports _ => request.source.enabled = true ∧
      Leased paths request.lockTimeoutSeconds request.lockStaleAfterSeconds ports.acquireLock
  | .freshness request ports _ => request.source.enabled = true ∧
      Leased paths request.lockTimeoutSeconds request.lockStaleAfterSeconds ports.acquireLock
  | .adopt request ports _ => request.source.enabled = true ∧
      Leased paths request.lockTimeoutSeconds request.lockStaleAfterSeconds ports.acquireLock
  | .discard request ports _ =>
      Leased paths request.lockTimeoutSeconds request.lockStaleAfterSeconds ports.acquireLock

/-- A check of freshness, a review, a synchronization that retained, or a call without the lease. -/
def OnlyReads (call : Call paths) (pointer : Pointer) : Prop :=
  ¬ call.Locks ∨
    match call with
    | .sync request ports _ => IsRetained (syncSource request ports pointer).1
    | .freshness _ _ _ => True
    | .adopt request _ _ => request.expected = none
    | .discard _ _ _ => False

end Call

/-- The ways in which a call moves the pointer. -/
inductive Moves : Call paths → Pointer → Pointer → Prop
  | kept (call : Call paths) (pointer : Pointer) : Moves call pointer pointer
  | refreshed {call : Call paths} {pointer : Pointer} {published : PublishedSource} (hlocks : call.Locks)
      (hwrites : ¬ call.OnlyReads pointer) (hobserved : call.Observes published.validated)
      (hsame : ∀ before, pointer = some before →
        before.validated.declaredSourceId = published.validated.declaredSourceId) :
      Moves call pointer (some published)
  | adopted {call : Call paths} {before published : PublishedSource} (hlocks : call.Locks)
      (hwrites : ¬ call.OnlyReads (some before)) (hobserved : call.Observes published.validated)
      (hadopts : call.Adopts before published) : Moves call (some before) (some published)
  | discarded {call : Call paths} {pointer : Pointer} (hlocks : call.Locks)
      (hwrites : ¬ call.OnlyReads pointer) (hdiscard : call.IsDiscard) : Moves call pointer none

/-- What each kind of call can do to the pointer. -/
theorem Call.moves (call : Call paths) (pointer : Pointer) : Moves call pointer (call.after pointer) := by
  cases call with
  | sync request ports shared =>
      rcases syncSource_effect shared pointer with hkept | ⟨⟨validated, hobserved, hrefreshed⟩, hretained, hlocks⟩
      · rw [Call.after, hkept]
        exact .kept _ _
      · obtain ⟨⟨time, hafter⟩, hsame⟩ := hrefreshed
        rw [Call.after, hafter]
        refine .refreshed hlocks ?_ hobserved hsame
        intro hreads
        exact hreads.elim (fun h => h hlocks) hretained
  | freshness request ports shared => exact .kept _ _
  | adopt request ports shared =>
      rcases adoptSourceIdentity_effect shared pointer with hkept | ⟨⟨validated, hobserved, hadopted⟩, hlocks⟩
      · rw [Call.after, hkept]
        exact .kept _ _
      · obtain ⟨⟨time, hafter⟩, before, rfl, hexpected⟩ := hadopted
        rw [Call.after, hafter]
        refine .adopted hlocks ?_ hobserved ⟨hobserved, hexpected⟩
        intro hreads
        refine hreads.elim (fun h => h hlocks) ?_
        intro hnone
        have hnone : request.expected = none := hnone
        simp [hnone] at hexpected
  | discard request ports shared =>
      rcases discardSource_effect shared pointer with hkept | ⟨hgone, hlocks⟩
      · rw [Call.after, hkept]
        exact .kept _ _
      · rw [Call.after, hgone]
        refine .discarded hlocks ?_ trivial
        intro hreads
        exact hreads.elim (fun h => h hlocks) id

/-- The pointer at the end of a history that starts without one. -/
def pointerAfter (calls : List (Call paths)) : Pointer :=
  calls.foldl (fun pointer call => call.after pointer) none

theorem pointerAfter_snoc (calls : List (Call paths)) (call : Call paths) :
    pointerAfter (calls ++ [call]) = call.after (pointerAfter calls) := by
  simp [pointerAfter]

theorem moves_snoc (calls : List (Call paths)) (call : Call paths) :
    Moves call (pointerAfter calls) (pointerAfter (calls ++ [call])) := by
  rw [pointerAfter_snoc]
  exact call.moves (pointerAfter calls)

/-! ## What moves of one call say -/

theorem Moves.observes {call : Call paths} {pointer : Pointer} {published : PublishedSource}
    (h : Moves call pointer (some published)) :
    pointer = some published ∨ call.Observes published.validated := by
  generalize hafter : some published = after at h
  cases h with
  | kept => exact Or.inl rfl
  | refreshed _ _ hobserved _ =>
      obtain rfl := Option.some.inj hafter
      exact Or.inr hobserved
  | adopted _ _ hobserved _ =>
      obtain rfl := Option.some.inj hafter
      exact Or.inr hobserved
  | discarded => cases hafter

theorem Moves.adopts {call : Call paths} {before published : PublishedSource}
    (h : Moves call (some before) (some published))
    (hid : before.validated.declaredSourceId ≠ published.validated.declaredSourceId) : call.Adopts before published := by
  cases h with
  | kept => exact absurd rfl hid
  | refreshed _ _ _ hsame => exact absurd (hsame before rfl) hid
  | adopted _ _ _ hadopts => exact hadopts

theorem Moves.isDiscard {call : Call paths} {before : PublishedSource}
    (h : Moves call (some before) none) : call.IsDiscard := by
  cases h with
  | discarded _ _ hdiscard => exact hdiscard

theorem Moves.onlyReads {call : Call paths} {pointer after : Pointer} (h : Moves call pointer after)
    (hreads : call.OnlyReads pointer) : after = pointer := by
  cases h with
  | kept => rfl
  | refreshed _ hwrites _ _ => exact absurd hreads hwrites
  | adopted _ hwrites _ _ => exact absurd hreads hwrites
  | discarded _ hwrites _ => exact absurd hreads hwrites

/-! ## What holds over a history -/

theorem exists_observes {calls : List (Call paths)} {published : PublishedSource}
    (h : pointerAfter calls = some published) : ∃ call ∈ calls, call.Observes published.validated := by
  induction calls using List.reverseRecOn with
  | nil => cases h
  | append_singleton calls call ih =>
      have hmoves := moves_snoc calls call
      rw [h] at hmoves
      rcases hmoves.observes with hbefore | hobserves
      · obtain ⟨earlier, hmem, hobserves⟩ := ih hbefore
        exact ⟨earlier, List.mem_append_left _ hmem, hobserves⟩
      · exact ⟨call, by simp, hobserves⟩

/-- Only a discard ends a subscription. -/
theorem exists_discard {earlier middle : List (Call paths)} {before : PublishedSource}
    (hbefore : pointerAfter earlier = some before) (h : pointerAfter (earlier ++ middle) = none) :
    ∃ call ∈ middle, call.IsDiscard := by
  induction middle using List.reverseRecOn with
  | nil => simp [hbefore] at h
  | append_singleton middle call ih =>
      rw [← List.append_assoc] at h
      have hmoves := moves_snoc (earlier ++ middle) call
      rw [h] at hmoves
      cases hpointer : pointerAfter (earlier ++ middle) with
      | none =>
          obtain ⟨found, hmem, hdiscard⟩ := ih hpointer
          exact ⟨found, List.mem_append_left _ hmem, hdiscard⟩
      | some published =>
          rw [hpointer] at hmoves
          exact ⟨call, by simp, hmoves.isDiscard⟩

/-- An adoption between two points of a history that gave the pointer the identity `adopted`. -/
def AdoptedWithin (earlier middle : List (Call paths)) (adopted : SourceId) : Prop :=
  ∃ inner call rest before after, middle = inner ++ call :: rest ∧ pointerAfter (earlier ++ inner) = some before ∧
    pointerAfter (earlier ++ inner ++ [call]) = some after ∧ call.Adopts before after ∧
    after.validated.declaredSourceId = adopted

theorem AdoptedWithin.snoc {earlier middle : List (Call paths)} {adopted : SourceId}
    (h : AdoptedWithin earlier middle adopted) (call : Call paths) :
    AdoptedWithin earlier (middle ++ [call]) adopted := by
  obtain ⟨inner, found, rest, before, after, rfl, hmore⟩ := h
  exact ⟨inner, found, rest ++ [call], before, after, by simp, hmore⟩

theorem exists_discard_or_adopted {earlier middle : List (Call paths)} {before after : PublishedSource}
    (hbefore : pointerAfter earlier = some before) (hafter : pointerAfter (earlier ++ middle) = some after)
    (hid : before.validated.declaredSourceId ≠ after.validated.declaredSourceId) :
    (∃ call ∈ middle, call.IsDiscard) ∨ AdoptedWithin earlier middle after.validated.declaredSourceId := by
  induction middle using List.reverseRecOn generalizing after with
  | nil =>
      rw [List.append_nil, hbefore] at hafter
      exact absurd (by rw [Option.some.inj hafter]) hid
  | append_singleton middle call ih =>
      rw [← List.append_assoc] at hafter
      have hmoves := moves_snoc (earlier ++ middle) call
      rw [hafter] at hmoves
      cases hpointer : pointerAfter (earlier ++ middle) with
      | none =>
          obtain ⟨found, hmem, hdiscard⟩ := exists_discard hbefore hpointer
          exact Or.inl ⟨found, List.mem_append_left _ hmem, hdiscard⟩
      | some published =>
          rw [hpointer] at hmoves
          by_cases hlast : published.validated.declaredSourceId = after.validated.declaredSourceId
          · rcases ih hpointer (by rw [hlast]; exact hid) with ⟨found, hmem, hdiscard⟩ | hadopted
            · exact Or.inl ⟨found, List.mem_append_left _ hmem, hdiscard⟩
            · exact Or.inr (hlast ▸ hadopted.snoc call)
          · exact Or.inr ⟨middle, call, [], published, after, rfl, hpointer, hafter, hmoves.adopts hlast, rfl⟩

/-- What the history of a subscription guarantees about its declared identity. -/
structure IdentityKept (calls : List (Call paths)) : Prop where
  named : ∀ earlier published, earlier <+: calls → pointerAfter earlier = some published →
    ∃ call ∈ earlier, call.Observes published.validated
  adopted : ∀ earlier call before after, earlier ++ [call] <+: calls → pointerAfter earlier = some before →
    pointerAfter (earlier ++ [call]) = some after →
    before.validated.declaredSourceId ≠ after.validated.declaredSourceId → call.Adopts before after
  rebound : ∀ earlier middle before after, earlier ++ middle <+: calls → pointerAfter earlier = some before →
    pointerAfter (earlier ++ middle) = some after →
    before.validated.declaredSourceId ≠ after.validated.declaredSourceId →
    (∃ call ∈ middle, call.IsDiscard) ∨ AdoptedWithin earlier middle after.validated.declaredSourceId
  unmoved : ∀ earlier call, earlier ++ [call] <+: calls → call.OnlyReads (pointerAfter earlier) →
    pointerAfter (earlier ++ [call]) = pointerAfter earlier

/-- The declared identity of a subscription changes by a reviewed adoption, or not at all. -/
theorem identityKept (paths : SourceStorePaths) (calls : List (Call paths)) : IdentityKept calls where
  named earlier published _ hpointer := exists_observes hpointer
  adopted earlier call before after _ hbefore hafter hid := by
    have hmoves := moves_snoc earlier call
    rw [hbefore, hafter] at hmoves
    exact hmoves.adopts hid
  rebound earlier middle before after _ hbefore hafter hid := exists_discard_or_adopted hbefore hafter hid
  unmoved earlier call _ hreads := (moves_snoc earlier call).onlyReads hreads

/-! ## Checks and synchronizations -/

theorem retained_disposition {diagnostics : List Diagnostic} {current : Option CurrentSource} {fallback : SyncFallback}
    {outcome : SourceSyncOutcome} (h : retained diagnostics current fallback = .ok outcome) :
    outcome.disposition = .retained := by
  unfold retained at h
  split at h
  · cases h
  · split at h
    · cases h
    · rw [← Except.ok.inj h]

/-- The request without the offline mode, and the ports without a failure to publish. -/
def SourceSyncRequest.online (request : SourceSyncRequest) : SourceSyncRequest := { request with offline := false }

def SourceSyncPorts.publishing (ports : SourceSyncPorts) : SourceSyncPorts := { ports with publishFailure := fun _ => none }

def Healthy (check : Raising SourceHealth) : Prop := ∃ health, check = .ok health ∧ health.status = .healthy

def Unchanged (sync : Raising (Result SourceSyncOutcome) × Pointer) : Prop :=
  ∃ outcome, sync.1 = .ok (.ok outcome) ∧ outcome.disposition = .unchanged

theorem not_unchanged_retained (diagnostics : List Diagnostic) (current : Option CurrentSource) (fallback : SyncFallback)
    (pointer : Pointer) : ¬ Unchanged (.ok (retained diagnostics current fallback), pointer) := by
  rintro ⟨outcome, hkept, hunchanged⟩
  rw [retained_disposition (Except.ok.inj hkept)] at hunchanged
  cases hunchanged

/-- Under the lease a check finds what a synchronization then would. -/
theorem healthy_iff_of_locked {request : SourceSyncRequest} {ports : SourceSyncPorts} (honline : request.offline = false)
    (hpublish : ports.publishFailure = fun _ => none) (paths : SourceStorePaths) (pointer : Pointer) :
    Healthy (checkFreshnessLocked ⟨request.toSourceRequest⟩ ports paths pointer) ↔
      Unchanged (syncLocked request ports paths pointer) := by
  unfold checkFreshnessLocked syncLocked
  rw [honline, hpublish]
  cases hread : readCurrent ports.readFailure ⟨paths, request.source.sourceAlias⟩ pointer with
  | error diagnostics => simp [Healthy, Unchanged]
  | ok current =>
      dsimp only
      rw [if_neg Bool.false_ne_true]
      cases hacquired : candidate request.toSourceRequest paths ports with
      | error text => cases current <;> simp [Healthy, Unchanged]
      | ok answer =>
          cases answer with
          | error diagnostics =>
              refine iff_of_false ?_ (not_unchanged_retained _ _ _ _)
              cases current <;> simp [Healthy]
          | ok acquired =>
              dsimp only
              cases hvalidated : ports.validate (request.validation acquired) with
              | error diagnostics =>
                  refine iff_of_false ?_ (not_unchanged_retained _ _ _ _)
                  cases current <;> simp [Healthy]
              | ok validated =>
                  dsimp only
                  by_cases hsame : validated.candidate = acquired
                  · obtain rfl := hsame
                    rw [if_neg (not_not_intro rfl)]
                    have hreceipt : receiptDiffers (PublishedSource.current ⟨validated, request.observedAtEpochSeconds⟩
                        ⟨paths, validated.candidate.sourceAlias⟩) validated = false := by
                      simp [receiptDiffers, PublishedSource.current]
                    cases current with
                    | none => simp [Healthy, Unchanged, identityChanged, publish, hreceipt, syncDisposition]
                    | some current =>
                        by_cases hdiffers : receiptDiffers current validated = true
                        · refine iff_of_false (by simp [Healthy, hdiffers]) ?_
                          split
                          · exact not_unchanged_retained _ _ _ _
                          · simp [Unchanged, publish, hreceipt, syncDisposition, hdiffers]
                        · have hkept : identityChanged (some current) validated = false :=
                            (Bool.or_eq_false_iff.mp (Bool.eq_false_iff.mpr hdiffers)).2
                          simp [Healthy, Unchanged, hdiffers, hkept, publish, hreceipt, syncDisposition]
                  · rw [if_pos hsame]
                    refine iff_of_false ?_ (not_unchanged_retained _ _ _ _)
                    cases current <;> simp [Healthy, hsame]

theorem healthy_iff_unchanged {request : SourceSyncRequest} {ports : SourceSyncPorts} (honline : request.offline = false)
    (hpublish : ports.publishFailure = fun _ => none) (pointer : Pointer) :
    (request.source.enabled = true ∧ Healthy (checkSourceFreshness ⟨request.toSourceRequest⟩ ports pointer)) ↔
      Unchanged (syncSource request ports pointer) := by
  unfold checkSourceFreshness syncSource
  dsimp only
  by_cases henabled : request.source.enabled = false
  · rw [if_pos henabled]
    refine iff_of_false (by simp [henabled]) ?_
    rintro ⟨outcome, hok, -⟩
    cases Except.ok.inj hok
  rw [if_neg henabled, and_iff_right (by simpa using henabled)]
  cases hlease : leaseRequest request.paths request.lockTimeoutSeconds request.lockStaleAfterSeconds with
  | error text =>
      refine iff_of_false ?_ (by simp [Unchanged])
      cases request.paths <;> simp [Healthy, henabled, bind, Except.bind]
  | ok asked =>
      cases hpaths : request.paths with
      | error text => simp [leaseRequest, hpaths, bind, Except.bind] at hlease
      | ok paths =>
          obtain ⟨rfl, -⟩ := leaseRequest_eq_ok hpaths hlease
          simp only [bind, Except.bind, if_neg henabled]
          cases ports.acquireLock asked.2 with
          | error diagnostics => simp [Healthy, Unchanged, pure, Except.pure]
          | ok lease =>
              have hlocked := healthy_iff_of_locked honline hpublish asked.1 pointer
              dsimp only
              generalize checkFreshnessLocked ⟨request.toSourceRequest⟩ ports asked.1 pointer = check at hlocked ⊢
              generalize syncLocked request ports asked.1 pointer = sync at hlocked ⊢
              obtain ⟨ended, after⟩ := sync
              cases ports.releaseLock lease with
              | ok done =>
                  refine Iff.trans ?_ (hlocked.trans ?_)
                  · cases check <;> rfl
                  · cases ended <;> rfl
              | error diagnostics =>
                  refine iff_of_false ?_ ?_
                  · cases check <;> simp [Healthy, pure, Except.pure]
                  · cases ended with
                    | error text => simp [Unchanged]
                    | ok outcome => cases outcome <;> simp [Unchanged, released]

/-- A freshness check answers that a source is healthy exactly where a synchronization made in its
place, whose publication did not fail, would find the published source unchanged. -/
theorem checkSourceFreshness_healthy_iff (request : SourceSyncRequest) (ports : SourceSyncPorts) (pointer : Pointer) :
    (request.source.enabled = true ∧ Healthy (checkSourceFreshness ⟨request.toSourceRequest⟩ ports pointer)) ↔
      Unchanged (syncSource request.online ports.publishing pointer) :=
  @healthy_iff_unchanged _ _ request.online ports.publishing rfl rfl pointer

end AgentArtifacts.Subscription
