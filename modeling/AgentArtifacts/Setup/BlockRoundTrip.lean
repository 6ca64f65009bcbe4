import AgentArtifacts.Setup.ManagedBlock

/-!
# Replacing and restoring a managed block

What a write of a block keeps, and what taking it out again gives back. Both hold where the
content holds no closing marker after its first line, no opening marker stands alone in the
file, and the block and the one it replaces stand for themselves as replacement templates.
-/

namespace AgentArtifacts.Setup

open Blocks (Delimiters Found startsLine)

/-! ## What is promised -/

/-- The marker's blocks in the text are this one. -/
structure OnlyBlock (marker text before block after : Chars) : Prop where
  first : findManaged marker true text = some ⟨before, block, after⟩
  only : findManaged marker false after = none

/-- Two texts that differ in the newlines after `front` only. -/
def SameUpToNewlines (front a b : Chars) : Prop :=
  ∃ i j rest, a = front ++ List.replicate i '\n' ++ rest ∧ b = front ++ List.replicate j '\n' ++ rest

/-- The block stands where the prior one stood, or at the end after separating newlines. -/
def StandsFor (marker existing content updated : Chars) : Option Chars → Prop
  | some prior => ∃ before after, OnlyBlock marker existing before prior after ∧
      OnlyBlock marker updated before (setupBlock marker content) after
  | none => ∃ i j, OnlyBlock marker updated (existing ++ List.replicate i '\n') (setupBlock marker content)
      (List.replicate j '\n')

/-- The text that ends where the prior block does, or the whole text. -/
def frontOf (marker existing : Chars) : Chars :=
  match findManaged marker true existing with
  | some found => found.before ++ found.block
  | none => existing

section Exactness

variable [PlainJson]

/-- A write of a block that replaces and restores exactly. -/
structure Exact (marker existing content updated : Chars) (prior : Option Chars) : Prop where
  stands : StandsFor marker existing content updated prior
  settled : managedBlock updated marker content = .ok (updated, false, some (setupBlock marker content))
  restored : ∃ text, rollbackManagedBlock updated marker (setupBlock marker content) prior = .ok (some text) ∧
    SameUpToNewlines (frontOf marker existing) existing text

/-! ## When it is kept -/

/-- The marker's opening line is a line of the text. -/
def OpensIn (marker text : Chars) : Prop :=
  '\n' :: (setupMarkers marker).opening ++ ['\n'] <:+: '\n' :: text ++ ['\n']

/-- Without a block no line opens one; with a block, it and its replacement are templates that
stand for themselves. -/
def Replaceable (marker existing content : Chars) : Prop :=
  match findManaged marker true existing with
  | none => ¬ OpensIn marker existing
  | some found =>
      expandTemplate found.block found.block (setupBlock marker content) = some (setupBlock marker content) ∧
        expandTemplate (setupBlock marker content ++ firstNewline found.after) (setupBlock marker content)
          (found.block ++ ['\n']) = some (found.block ++ ['\n'])

end Exactness

/-- No line of the content after its first begins with the closing marker. -/
def ClosesNowhere (marker content : Chars) : Prop :=
  ¬ '\n' :: (setupMarkers marker).closing <:+: Text.stripRight isSpace content

/-! ## Markers -/

variable {marker existing content text updated before after block : Chars}

theorem setupMarkers_plain (hmarker : '\n' ∉ marker) : (setupMarkers marker).Plain where
  opening := by
    simp only [setupMarkers, List.mem_append, not_or]
    exact ⟨⟨by decide, hmarker⟩, by decide⟩
  closing := by
    simp only [setupMarkers, List.mem_append, not_or]
    exact ⟨⟨by decide, hmarker⟩, by decide⟩

/-- A block ends as its closing marker does. -/
theorem exists_init_of_block (marker body : Chars) : ∃ init, (setupMarkers marker).block body = init ++ ['<'] := by
  have hend : " <<<".toList = " <<".toList ++ ['<'] := by decide
  refine ⟨(setupMarkers marker).opening ++ '\n' :: body ++ '\n' :: ("# <<< aart setup: ".toList ++ marker ++ " <<".toList), ?_⟩
  simp only [Delimiters.block, setupMarkers, hend]
  simp

/-! ## Separators -/

theorem exists_separator (existing : Chars) : ∃ n, blockSeparator existing = List.replicate n '\n' := by
  unfold blockSeparator
  split
  · exact ⟨0, rfl⟩
  · split
    · exact ⟨0, rfl⟩
    · split
      · exact ⟨1, rfl⟩
      · exact ⟨2, rfl⟩

theorem startsLine_of_suffix {atLine : Bool} (h : ['\n'] <:+ text) : startsLine '\n' atLine text = true := by
  obtain ⟨init, rfl⟩ := h
  exact Blocks.startsLine_concat init

/-- A new block begins at the start of a line. -/
theorem startsLine_separated (existing : Chars) :
    startsLine '\n' true (existing ++ blockSeparator existing) = true := by
  unfold blockSeparator
  split
  · rename_i hempty
    rw [hempty]
    rfl
  · split
    · rename_i hends
      rw [List.append_nil]
      exact startsLine_of_suffix ((List.suffix_cons '\n' ['\n']).trans hends)
    · split
      · exact startsLine_of_suffix (List.suffix_append existing ['\n'])
      · refine startsLine_of_suffix ⟨existing ++ ['\n'], ?_⟩
        rw [List.append_assoc]
        rfl

/-- A text whose last line is not ended is separated by a newline. -/
theorem blockSeparator_of_unended (hne : existing ≠ []) (hends : ¬ ['\n'] <:+ existing) :
    blockSeparator existing = ['\n', '\n'] := by
  unfold blockSeparator
  rw [if_neg hne, if_neg, if_neg hends]
  intro htwo
  exact hends ((List.suffix_cons '\n' ['\n']).trans htwo)

/-! ## Opening lines -/

theorem exists_init_of_opening (marker : Chars) : ∃ init, (setupMarkers marker).opening = init ++ ['>'] := by
  have hend : " >>>".toList = " >>".toList ++ ['>'] := by decide
  refine ⟨"# >>> aart setup: ".toList ++ marker ++ " >>".toList, ?_⟩
  simp only [setupMarkers, hend]
  simp

theorem opensIn_of_line {a y : Chars} (hline : startsLine '\n' true a = true)
    (h : existing ++ ['\n'] = a ++ ((setupMarkers marker).opening ++ '\n' :: y)) : OpensIn marker existing := by
  have htext : '\n' :: existing ++ ['\n'] = '\n' :: (a ++ ((setupMarkers marker).opening ++ '\n' :: y)) := by
    rw [← h]
    rfl
  unfold OpensIn
  rw [htext]
  by_cases hnil : a = []
  · rw [hnil]
    exact ⟨[], y, by simp⟩
  · obtain ⟨init, rfl⟩ := Blocks.exists_init_of_startsLine hline hnil
    exact ⟨'\n' :: init, y, by simp⟩

/-- A line that opens a block in a text that more newlines follow is a line of the text. -/
theorem opensIn_of_split {n : Nat} {a w : Chars} (hline : startsLine '\n' true a = true)
    (h : existing ++ List.replicate n '\n' = a ++ ((setupMarkers marker).opening ++ '\n' :: w)) :
    OpensIn marker existing := by
  obtain ⟨init, hinit⟩ := exists_init_of_opening marker
  rw [← List.append_assoc] at h
  rcases List.append_eq_append_iff.mp h with ⟨z, hz, hrest⟩ | ⟨z, hz, hrest⟩
  · rcases List.eq_nil_or_concat z with rfl | ⟨more, c, rfl⟩
    · rw [List.append_nil] at hz
      exact opensIn_of_line hline (by rw [← hz, List.append_assoc])
    · rw [hinit, ← List.append_assoc, List.concat_eq_append, ← List.append_assoc] at hz
      obtain ⟨-, hc⟩ := List.append_inj' hz rfl
      have hmem : c ∈ List.replicate n '\n' := by
        rw [hrest, List.concat_eq_append]
        simp
      rw [← (List.cons.inj hc).1] at hmem
      exact absurd (List.eq_of_mem_replicate hmem) (by decide)
  · cases z with
    | nil =>
        rw [List.append_nil] at hz
        exact opensIn_of_line hline (by rw [hz, List.append_assoc])
    | cons c more =>
        rw [List.cons_append] at hrest
        obtain ⟨rfl, -⟩ := List.cons.inj hrest
        refine opensIn_of_line (y := more ++ ['\n']) hline ?_
        rw [hz]
        simp

/-- A line that opens a block opens one before the block that is put at the end. -/
theorem split_of_opensIn {tail : Chars} (h : OpensIn marker existing) :
    ∃ a w, startsLine '\n' true a = true ∧ a.length < existing.length ∧
      existing ++ blockSeparator existing ++ tail = a ++ ((setupMarkers marker).opening ++ '\n' :: w) := by
  obtain ⟨init, hinit⟩ := exists_init_of_opening marker
  obtain ⟨a, y, hline, hsplit⟩ : ∃ a y, startsLine '\n' true a = true ∧
      existing ++ ['\n'] = a ++ ((setupMarkers marker).opening ++ '\n' :: y) := by
    obtain ⟨x, y, hxy⟩ := h
    cases x with
    | nil =>
        have htext : existing ++ ['\n'] = (setupMarkers marker).opening ++ ['\n'] ++ y := (List.cons.inj hxy).2.symm
        exact ⟨[], y, rfl, by rw [htext]; simp⟩
    | cons c more =>
        have htext : existing ++ ['\n'] = more ++ ('\n' :: (setupMarkers marker).opening ++ ['\n']) ++ y :=
          (List.cons.inj hxy).2.symm
        exact ⟨more ++ ['\n'], y, Blocks.startsLine_concat more, by rw [htext]; simp⟩
  have hlength : ∀ z, existing = a ++ ((setupMarkers marker).opening ++ z) → a.length < existing.length := by
    intro z hz
    rw [hz, hinit, List.length_append, List.length_append, List.length_append, List.length_singleton]
    omega
  rcases List.eq_nil_or_concat y with rfl | ⟨more, c, rfl⟩
  · rw [← List.append_assoc] at hsplit
    have hexisting := List.append_cancel_right hsplit
    have hne : existing ≠ [] := by
      rw [hexisting, hinit]
      simp
    have hends : ¬ ['\n'] <:+ existing := by
      rintro ⟨start, hstart⟩
      rw [hexisting, hinit, ← List.append_assoc] at hstart
      obtain ⟨-, hlast⟩ := List.append_inj' hstart rfl
      exact absurd (List.cons.inj hlast).1 (by decide)
    refine ⟨a, '\n' :: tail, hline, hlength [] ?_, ?_⟩
    · rw [List.append_nil]
      exact hexisting
    · rw [blockSeparator_of_unended hne hends, hexisting]
      simp
  · rw [List.concat_eq_append, ← List.cons_append, ← List.append_assoc, ← List.append_assoc] at hsplit
    obtain ⟨hexisting, -⟩ := List.append_inj' hsplit rfl
    rw [List.append_assoc] at hexisting
    refine ⟨a, more ++ blockSeparator existing ++ tail, hline, hlength _ hexisting, ?_⟩
    generalize blockSeparator existing = separator
    rw [hexisting]
    simp

/-! ## Finding the block again -/

/-- A block whose content holds no closing marker is found where no line before it opens one, by
the pattern of the write and by that of the rollback. -/
theorem find_block {ok : Chars → Bool} (hmarker : '\n' ∉ marker) (hcloses : ClosesNowhere marker content)
    (hok : ok after = true) (hline : startsLine '\n' true before = true)
    (hopens : ∀ a w, a.length < before.length → startsLine '\n' true a = true →
      before ≠ a ++ ((setupMarkers marker).opening ++ '\n' :: w)) :
    (setupMarkers marker).find ok true (before ++ (setupBlock marker content ++ after)) =
      some ⟨before, setupBlock marker content, after⟩ := by
  refine Delimiters.find_of_not_opens (setupMarkers_plain hmarker) hok hline hcloses ?_
  intro a rest hlt hstarts hsplit
  obtain ⟨w, hw⟩ := Blocks.exists_split_of_line (setupMarkers_plain hmarker).opening hline hlt hsplit
  exact hopens a w hlt hstarts hw

/-- No line before a managed block opens one. -/
theorem not_opens_of_found (hmarker : '\n' ∉ marker) (h : findManaged marker true text = some ⟨before, block, after⟩)
    {a w : Chars} (hlt : a.length < before.length) (hstarts : startsLine '\n' true a = true) :
    before ≠ a ++ ((setupMarkers marker).opening ++ '\n' :: w) := by
  intro hbefore
  obtain ⟨htext, _⟩ := Delimiters.find_eq h
  have hsplit : text = a ++ ((setupMarkers marker).opening ++ '\n' :: (w ++ (block ++ after))) := by
    rw [htext, hbefore]
    simp
  exact Delimiters.not_opens_before (setupMarkers_plain hmarker) h hlt hstarts hsplit

/-! ## Newlines -/

theorem dropNewline_split (hends : endsLine after = true) : after = firstNewline after ++ dropNewline after := by
  cases after with
  | nil => rfl
  | cons c rest =>
      obtain rfl : c = '\n' := by simpa [endsLine] using hends
      rfl

theorem exists_firstNewline (text : Chars) : ∃ n, firstNewline text = List.replicate n '\n' := by
  unfold firstNewline
  split
  · exact ⟨1, rfl⟩
  · exact ⟨0, rfl⟩

/-- Where a closing marker ends is told by the newlines after it. -/
theorem eq_of_newlines {u v : Chars} {m n : Nat}
    (h : u ++ ['<', '\n'] ++ List.replicate m '\n' = v ++ ['<'] ++ List.replicate n '\n') : u = v := by
  have hnone (k : Nat) : '<' ∉ List.replicate k '\n' := by
    intro hmem
    exact absurd (List.eq_of_mem_replicate hmem) (by decide)
  have hsame : List.replicate (m + 1) '\n' ++ '<' :: u.reverse = List.replicate n '\n' ++ '<' :: v.reverse := by
    have hreversed := congrArg List.reverse h
    simpa [List.reverse_append, List.reverse_replicate, List.replicate_succ', List.append_assoc] using hreversed
  exact List.reverse_injective (Text.append_sep_inj (hnone _) (hnone _) hsame).2

/-- A replacement that restores a text up to newlines at its place is the prior block and a newline. -/
theorem eq_of_sameUpToNewlines {init prior replaced : Chars} (hends : endsLine after = true)
    (hprior : prior = init ++ ['<']) (hreplaced : ∃ start, replaced = start ++ ['<', '\n'])
    (h : SameUpToNewlines (before ++ prior) (before ++ (prior ++ after)) (before ++ replaced ++ dropNewline after)) :
    replaced = prior ++ ['\n'] := by
  obtain ⟨start, rfl⟩ := hreplaced
  obtain ⟨i, j, rest, hold, hnew⟩ := h
  have hafter : after = List.replicate i '\n' ++ rest := by
    rw [← List.append_assoc, List.append_assoc (before ++ prior)] at hold
    exact List.append_cancel_left hold
  have htail : start ++ ['<', '\n'] ++ dropNewline after = prior ++ (List.replicate j '\n' ++ rest) := by
    have hsame : before ++ (start ++ ['<', '\n'] ++ dropNewline after) =
        before ++ (prior ++ (List.replicate j '\n' ++ rest)) := by
      simpa [List.append_assoc] using hnew
    exact List.append_cancel_left hsame
  have hstart : start = init := by
    cases i with
    | zero =>
        obtain ⟨k, hk⟩ := exists_firstNewline after
        have hrest : rest = List.replicate k '\n' ++ dropNewline after := by
          rw [← hk, ← dropNewline_split hends]
          exact hafter.symm
        rw [hrest, ← List.append_assoc (List.replicate j '\n'), ← List.append_assoc prior,
          List.replicate_append_replicate] at htail
        refine eq_of_newlines (m := 0) (n := j + k) ?_
        rw [← hprior, List.replicate_zero, List.append_nil]
        exact List.append_cancel_right htail
    | succ i =>
        have hdrop : dropNewline after = List.replicate i '\n' ++ rest := by
          rw [hafter, List.replicate_succ]
          rfl
        rw [hdrop, ← List.append_assoc, ← List.append_assoc prior] at htail
        refine eq_of_newlines (m := i) (n := j) ?_
        rw [← hprior]
        exact List.append_cancel_right htail
  rw [hstart, hprior]
  simp

/-! ## The write and the rollback -/

section Written

variable [PlainJson]

theorem settled_of_only {tail : Chars} (h : OnlyBlock marker text before (setupBlock marker content) tail) :
    managedBlock text marker content = .ok (text, false, some (setupBlock marker content)) := by
  unfold managedBlock
  rw [h.first]
  dsimp only
  rw [h.only, if_neg (by simp), if_pos rfl]

theorem rollback_of_found {prior : Option Chars} {replaced : Chars}
    (hfound : findOwned marker text = some ⟨before, block, after⟩)
    (hexpand : expandTemplate (block ++ firstNewline after) block ((prior.map (· ++ ['\n'])).getD []) = some replaced) :
    rollbackManagedBlock text marker block prior = .ok (some (before ++ replaced ++ dropNewline after)) := by
  unfold rollbackManagedBlock
  rw [hfound]
  dsimp only
  rw [if_neg (not_not_intro rfl), hexpand]

/-- A block that the rollback takes out holds no closing marker. -/
theorem closesNowhere_of_rollback {prior : Option Chars} {restored : Chars}
    (h : rollbackManagedBlock text marker (setupBlock marker content) prior = .ok (some restored)) :
    ClosesNowhere marker content := by
  unfold rollbackManagedBlock at h
  split at h
  · cases h
  · rename_i found hfound
    split at h
    · cases h
    · rename_i hsame
      exact Delimiters.not_closing_of_find hfound (not_not.mp hsame)

/-- What a rollback returns is its pattern's match replaced. -/
theorem expand_of_rollback {prior : Option Chars} {restored : Chars}
    (hfound : findOwned marker text = some ⟨before, block, after⟩)
    (h : rollbackManagedBlock text marker block prior = .ok (some restored)) :
    ∃ replaced, expandTemplate (block ++ firstNewline after) block ((prior.map (· ++ ['\n'])).getD []) = some replaced ∧
      restored = before ++ replaced ++ dropNewline after := by
  unfold rollbackManagedBlock at h
  rw [hfound] at h
  dsimp only at h
  rw [if_neg (not_not_intro rfl)] at h
  split at h
  · cases h
  · rename_i replaced hexpand
    cases h
    exact ⟨replaced, hexpand, rfl⟩

/-! ## The two cases -/

theorem exact_inserted_iff (hmarker : '\n' ∉ marker) (hnone : findManaged marker true existing = none) :
    Exact marker existing content (existing ++ blockSeparator existing ++ setupBlock marker content ++ ['\n']) none ↔
      ClosesNowhere marker content ∧ ¬ OpensIn marker existing := by
  obtain ⟨n, hn⟩ := exists_separator existing
  have hfront : frontOf marker existing = existing := by
    unfold frontOf
    rw [hnone]
  constructor
  · intro hexact
    obtain ⟨restored, hrestored, _⟩ := hexact.restored
    refine ⟨closesNowhere_of_rollback hrestored, ?_⟩
    intro hopens
    obtain ⟨i, j, honly⟩ := hexact.stands
    obtain ⟨a, w, hstarts, hlt, hsplit⟩ : ∃ a w, startsLine '\n' true a = true ∧ a.length < existing.length ∧
        existing ++ blockSeparator existing ++ (setupBlock marker content ++ ['\n']) =
          a ++ ((setupMarkers marker).opening ++ '\n' :: w) := split_of_opensIn hopens
    have hbefore : a.length < (existing ++ List.replicate i '\n').length := by
      rw [List.length_append]
      omega
    rw [← List.append_assoc] at hsplit
    exact Delimiters.not_opens_before (setupMarkers_plain hmarker) honly.first hbefore hstarts hsplit
  · rintro ⟨hcloses, hopens⟩
    have hline := startsLine_separated existing
    have hbefore : ∀ a w, a.length < (existing ++ blockSeparator existing).length → startsLine '\n' true a = true →
        existing ++ blockSeparator existing ≠ a ++ ((setupMarkers marker).opening ++ '\n' :: w) := by
      intro a w _ hstarts hsplit
      rw [hn] at hsplit
      exact hopens (opensIn_of_split hstarts hsplit)
    have honly : OnlyBlock marker (existing ++ blockSeparator existing ++ setupBlock marker content ++ ['\n'])
        (existing ++ blockSeparator existing) (setupBlock marker content) ['\n'] := by
      refine ⟨?_, ?_⟩
      · rw [List.append_assoc]
        exact find_block hmarker hcloses rfl hline hbefore
      · rfl
    have howned : findOwned marker (existing ++ blockSeparator existing ++ setupBlock marker content ++ ['\n']) =
        some ⟨existing ++ blockSeparator existing, setupBlock marker content, ['\n']⟩ := by
      rw [List.append_assoc]
      exact find_block hmarker hcloses rfl hline hbefore
    refine ⟨⟨n, 1, ?_⟩, settled_of_only honly, ?_⟩
    · rw [hn] at honly ⊢
      exact honly
    · refine ⟨_, rollback_of_found howned rfl, ?_⟩
      rw [hfront, hn]
      exact ⟨0, n, [], by simp, by simp [dropNewline]⟩

theorem exact_replaced_iff {prior replacement : Chars} (hmarker : '\n' ∉ marker)
    (hfound : findManaged marker true existing = some ⟨before, prior, after⟩)
    (honly : findManaged marker false after = none)
    (hexpand : expandTemplate prior prior (setupBlock marker content) = some replacement) :
    Exact marker existing content (before ++ replacement ++ after) (some prior) ↔
      ClosesNowhere marker content ∧ replacement = setupBlock marker content ∧
        expandTemplate (setupBlock marker content ++ firstNewline after) (setupBlock marker content)
          (prior ++ ['\n']) = some (prior ++ ['\n']) := by
  obtain ⟨hexisting, hline, hprior, _⟩ := Delimiters.find_eq hfound
  obtain ⟨body, hbody, _, hends, _⟩ := Delimiters.blockAt_eq hprior
  have hfront : frontOf marker existing = before ++ prior := by
    unfold frontOf
    rw [hfound]
  have howned (hcloses : ClosesNowhere marker content) :
      findOwned marker (before ++ setupBlock marker content ++ after) = some ⟨before, setupBlock marker content, after⟩ := by
    rw [List.append_assoc]
    exact find_block hmarker hcloses rfl hline fun a w hlt hstarts => not_opens_of_found hmarker hfound hlt hstarts
  constructor
  · intro hexact
    obtain ⟨restored, hrestored, hsame⟩ := hexact.restored
    have hcloses := closesNowhere_of_rollback hrestored
    have hreplacement : replacement = setupBlock marker content := by
      obtain ⟨before', after', hold, hnew⟩ := hexact.stands
      cases hfound.symm.trans hold.first
      obtain ⟨hupdated, _⟩ := Delimiters.find_eq hnew.first
      rw [List.append_assoc] at hupdated
      exact List.append_cancel_right (List.append_cancel_left hupdated)
    rw [hreplacement] at hrestored
    obtain ⟨replaced, hreplaced, rfl⟩ := expand_of_rollback (howned hcloses) hrestored
    obtain ⟨init, hinit⟩ := exists_init_of_block marker body
    refine ⟨hcloses, hreplacement, ?_⟩
    have hends' : ∃ start, replaced = start ++ ['<', '\n'] := by
      have htemplate : (prior : Chars) ++ ['\n'] = init ++ ['<', '\n'] := by
        rw [hbody, hinit]
        simp
      rw [Option.map_some, Option.getD_some, htemplate] at hreplaced
      exact expandTemplate_closing hreplaced
    rw [hfront, hexisting] at hsame
    have hrestores := eq_of_sameUpToNewlines hends (hbody.trans hinit) hends' hsame
    rw [hrestores] at hreplaced
    exact hreplaced
  · rintro ⟨hcloses, rfl, hrestores⟩
    have hfind : findManaged marker true (before ++ setupBlock marker content ++ after) =
        some ⟨before, setupBlock marker content, after⟩ := by
      rw [List.append_assoc]
      exact find_block hmarker hcloses hends hline fun a w hlt hstarts => not_opens_of_found hmarker hfound hlt hstarts
    refine ⟨⟨before, after, ⟨hfound, honly⟩, ⟨hfind, honly⟩⟩, settled_of_only ⟨hfind, honly⟩, ?_⟩
    refine ⟨_, rollback_of_found (howned hcloses) hrestores, ?_⟩
    rw [hfront, hexisting]
    obtain ⟨k, hk⟩ := exists_firstNewline after
    refine ⟨k, 1, dropNewline after, ?_, ?_⟩
    · rw [← hk, List.append_assoc, ← dropNewline_split hends, List.append_assoc]
    · simp

/-- A write that changed the file is exact where the content holds no closing marker after its
first line and the file is one it can be put into. -/
theorem managedBlock_exact_iff {prior : Option Chars} (hmarker : '\n' ∉ marker)
    (h : managedBlock existing marker content = .ok (updated, true, prior)) :
    Exact marker existing content updated prior ↔ ClosesNowhere marker content ∧ Replaceable marker existing content := by
  dsimp only [managedBlock] at h
  split at h
  · rename_i hnone
    cases h
    rw [exact_inserted_iff hmarker hnone]
    unfold Replaceable
    rw [hnone]
  · rename_i found hfound
    split at h
    · cases h
    · rename_i honly
      split at h
      · cases h
      · split at h
        · cases h
        · rename_i replacement hexpand
          cases h
          have hafter : findManaged marker false found.after = none := by
            rwa [Bool.not_eq_true, Option.isSome_eq_false_iff, Option.isNone_iff_eq_none] at honly
          rw [exact_replaced_iff hmarker hfound hafter hexpand]
          unfold Replaceable
          rw [hfound]
          dsimp only
          rw [hexpand, Option.some_inj]

end Written

/-! ## An escape in the content -/

section Sample

local instance noNumbers : PlainJson where
  loads _ := none
  dumps _ := ""
  intOfText text := text.toInt?

def ownedText (content : String) : Chars :=
  ("# >>> aart setup: shell >>>\n" ++ content ++ "\n# <<< aart setup: shell <<<\n").toList

/-- The content `printf '\t'` is written with the tab that its escape stands for. -/
theorem managedBlock_expands :
    managedBlock (ownedText "printf ' '") "shell".toList "printf '\\t'".toList =
        .ok (ownedText "printf '\t'", true, some ((ownedText "printf ' '").dropLast)) ∧
      ¬ Exact "shell".toList (ownedText "printf ' '") "printf '\\t'".toList (ownedText "printf '\t'")
        (some ((ownedText "printf ' '").dropLast)) := by
  refine ⟨by decide, ?_⟩
  intro hexact
  exact absurd hexact.settled (by decide)

/-- A plain content takes the place of another one. -/
theorem managedBlock_exact_plain :
    Exact "shell".toList (ownedText "export A=1") "export A=2\n".toList (ownedText "export A=2")
      (some ((ownedText "export A=1").dropLast)) := by
  refine (managedBlock_exact_iff (by decide) (by decide)).mpr ⟨?_, ?_⟩
  · intro hcloses
    exact absurd hcloses (by decide)
  · exact ⟨expandTemplate_of_inert (by decide), expandTemplate_of_inert (by decide)⟩

end Sample

end AgentArtifacts.Setup
