import AgentArtifacts.Protocol.Paths

/-!
# Managed memory blocks

A memory artifact that is prepended or appended owns one block of a shared
file, delimited by a marker pair that carries its name. Writing the block again
replaces the pair and what lies between; a begin marker that no end marker
follows takes the rest of the file with it.
-/

namespace AgentArtifacts

def beginMarker (name : String) : String := "<!-- >>> agent-artifacts memory:" ++ name ++ " >>> -->"

def endMarker (name : String) : String := "<!-- <<< agent-artifacts memory:" ++ name ++ " <<< -->"

abbrev Chars := List Char

def newline (c : Char) : Bool := c == '\n'

/-- The block itself: markers around the body, which loses its final newlines. -/
def blockChars (name : String) (body : Chars) : Chars :=
  (beginMarker name).toList ++ ['\n'] ++ Text.stripRight newline body ++ ['\n'] ++
    (endMarker name).toList

/-- One leading newline is given up to the block. -/
def dropNewline : Chars → Chars
  | '\n' :: rest => rest
  | text => text

def withFinalNewline (text : Chars) : Chars :=
  if text.getLast? = some '\n' then text else text ++ ['\n']

def memoryBlockChars (existing : Chars) (name : String) (body : Chars) (top : Bool) : Chars :=
  let block := blockChars name body
  match Text.partition? (beginMarker name).toList existing with
  | some (before, after) =>
      -- The search for the end marker starts at the begin marker.
      match Text.partition? (endMarker name).toList ((beginMarker name).toList ++ after) with
      | some (_, tail) => before ++ block ++ ['\n'] ++ dropNewline tail
      | none => before ++ block ++ ['\n']
  | none =>
      if existing = [] then block ++ ['\n']
      else
        let base := withFinalNewline existing
        if top then block ++ ['\n', '\n'] ++ base else base ++ ['\n'] ++ block ++ ['\n']

/-- The text of the destination with the block of an artifact written into it. -/
def memoryBlock (existing : Option String) (name body : String) (top : Bool) : String :=
  String.ofList (memoryBlockChars (existing.getD "").toList name body.toList top)

/-! ## Stripping -/

def stripManagedBlockChars (name : String) (text : Chars) : Option Chars :=
  let first := (beginMarker name).toList
  let last := (endMarker name).toList
  if !Text.contains first text && !Text.contains last text then some text
  else if Text.count first text ≠ 1 ∨ Text.count last text ≠ 1 then none
  else
    match Text.partition? first text with
    | none => none
    | some (before, after) =>
        match Text.partition? last (first ++ after) with
        | none => none
        | some (_, tail) =>
            let stripped := before ++ dropNewline tail
            let trimmed := if ['\n', '\n'] <:+ stripped then stripped.dropLast else stripped
            some (dropNewline trimmed)

/-- The content without the block; `none` when the markers do not delimit one block. -/
def stripManagedBlock (name : String) (content : Bytes) : Option Bytes := do
  let text ← decodeUtf8 content
  let chars ← stripManagedBlockChars name text.toList
  return encodeUtf8 (String.ofList chars)

/-! ## What a block write keeps -/

/-- The two texts differ in newlines at their end only. -/
def SameUpToFinalNewlines (a b : Chars) : Prop :=
  Text.stripRight newline a = Text.stripRight newline b

/-- The two texts differ in newlines at their start only. -/
def SameUpToFirstNewlines (a b : Chars) : Prop := a.dropWhile newline = b.dropWhile newline

/-- The text outside the artifact's marker pair is kept, up to newlines next to the block. -/
def KeepsOutsideBlock (name : String) (body existing written : Chars) : Prop :=
  ∃ left right left' right',
    (existing = left ++ right ∨
      ∃ inner, existing = left ++ (beginMarker name).toList ++ inner ++ (endMarker name).toList ++ right) ∧
    written = left' ++ blockChars name body ++ right' ∧
    SameUpToFinalNewlines left left' ∧ SameUpToFirstNewlines right right'

/-- The begin marker occurs and no end marker follows it. -/
def BeginsWithoutEnd (name : String) (text : Chars) : Prop :=
  ∃ before after, Text.partition? (beginMarker name).toList text = some (before, after) ∧
    Text.partition? (endMarker name).toList ((beginMarker name).toList ++ after) = none

/-- The block goes on top of a text that has no final newline yet. -/
def LacksFinalNewline (name : String) (text : Chars) (top : Bool) : Prop :=
  top = true ∧ Text.partition? (beginMarker name).toList text = none ∧ text ≠ [] ∧
    text.getLast? ≠ some '\n'

/-! ## Markers -/

theorem beginMarker_toList (name : String) :
    (beginMarker name).toList =
      '<' :: ("!-- >>> agent-artifacts memory:".toList ++ name.toList ++ " >>> -->".toList) := by
  have hhead : "<!-- >>> agent-artifacts memory:".toList =
      '<' :: "!-- >>> agent-artifacts memory:".toList := by decide
  unfold beginMarker
  rw [String.toList_append, String.toList_append, hhead, List.cons_append, List.cons_append]

/-- Only the first character of a begin marker opens an angle bracket, and none ends a line. -/
theorem beginMarker_tail (name : Slug) {c : Char} (h : c = '<' ∨ c = '\n') :
    c ∉ (beginMarker name.value).toList.tail := by
  have hname : c ∉ name.value.toList := by
    rcases h with rfl | rfl
    · exact name.not_mem (by decide) (by decide)
    · exact name.not_mem (by decide) (by decide)
  have hhead : c ∉ "!-- >>> agent-artifacts memory:".toList := by
    rcases h with rfl | rfl <;> decide
  have hlast : c ∉ " >>> -->".toList := by
    rcases h with rfl | rfl <;> decide
  rw [beginMarker_toList, List.tail_cons, List.mem_append, List.mem_append]
  exact fun hmem => hmem.elim (fun hmem => hmem.elim hhead hname) hlast

/-- A text that is not empty and does not hold the begin marker cannot start a
text in which the marker is followed by newlines and another begin marker. -/
theorem beginMarker_no_shift (name : Slug) {text lines rest tail : Chars} (htext : text ≠ [])
    (hno : ¬ (beginMarker name.value).toList <:+: text) (hlines : ∀ c ∈ lines, newline c = true) :
    text ++ (lines ++ ((beginMarker name.value).toList ++ rest)) ≠
      (beginMarker name.value).toList ++ tail := by
  intro heq
  rcases List.append_eq_append_iff.mp heq with ⟨shift, hmarker, hshift⟩ | ⟨shift, htextEq, _⟩
  · cases shift with
    | nil =>
        rw [List.append_nil] at hmarker
        exact hno (by rw [hmarker])
    | cons c more =>
        -- The character after the text lies inside the marker, yet starts a line or a marker.
        have hinside : c ∈ (beginMarker name.value).toList.tail := by
          rw [hmarker]
          cases text with
          | nil => exact absurd rfl htext
          | cons d rest => simp
        have hc : c = '<' ∨ c = '\n' := by
          cases lines with
          | nil =>
              rw [beginMarker_toList] at hshift
              simp only [List.nil_append, List.cons_append, List.cons.injEq] at hshift
              exact Or.inl hshift.1.symm
          | cons d others =>
              simp only [List.cons_append, List.cons.injEq] at hshift
              have hd := hlines d (by simp)
              rw [hshift.1] at hd
              exact Or.inr (by simpa [newline] using hd)
        exact beginMarker_tail name hc hinside
  · exact hno ⟨[], shift, by simp [htextEq]⟩

/-- An end marker found from a begin marker on lies behind it. -/
theorem endMarker_after_beginMarker (name : Slug) {after upto tail : Chars}
    (h : (beginMarker name.value).toList ++ after = upto ++ (endMarker name.value).toList ++ tail) :
    (beginMarker name.value).toList <+: upto := by
  have hbeginHead : (beginMarker name.value).toList = "<!-- >>>".toList ++
      (" agent-artifacts memory:".toList ++ name.value.toList ++ " >>> -->".toList) := by
    have hhead : "<!-- >>> agent-artifacts memory:".toList =
        "<!-- >>>".toList ++ " agent-artifacts memory:".toList := by decide
    unfold beginMarker
    rw [String.toList_append, String.toList_append, hhead, List.append_assoc, List.append_assoc,
      List.append_assoc]
  have hendHead : (endMarker name.value).toList = "<!-- <<<".toList ++
      (" agent-artifacts memory:".toList ++ name.value.toList ++ " <<< -->".toList) := by
    have hhead : "<!-- <<< agent-artifacts memory:".toList =
        "<!-- <<<".toList ++ " agent-artifacts memory:".toList := by decide
    unfold endMarker
    rw [String.toList_append, String.toList_append, hhead, List.append_assoc, List.append_assoc,
      List.append_assoc]
  rw [List.append_assoc] at h
  rcases List.append_eq_append_iff.mp h with ⟨shift, hupto, _⟩ | ⟨shift, hmarker, hshift⟩
  · exact ⟨shift, hupto.symm⟩
  · cases shift with
    | nil => exact ⟨[], by simpa using hmarker⟩
    | cons c more =>
        exfalso
        cases upto with
        | nil =>
            rw [List.nil_append] at hmarker
            rw [← hmarker, hbeginHead, hendHead, List.append_assoc "<!-- <<<".toList,
              List.append_assoc "<!-- >>>".toList] at hshift
            exact absurd (List.append_inj hshift (by decide)).1 (by decide)
        | cons d before =>
            have hinside : c ∈ (beginMarker name.value).toList.tail := by
              rw [hmarker]
              simp
            have hc : c = '<' := by
              have hopen : "<!-- <<<".toList = '<' :: "!-- <<<".toList := by decide
              rw [hendHead, hopen] at hshift
              simp only [List.cons_append, List.cons.injEq] at hshift
              exact hshift.1.symm
            exact beginMarker_tail name (Or.inl hc) hinside

/-! ## Which writes keep the text outside the block -/

/-- The characters of a text that do not end a line. -/
def visible (text : Chars) : Nat := text.countP fun c => !newline c

theorem visible_append (a b : Chars) : visible (a ++ b) = visible a + visible b :=
  List.countP_append

theorem visible_of_newlines {text : Chars} (h : ∀ c ∈ text, newline c = true) : visible text = 0 := by
  rw [visible, List.countP_eq_zero]
  intro c hc
  simp [h c hc]

theorem visible_eq_of_final {a b : Chars} (h : SameUpToFinalNewlines a b) : visible a = visible b := by
  obtain ⟨tailA, hA, hlinesA⟩ := Text.stripRight_append_stripped newline a
  obtain ⟨tailB, hB, hlinesB⟩ := Text.stripRight_append_stripped newline b
  have hvisibleA := visible_append (Text.stripRight newline a) tailA
  have hvisibleB := visible_append (Text.stripRight newline b) tailB
  rw [← hA, visible_of_newlines hlinesA] at hvisibleA
  rw [← hB, visible_of_newlines hlinesB] at hvisibleB
  rw [hvisibleA, hvisibleB, h]

theorem visible_eq_of_first {a b : Chars} (h : SameUpToFirstNewlines a b) : visible a = visible b := by
  have hdrop (text : Chars) : visible text = visible (text.dropWhile newline) := by
    have hsplit := visible_append (text.takeWhile newline) (text.dropWhile newline)
    rw [List.takeWhile_append_dropWhile, visible_of_newlines fun c hc => List.mem_takeWhile_imp hc] at hsplit
    omega
  rw [hdrop a, hdrop b, h]

theorem visible_beginMarker (name : String) : 0 < visible (beginMarker name).toList := by
  rw [beginMarker_toList, visible, List.countP_pos_iff]
  exact ⟨'<', by simp, by decide⟩

/-- The body alone is too short to hold a block around itself. -/
theorem not_keeps_of_plain (name : String) (body text : Chars) : ¬ KeepsOutsideBlock name body text body := by
  rintro ⟨left, right, left', right', _, hwritten, _, _⟩
  obtain ⟨tail, hbody, hlines⟩ := Text.stripRight_append_stripped newline body
  have hvisible := congrArg visible hbody
  have hblock := congrArg visible hwritten
  have hmarker := visible_beginMarker name
  simp only [visible_append, blockChars, visible_of_newlines hlines] at hvisible hblock
  omega

/-- A begin marker without an end marker loses the text behind it. -/
theorem not_keeps_of_beginsWithoutEnd {name : String} {body text : Chars} {top : Bool}
    (h : BeginsWithoutEnd name text) :
    ¬ KeepsOutsideBlock name body text (memoryBlockChars text name body top) := by
  obtain ⟨before, after, hbegin, hend⟩ := h
  have htext := Text.partition?_eq hbegin
  rintro ⟨left, right, left', right', hsplit, hwritten, hleft, hright⟩
  rcases hsplit with hplain | ⟨inner, hpair⟩
  · -- Everything visible would have to survive, and the marker does not.
    have hlost : memoryBlockChars text name body top = before ++ blockChars name body ++ ['\n'] := by
      simp [memoryBlockChars, hbegin, hend]
    have hcount := congrArg visible (hlost.symm.trans hwritten)
    have hkept := congrArg visible (htext.symm.trans hplain)
    have hline : visible ['\n'] = 0 := rfl
    simp only [visible_append, hline] at hcount hkept
    have hl := visible_eq_of_final hleft
    have hr := visible_eq_of_first hright
    have hmarker := visible_beginMarker name
    omega
  · -- The end marker of such a pair follows the first begin marker.
    have hbegins : text = left ++ (beginMarker name).toList ++ (inner ++ (endMarker name).toList ++ right) := by
      simp [hpair]
    have hle := Text.partition?_length_le hbegin hbegins
    have hbefore : before <+: text := ⟨(beginMarker name).toList ++ after, by rw [htext]; simp⟩
    have hleftPrefix : left <+: text := ⟨_, by rw [hbegins, List.append_assoc]⟩
    obtain ⟨shift, rfl⟩ := List.prefix_of_prefix_length_le hbefore hleftPrefix hle
    have htail : (beginMarker name).toList ++ after =
        shift ++ (beginMarker name).toList ++ inner ++ (endMarker name).toList ++ right := by
      have hboth := htext.symm.trans hpair
      simp only [List.append_assoc, List.append_cancel_left_eq] at hboth
      simpa using hboth
    exact Text.partition?_eq_none_iff.mp hend
      ⟨shift ++ (beginMarker name).toList ++ inner, right, htail.symm⟩

theorem getLast?_dropWhile {p : Char → Bool} {text : Chars} (h : text.dropWhile p ≠ []) :
    (text.dropWhile p).getLast? = text.getLast? := by
  have hsplit := @List.takeWhile_append_dropWhile _ p text
  calc (text.dropWhile p).getLast?
      = (text.takeWhile p ++ text.dropWhile p).getLast? :=
        (List.getLast?_append_of_ne_nil _ h).symm
    _ = text.getLast? := by rw [hsplit]

/-- On top of a text without a final newline, the write ends the last line too. -/
theorem not_keeps_of_lacksFinalNewline {name : Slug} {body text : Chars} {top : Bool}
    (h : LacksFinalNewline name.value text top) :
    ¬ KeepsOutsideBlock name.value body text (memoryBlockChars text name.value body top) := by
  obtain ⟨rfl, hbegin, hne, hlast⟩ := h
  have hno := Text.partition?_eq_none_iff.mp hbegin
  have hwrite : memoryBlockChars text name.value body true =
      blockChars name.value body ++ ['\n', '\n'] ++ text ++ ['\n'] := by
    simp [memoryBlockChars, hbegin, hne, withFinalNewline, hlast]
  rintro ⟨left, right, left', right', hsplit, hwritten, hleft, hright⟩
  rw [hwrite] at hwritten
  rcases hsplit with rfl | ⟨inner, rfl⟩
  · by_cases hvisible : right.dropWhile newline = []
    · have hrightNil : right = [] := by
        by_contra hrightNe
        have hlastRight : (left ++ right).getLast? = some (right.getLast hrightNe) := by
          rw [List.getLast?_append_of_ne_nil _ hrightNe, List.getLast?_eq_some_getLast hrightNe]
        have hnewline := List.dropWhile_eq_nil_iff.mp hvisible (right.getLast hrightNe)
          (List.getLast_mem hrightNe)
        have heq : right.getLast hrightNe = '\n' := by simpa [newline] using hnewline
        exact hlast (by rw [hlastRight, heq])
      subst hrightNil
      rw [List.append_nil] at hno hne hlast hwritten
      obtain ⟨c, hc⟩ : ∃ c, left.getLast? = some c :=
        Option.isSome_iff_exists.mp (by simpa using hne)
      have hcNewline : newline c = false := by
        rw [hc] at hlast
        simpa [newline] using hlast
      have hstripped : left = Text.stripRight newline left' := by
        rw [← hleft]
        exact (Text.stripRight_of_getLast hc hcNewline).symm
      obtain ⟨lines, hlines, hall⟩ := Text.stripRight_append_stripped newline left'
      rw [← hstripped] at hlines
      rw [hlines] at hwritten
      simp only [blockChars, List.append_assoc] at hwritten
      exact beginMarker_no_shift name hne hno hall hwritten.symm
    · -- The last character of the written text is a newline, that of the kept text is not.
      have hkept : right'.dropWhile newline ≠ [] := hright ▸ hvisible
      have hright'Ne : right' ≠ [] := by
        rintro rfl
        exact hkept rfl
      have hrightNe : right ≠ [] := by
        rintro rfl
        exact hvisible rfl
      have hend := congrArg List.getLast? hwritten
      rw [List.getLast?_append_of_ne_nil _ hright'Ne, ← getLast?_dropWhile hkept, ← hright,
        getLast?_dropWhile hvisible] at hend
      refine hlast ?_
      rw [List.getLast?_append_of_ne_nil _ hrightNe, ← hend,
        List.getLast?_append_of_ne_nil _ (by simp)]
      rfl
  · exact hno ⟨left, inner ++ (endMarker name.value).toList ++ right, by simp⟩

theorem sameUpToFirstNewlines_cons (text : Chars) : SameUpToFirstNewlines text ('\n' :: text) := by
  simp [SameUpToFirstNewlines, newline]

theorem sameUpToFirstNewlines_dropNewline (text : Chars) :
    SameUpToFirstNewlines text ('\n' :: dropNewline text) := by
  unfold dropNewline
  split
  · rfl
  · exact sameUpToFirstNewlines_cons text

theorem sameUpToFinalNewlines_append (text : Chars) {lines : Chars}
    (h : ∀ c ∈ lines, newline c = true) : SameUpToFinalNewlines text (text ++ lines) :=
  (Text.stripRight_append_of_all text h).symm

/-- A block write keeps the text outside the block exactly when no end marker is
missing behind its begin marker and no final newline has to be added. -/
theorem memoryBlockChars_keeps_iff (name : Slug) (body text : Chars) (top : Bool) :
    KeepsOutsideBlock name.value body text (memoryBlockChars text name.value body top) ↔
      ¬ BeginsWithoutEnd name.value text ∧ ¬ LacksFinalNewline name.value text top := by
  constructor
  · intro hkeeps
    exact ⟨fun h => not_keeps_of_beginsWithoutEnd h hkeeps,
      fun h => not_keeps_of_lacksFinalNewline h hkeeps⟩
  · rintro ⟨hend, hfinal⟩
    cases hbegin : Text.partition? (beginMarker name.value).toList text with
    | some parts =>
        obtain ⟨before, after⟩ := parts
        cases hstop : Text.partition? (endMarker name.value).toList
            ((beginMarker name.value).toList ++ after) with
        | none => exact absurd ⟨before, after, hbegin, hstop⟩ hend
        | some rest =>
            obtain ⟨upto, tail⟩ := rest
            have hpair := Text.partition?_eq hstop
            obtain ⟨inner, rfl⟩ := endMarker_after_beginMarker name hpair
            refine ⟨before, tail, before, '\n' :: dropNewline tail, Or.inr ⟨inner, ?_⟩, ?_, rfl,
              sameUpToFirstNewlines_dropNewline tail⟩
            · rw [Text.partition?_eq hbegin, List.append_assoc, hpair]
              simp
            · simp [memoryBlockChars, hbegin, hstop]
    | none =>
        by_cases hempty : text = []
        · subst hempty
          refine ⟨[], [], [], ['\n'], Or.inl rfl, ?_, rfl, sameUpToFirstNewlines_cons []⟩
          simp [memoryBlockChars, hbegin]
        · cases top with
          | true =>
              have hnewline : text.getLast? = some '\n' := by
                by_contra hlast
                exact hfinal ⟨rfl, hbegin, hempty, hlast⟩
              refine ⟨[], text, [], '\n' :: '\n' :: text, Or.inl rfl, ?_, rfl, ?_⟩
              · simp [memoryBlockChars, hbegin, hempty, withFinalNewline, hnewline]
              · exact (sameUpToFirstNewlines_cons text).trans (sameUpToFirstNewlines_cons _)
          | false =>
              refine ⟨text, [], withFinalNewline text ++ ['\n'], ['\n'], Or.inl (by simp), ?_, ?_,
                sameUpToFirstNewlines_cons []⟩
              · simp [memoryBlockChars, hbegin, hempty]
              · unfold withFinalNewline
                split
                · exact sameUpToFinalNewlines_append text (by simp [newline])
                · rw [List.append_assoc]
                  exact sameUpToFinalNewlines_append text (by simp [newline])

end AgentArtifacts
