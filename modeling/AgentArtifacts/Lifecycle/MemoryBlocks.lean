import AgentArtifacts.Lifecycle.MemoryLayout
import AgentArtifacts.Lifecycle.Removal

/-!
# Blocks of several memory artifacts in one file

On a layout writing a block replaces one item or adds it at an end, and stripping
a block takes one item away; what is left between the blocks stays the text the
file had before the first of them.
-/

namespace AgentArtifacts

variable {initial : Chars} {installed : Slug → Option Chars} {items : List Item}

/-! ## One operation -/

def replaceBody (name : Slug) (body : Chars) : Item → Item
  | .block owner current => if owner = name then .block owner body else .block owner current
  | item => item

def isOtherThan (name : Slug) (item : Item) : Bool := item.name? != some name

@[simp] theorem replaceBody_name? (name : Slug) (body : Chars) (item : Item) :
    (replaceBody name body item).name? = item.name? := by
  cases item with
  | line text => rfl
  | block owner current =>
      simp only [replaceBody]
      split <;> rfl

variable {name : Slug} {body : Chars}

theorem map_replaceBody {items : List Item}
    (h : name ∉ items.filterMap Item.name?) : items.map (replaceBody name body) = items := by
  conv_rhs => rw [← List.map_id items]
  refine List.map_congr_left fun item hitem => ?_
  cases item with
  | line text => rfl
  | block owner current =>
      have hne : owner ≠ name := by
        rintro rfl
        exact h (List.mem_filterMap.mpr ⟨_, hitem, rfl⟩)
      simp [replaceBody, hne]

theorem filter_isOtherThan {items : List Item} (h : name ∉ items.filterMap Item.name?) :
    items.filter (isOtherThan name) = items := by
  rw [List.filter_eq_self]
  intro item hitem
  have hne : item.name? ≠ some name := fun heq => h (List.mem_filterMap.mpr ⟨item, hitem, heq⟩)
  simpa [isOtherThan] using hne

/-- A layout around one of its blocks. -/
theorem Layout.split (h : Layout initial installed items) (hname : name ∈ items.filterMap Item.name?) :
    ∃ left body right, items = left ++ .block name body :: right ∧ right ≠ [] ∧
      name ∉ left.filterMap Item.name? ∧ name ∉ right.filterMap Item.name? ∧ MarkerFree body ∧
      ∀ item ∈ left, item.Plain := by
  obtain ⟨item, hitem, howner⟩ := List.mem_filterMap.mp hname
  cases item with
  | line text => exact absurd howner (by simp [Item.name?])
  | block owner body =>
      obtain rfl : owner = name := by simpa [Item.name?] using howner
      obtain ⟨left, right, rfl⟩ := List.append_of_mem hitem
      have hnodup := h.names
      simp only [List.filterMap_append, List.filterMap_cons, Item.name?] at hnodup
      rw [List.nodup_append, List.nodup_cons] at hnodup
      obtain ⟨_, ⟨hright, _⟩, hdisjoint⟩ := hnodup
      refine ⟨left, body, right, rfl, ?_, ?_, hright, h.plain _ hitem, ?_⟩
      · rintro rfl
        obtain ⟨before, text, heq⟩ := h.ends
        have hlast := (List.append_inj' heq rfl).2
        exact absurd hlast (by simp)
      · intro hleft
        exact hdisjoint owner hleft owner (by simp) rfl
      · intro other hother
        exact h.plain other (by simp [hother])

/-- Writing an installed block replaces its body in place. -/
theorem memoryBlockChars_present (h : Layout initial installed items) (hname : name ∈ items.filterMap Item.name?)
    (body : Chars) (top : Bool) :
    memoryBlockChars (joinItems items) name.value body top =
      joinItems (items.map (replaceBody name body)) := by
  obtain ⟨left, current, right, rfl, hright, hleftName, hrightName, hbody, hleft⟩ := h.split hname
  have hmapped : (left ++ Item.block name current :: right).map (replaceBody name body) =
      left ++ .block name body :: right := by
    rw [List.map_append, List.map_cons, map_replaceBody hleftName, map_replaceBody hrightName]
    simp [replaceBody]
  rw [hmapped]
  have hbegin := @partition?_begin name current left right hright hleft hleftName
  have hend := @partition?_end name (Text.stripRight newline current) (joinItems right) (hbody.stripRight .last name)
  simp only [Marker.chars] at hbegin hend
  simp only [memoryBlockChars, hbegin, hend, dropNewline]
  rw [joinItems_before (by simp), joinItems_cons _ hright, Item.chars]
  simp

/-- The items with an empty line at the end, unless there is a newline already. -/
def closeItems (items : List Item) : List Item :=
  if (joinItems items).getLast? = some '\n' then items else items ++ [.line []]

theorem joinItems_closeItems {items : List Item} (h : items ≠ []) :
    joinItems (closeItems items) = withFinalNewline (joinItems items) := by
  unfold closeItems withFinalNewline
  split
  · rfl
  · rw [joinItems_append h (by simp)]
    rfl

/-- The items after a block that was not there is written. -/
def insertItems (name : Slug) (body : Chars) (top : Bool) (items : List Item) : List Item :=
  if joinItems items = [] then [.block name body, .line []]
  else if top then [.block name body, .line []] ++ closeItems items
  else closeItems items ++ [.block name body, .line []]

theorem closeItems_ne_nil {items : List Item} (h : items ≠ []) : closeItems items ≠ [] := by
  unfold closeItems
  split
  · exact h
  · simp

theorem memoryBlockChars_absent (h : Layout initial installed items) (hname : name ∉ items.filterMap Item.name?)
    (body : Chars) (top : Bool) :
    memoryBlockChars (joinItems items) name.value body top = joinItems (insertItems name body top items) := by
  have hnone : Text.partition? (beginMarker name.value).toList (joinItems items) = none :=
    Text.partition?_eq_none_iff.mpr fun hinfix =>
      hname ((@infix_joinItems items name .first h.plain).mp hinfix)
  have hitems : items ≠ [] := by
    obtain ⟨before, text, rfl⟩ := h.ends
    simp
  unfold memoryBlockChars insertItems
  simp only [hnone]
  by_cases hempty : joinItems items = []
  · simp [hempty, joinItems, Item.chars]
  · simp only [hempty, if_false]
    rw [← joinItems_closeItems hitems]
    cases top with
    | true =>
        simp only [if_true]
        rw [joinItems_append (by simp) (closeItems_ne_nil hitems)]
        simp [joinItems, Item.chars]
    | false =>
        simp only [Bool.false_eq_true, if_false]
        rw [joinItems_append (closeItems_ne_nil hitems) (by simp)]
        simp [joinItems, Item.chars]

/-- The items after a block was taken away and the ends were trimmed. -/
theorem stripManagedBlockChars_present (h : Layout initial installed items)
    (hname : name ∈ items.filterMap Item.name?) :
    ∃ trimmed rest, stripManagedBlockChars name.value (joinItems items) = some (joinItems rest) ∧
      (trimmed = items.filter (isOtherThan name) ∨
        items.filter (isOtherThan name) = trimmed ++ [.line []]) ∧
      (∃ before text, trimmed = before ++ [.line text]) ∧
      (rest = trimmed ∨ (trimmed = .line [] :: rest ∧ rest ≠ [])) := by
  have hcount (marker : Marker) : Text.count (marker.chars name) (joinItems items) = 1 := by
    rw [count_joinItems marker name h.plain]
    exact List.count_eq_one_of_mem h.names hname
  have hcontains : Text.contains (Marker.first.chars name) (joinItems items) = true :=
    Text.partition?_isSome_of_infix ((infix_joinItems h.plain).mpr hname)
  obtain ⟨left, body, right, rfl, hright, hleftName, hrightName, hbody, hleft⟩ := h.split hname
  have hbegin := @partition?_begin name body left right hright hleft hleftName
  have hend := @partition?_end name (Text.stripRight newline body) (joinItems right) (hbody.stripRight .last name)
  have hfirst := hcount .first
  have hlast := hcount .last
  simp only [Marker.chars] at hbegin hend hfirst hlast hcontains
  have hfilter : (left ++ Item.block name body :: right).filter (isOtherThan name) = left ++ right := by
    rw [List.filter_append, List.filter_cons, filter_isOtherThan hleftName, filter_isOtherThan hrightName]
    simp [isOtherThan, Item.name?]
  have hstripped : itemsBefore left ++ joinItems right = joinItems (left ++ right) :=
    (joinItems_before hright).symm
  have hplain : ∀ item ∈ left ++ right, item.Plain := by
    intro item hitem
    refine h.plain item ?_
    rcases List.mem_append.mp hitem with hitem | hitem <;> simp [hitem]
  obtain ⟨before, text, hends⟩ : ∃ before text, left ++ right = before ++ [Item.line text] := by
    obtain ⟨before, text, heq⟩ := h.ends
    rcases List.eq_nil_or_concat right with rfl | ⟨others, last, rfl⟩
    · exact absurd rfl hright
    · simp only [List.concat_eq_append, ← List.cons_append, ← List.append_assoc] at heq ⊢
      have hitem := (List.append_inj' heq rfl).2
      refine ⟨left ++ others, text, ?_⟩
      rw [List.append_assoc, List.append_assoc, hitem]
  rw [hfilter]
  -- The newline at the end and the one at the start are those of empty lines.
  have htrim : ∃ trimmed, (if ['\n', '\n'] <:+ joinItems (left ++ right) then
        (joinItems (left ++ right)).dropLast else joinItems (left ++ right)) = joinItems trimmed ∧
      (trimmed = left ++ right ∨ left ++ right = trimmed ++ [.line []]) ∧
      (∃ before text, trimmed = before ++ [Item.line text]) ∧ ∀ item ∈ trimmed, item.Plain := by
    split
    · rename_i hnewlines
      rw [hends] at hnewlines hplain ⊢
      obtain ⟨others, heq⟩ := trailing_newlines hplain hnewlines
      refine ⟨others ++ [.line []], ?_, Or.inr (by rw [heq]; simp), ⟨others, [], rfl⟩, ?_⟩
      · rw [heq, joinItems_before (by simp), joinItems_before (by simp)]
        simp [joinItems, Item.chars]
      · intro item hitem
        exact hplain item (by rw [heq]; simp at hitem ⊢; tauto)
    · exact ⟨left ++ right, rfl, Or.inl rfl, ⟨before, text, hends⟩, hplain⟩
  obtain ⟨trimmed, htext, hsame, hlastLine, htrimmedPlain⟩ := htrim
  have hresult : stripManagedBlockChars name.value (joinItems (left ++ Item.block name body :: right)) =
      some (dropNewline (joinItems trimmed)) := by
    simp only [stripManagedBlockChars, hcontains, hfirst, hlast, hbegin, hend, dropNewline, Bool.not_true,
      Bool.false_and, Bool.false_eq_true, if_false, ne_eq, not_true_eq_false, or_self]
    rw [hstripped, htext]
  rcases leading_newline htrimmedPlain hlastLine with hkept | ⟨rest, hne, hhead, hdropped⟩
  · exact ⟨trimmed, trimmed, by rw [hresult, hkept], hsame, hlastLine, Or.inl rfl⟩
  · exact ⟨trimmed, rest, by rw [hresult, hdropped], hsame, hlastLine, Or.inr ⟨hhead, hne⟩⟩

theorem stripManagedBlockChars_absent (h : Layout initial installed items)
    (hname : name ∉ items.filterMap Item.name?) :
    stripManagedBlockChars name.value (joinItems items) = some (joinItems items) := by
  have hnone (marker : Marker) : Text.contains (marker.chars name) (joinItems items) = false := by
    have hinfix : ¬ marker.chars name <:+: joinItems items := fun hinfix =>
      hname ((infix_joinItems h.plain).mp hinfix)
    simp [Text.contains, Text.partition?_eq_none_iff.mpr hinfix]
  have hfirst := hnone .first
  have hlast := hnone .last
  simp only [Marker.chars] at hfirst hlast
  simp [stripManagedBlockChars, hfirst, hlast]

/-! ## Layouts after one operation -/

def setBlock (installed : Slug → Option Chars) (name : Slug) (body : Option Chars) :
    Slug → Option Chars :=
  Function.update installed name body

theorem mem_names_iff (h : Layout initial installed items) (name : Slug) :
    name ∈ items.filterMap Item.name? ↔ (installed name).isSome = true := by
  rw [List.mem_filterMap, Option.isSome_iff_exists]
  constructor
  · rintro ⟨item, hitem, hname⟩
    cases item with
    | line text => exact absurd hname (by simp [Item.name?])
    | block owner body =>
        obtain rfl : owner = name := by simpa [Item.name?] using hname
        exact ⟨body, (h.recorded owner body).mpr hitem⟩
  · rintro ⟨body, hbody⟩
    exact ⟨_, (h.recorded name body).mp hbody, rfl⟩

theorem Layout.replace (h : Layout initial installed items) (hname : name ∈ items.filterMap Item.name?)
    (hbody : MarkerFree body) :
    Layout initial (setBlock installed name (some body)) (items.map (replaceBody name body)) := by
  have hnames : (items.map (replaceBody name body)).filterMap Item.name? = items.filterMap Item.name? := by
    simp [List.filterMap_map]
  refine ⟨?_, by rw [hnames]; exact h.names, ?_, ?_, ?_⟩
  · intro item hitem
    obtain ⟨other, hother, rfl⟩ := List.mem_map.mp hitem
    have hplain := h.plain other hother
    cases other with
    | line text => exact hplain
    | block owner current =>
        simp only [replaceBody]
        split
        · exact hbody
        · exact hplain
  · intro owner text
    rw [List.mem_map]
    constructor
    · intro hset
      by_cases howner : owner = name
      · subst howner
        obtain rfl : body = text := by simpa [setBlock] using hset
        obtain ⟨item, hitem, hitemName⟩ := List.mem_filterMap.mp hname
        cases item with
        | line line => exact absurd hitemName (by simp [Item.name?])
        | block found current =>
            obtain rfl : found = owner := by simpa [Item.name?] using hitemName
            exact ⟨_, hitem, by simp [replaceBody]⟩
      · have hkept : installed owner = some text := by simpa [setBlock, howner] using hset
        exact ⟨_, (h.recorded owner text).mp hkept, by simp [replaceBody, howner]⟩
    · rintro ⟨item, hitem, heq⟩
      cases item with
      | line line => exact absurd heq (by simp [replaceBody])
      | block found current =>
          simp only [replaceBody] at heq
          split at heq
          · rename_i hfound
            simp only [Item.block.injEq] at heq
            simp [setBlock, ← heq.1, ← heq.2, hfound]
          · rename_i hfound
            simp only [Item.block.injEq] at heq
            obtain ⟨rfl, rfl⟩ := heq
            simpa [setBlock, hfound] using (h.recorded found current).mpr hitem
  · obtain ⟨before, text, rfl⟩ := h.ends
    exact ⟨before.map (replaceBody name body), text, by simp [replaceBody]⟩
  · refine h.around.map (fun _ => rfl) ?_
    intro owner current
    simp only [replaceBody]
    split <;> trivial

@[simp] theorem names_line_cons (text : Chars) (items : List Item) :
    (Item.line text :: items).filterMap Item.name? = items.filterMap Item.name? := rfl

theorem Item.plain_line_nil : (Item.line []).Plain := by
  refine ⟨by simp, fun marker name hinfix => ?_⟩
  exact marker.chars_ne_nil name (List.eq_nil_of_infix_nil hinfix)

/-- A new block at a place where it surrounds the text. -/
theorem Layout.addBlock {left right : List Item}
    (h : Layout initial installed (left ++ right)) (hright : right ≠ [])
    (hname : name ∉ (left ++ right).filterMap Item.name?) (hbody : MarkerFree body)
    (haround : Surrounds initial (left ++ .block name body :: right)) :
    Layout initial (setBlock installed name (some body)) (left ++ .block name body :: right) := by
  have hnone : installed name = none := by
    rw [mem_names_iff h, Bool.not_eq_true, Option.isSome_eq_false_iff, Option.isNone_iff_eq_none] at hname
    exact hname
  refine ⟨?_, ?_, ?_, ?_, haround⟩
  · intro item hitem
    rcases List.mem_append.mp hitem with hleft | hrest
    · exact h.plain item (by simp [hleft])
    · rcases List.mem_cons.mp hrest with rfl | hitem
      · exact hbody
      · exact h.plain item (by simp [hitem])
  · have hperm : ((left ++ Item.block name body :: right).filterMap Item.name?).Perm
        (name :: (left ++ right).filterMap Item.name?) :=
      List.Perm.filterMap Item.name? List.perm_middle
    exact hperm.nodup_iff.mpr (List.nodup_cons.mpr ⟨hname, h.names⟩)
  · intro owner text
    by_cases howner : owner = name
    · subst howner
      have hnew : Item.block owner text ∉ left ++ right := by
        intro hmem
        rw [(h.recorded owner text).mpr hmem] at hnone
        exact absurd hnone (by simp)
      rw [List.mem_append, not_or] at hnew
      simp [setBlock, hnew.1, hnew.2, eq_comm]
    · have hold := h.recorded owner text
      simp only [List.mem_append] at hold
      simp [setBlock, howner, hold]
  · obtain ⟨before, text, heq⟩ := h.ends
    rcases List.eq_nil_or_concat right with rfl | ⟨others, last, rfl⟩
    · exact absurd rfl hright
    · simp only [List.concat_eq_append, ← List.append_assoc] at heq
      have hlast := (List.append_inj' heq rfl).2
      exact ⟨left ++ .block name body :: others, text, by simp [hlast]⟩

/-- An empty line at either end changes nothing about the blocks. -/
theorem Layout.addBlank (h : Layout initial installed items) :
    Layout initial installed (.line [] :: items) ∧ Layout initial installed (items ++ [.line []]) := by
  have hloose : ∀ item ∈ [Item.line []], item.Loose := by simp [Item.Loose]
  obtain ⟨before, text, hends⟩ := h.ends
  refine ⟨⟨?_, ?_, ?_, ⟨.line [] :: before, text, by simp [hends]⟩, h.around.prepend hloose⟩,
    ⟨?_, ?_, ?_, ⟨items, [], rfl⟩, h.around.append hloose⟩⟩
  · intro item hitem
    rcases List.mem_cons.mp hitem with rfl | hitem
    · exact Item.plain_line_nil
    · exact h.plain item hitem
  · simpa using h.names
  · intro name body
    simp [h.recorded name body]
  · intro item hitem
    rcases List.mem_append.mp hitem with hitem | hitem
    · exact h.plain item hitem
    · obtain rfl := List.mem_singleton.mp hitem
      exact Item.plain_line_nil
  · simpa using h.names
  · intro name body
    simp [h.recorded name body]

theorem Layout.close (h : Layout initial installed items) : Layout initial installed (closeItems items) := by
  unfold closeItems
  split
  · exact h
  · exact h.addBlank.2

theorem names_closeItems (items : List Item) :
    (closeItems items).filterMap Item.name? = items.filterMap Item.name? := by
  unfold closeItems
  split
  · rfl
  · simp [Item.name?]

/-- An empty file is one empty line. -/
theorem Layout.eq_of_empty (h : Layout initial installed items) (hempty : joinItems items = []) : items = [.line []] := by
  obtain ⟨before, text, rfl⟩ := h.ends
  rw [joinItems_before (by simp), List.append_eq_nil_iff] at hempty
  obtain ⟨hbefore, htext⟩ := hempty
  obtain rfl : text = [] := htext
  cases before with
  | nil => rfl
  | cons item others => exact absurd hbefore (by simp [itemsBefore])

theorem Layout.insert (h : Layout initial installed items) (hname : name ∉ items.filterMap Item.name?)
    (hbody : MarkerFree body) (top : Bool) :
    Layout initial (setBlock installed name (some body)) (insertItems name body top items) := by
  have hblock : ∀ item ∈ [Item.block name body], item.Loose := by simp [Item.Loose]
  have hclosed : name ∉ (closeItems items).filterMap Item.name? := by rwa [names_closeItems]
  have hblank := h.close.addBlank
  unfold insertItems
  by_cases hempty : joinItems items = []
  · obtain rfl := h.eq_of_empty hempty
    simp only [hempty, if_true]
    exact @Layout.addBlock initial installed name body [] [.line []] h (by simp) hname hbody
      (h.around.prepend hblock)
  · simp only [hempty, if_false]
    cases top with
    | true =>
        simp only [if_true]
        refine @Layout.addBlock initial installed name body [] (.line [] :: closeItems items) hblank.1 (by simp)
          ?_ hbody (hblank.1.around.prepend hblock)
        simpa using hclosed
    | false =>
        simp only [Bool.false_eq_true, if_false]
        refine @Layout.addBlock initial installed name body (closeItems items) [.line []] hblank.2 (by simp)
          ?_ hbody (h.close.around.append ?_)
        · simpa using hclosed
        · simp [Item.Loose]

theorem Layout.without (h : Layout initial installed items) (name : Slug) :
    Layout initial (setBlock installed name none) (items.filter (isOtherThan name)) := by
  refine ⟨fun item hitem => h.plain item (List.mem_of_mem_filter hitem), ?_, ?_, ?_, ?_⟩
  · exact List.Nodup.sublist (List.filter_sublist.filterMap _) h.names
  · intro owner body
    rw [List.mem_filter, ← h.recorded owner body]
    by_cases howner : owner = name
    · simp [setBlock, howner, isOtherThan, Item.name?]
    · simp [setBlock, howner, isOtherThan, Item.name?]
  · obtain ⟨before, text, rfl⟩ := h.ends
    exact ⟨before.filter (isOtherThan name), text, by simp [isOtherThan, Item.name?]⟩
  · exact h.around.filter fun text => by simp [isOtherThan, Item.name?]

/-- An empty line at the end can go when a line is left there. -/
theorem Layout.dropLast (h : Layout initial installed (items ++ [.line []])) (hends : ∃ before text, items = before ++ [.line text]) :
    Layout initial installed items := by
  refine ⟨fun item hitem => h.plain item (by simp [hitem]), ?_, ?_, hends, h.around.dropLast⟩
  · simpa using h.names
  · intro name body
    simp [h.recorded name body]

theorem Layout.tail (h : Layout initial installed (.line [] :: items)) (hne : items ≠ []) : Layout initial installed items := by
  refine ⟨fun item hitem => h.plain item (by simp [hitem]), ?_, ?_, ?_, h.around.tail⟩
  · simpa using h.names
  · intro name body
    simp [h.recorded name body]
  · obtain ⟨before, text, heq⟩ := h.ends
    cases before with
    | nil =>
        rw [List.nil_append, List.cons.injEq] at heq
        exact absurd heq.2 hne
    | cons item others =>
        rw [List.cons_append, List.cons.injEq] at heq
        exact ⟨others, text, heq.2⟩

/-! ## The first layout -/

theorem exists_lines (text : Chars) :
    ∃ lines : List Chars, lines ≠ [] ∧ joinItems (lines.map .line) = text ∧ ∀ line ∈ lines, '\n' ∉ line := by
  induction text with
  | nil => exact ⟨[[]], by simp, rfl, by simp⟩
  | cons c rest ih =>
      obtain ⟨lines, hne, htext, hlines⟩ := ih
      by_cases hc : c = '\n'
      · refine ⟨[] :: lines, by simp, ?_, by simpa using hlines⟩
        rw [List.map_cons, joinItems_cons _ (by simpa using hne), htext, hc]
        rfl
      · cases lines with
        | nil => exact absurd rfl hne
        | cons line others =>
            refine ⟨(c :: line) :: others, by simp, ?_, ?_⟩
            · rw [← htext]
              cases others <;> rfl
            · intro other hother
              rcases List.mem_cons.mp hother with rfl | hother
              · have hline := hlines line List.mem_cons_self
                simp [hline, Ne.symm hc]
              · exact hlines other (List.mem_cons_of_mem _ hother)

theorem infix_joinItems_of_mem {item : Item} {items : List Item} (h : item ∈ items) :
    item.chars <:+: joinItems items := by
  obtain ⟨left, right, rfl⟩ := List.append_of_mem h
  rw [joinItems_before (by simp)]
  by_cases hright : right = []
  · subst hright
    exact (List.suffix_append (itemsBefore left) item.chars).isInfix
  · rw [joinItems_cons item hright]
    exact ⟨itemsBefore left, '\n' :: joinItems right, by simp⟩

theorem newlines_of_blank {items : List Item} (h : ∀ item ∈ items, item = .line []) :
    (∀ c ∈ joinItems items, newline c = true) ∧ ∀ c ∈ itemsBefore items, newline c = true := by
  induction items with
  | nil => simp [joinItems, itemsBefore]
  | cons item rest ih =>
      obtain rfl := h item List.mem_cons_self
      obtain ⟨hjoin, hbefore⟩ := ih fun other hother => h other (List.mem_cons_of_mem _ hother)
      constructor
      · by_cases hrest : rest = []
        · subst hrest
          simp [joinItems, Item.chars]
        · rw [joinItems_cons _ hrest]
          intro c hc
          rcases List.mem_cons.mp (show c ∈ '\n' :: joinItems rest from hc) with rfl | hc
          · rfl
          · exact hjoin c hc
      · intro c hc
        rcases List.mem_cons.mp (show c ∈ '\n' :: itemsBefore rest from hc) with rfl | hc
        · rfl
        · exact hbefore c hc

/-- The text between empty lines is what stripping the newlines leaves. -/
theorem strip_joinItems {pre post : List Item} {core : List Chars} (hpre : ∀ item ∈ pre, item = .line [])
    (hpost : ∀ item ∈ post, item = .line []) (hlines : ∀ line ∈ core, '\n' ∉ line)
    (hfirst : ∀ line, core.head? = some line → line ≠ [])
    (hlast : ∀ line, core.getLast? = some line → line ≠ []) :
    Text.strip newline (joinItems (pre ++ core.map .line ++ post)) = joinItems (core.map .line) := by
  have hnewline {line : Chars} {c : Char} (hline : line ∈ core) (hc : c ∈ line) : newline c = false := by
    have hne : c ≠ '\n' := by
      rintro rfl
      exact hlines line hline hc
    simpa [newline] using hne
  cases core with
  | nil =>
      refine (Text.strip_eq_nil_iff _ _).mpr (newlines_of_blank ?_).1
      intro item hitem
      simp only [List.map_nil, List.append_nil, List.mem_append] at hitem
      exact hitem.elim (hpre item) (hpost item)
  | cons first rest =>
      obtain ⟨tail, htail, hall⟩ : ∃ tail, joinItems ((first :: rest).map Item.line ++ post) =
          joinItems ((first :: rest).map .line) ++ tail ∧ ∀ c ∈ tail, newline c = true := by
        by_cases hempty : post = []
        · exact ⟨[], by simp [hempty], by simp⟩
        · refine ⟨'\n' :: joinItems post, joinItems_append (by simp) hempty, ?_⟩
          intro c hc
          rcases List.mem_cons.mp hc with rfl | hc
          · rfl
          · exact (newlines_of_blank hpost).1 c hc
      rw [List.append_assoc, joinItems_before (by simp), htail, ← List.append_assoc]
      refine Text.strip_append_of_all (newlines_of_blank hpre).2 hall ?_ ?_
      · intro c hc
        have hne := hfirst first rfl
        have hhead : (joinItems ((first :: rest).map .line)).head? = first.head? := by
          cases first with
          | nil => exact absurd rfl hne
          | cons d more => cases rest <;> rfl
        rw [hhead] at hc
        exact hnewline List.mem_cons_self (List.mem_of_head? hc)
      · intro c hc
        rcases List.eq_nil_or_concat (first :: rest) with hnil | ⟨others, last, heq⟩
        · exact absurd hnil (by simp)
        · rw [List.concat_eq_append] at heq
          have hne := hlast last (by simp [heq])
          rw [heq, List.map_append, joinItems_before (by simp)] at hc
          have hend : last.getLast? = some c := by
            rw [← hc, List.getLast?_append_of_ne_nil _ (by simpa [joinItems, Item.chars] using hne)]
            rfl
          exact hnewline (by simp [heq]) (List.mem_of_getLast? hend)

/-- A text without markers is a layout without blocks. -/
theorem exists_layout {initial : Chars} (h : MarkerFree initial) :
    ∃ items, joinItems items = initial ∧ Layout initial (fun _ => none) items := by
  obtain ⟨lines, hne, htext, hlines⟩ := exists_lines initial
  have hnames : (lines.map Item.line).filterMap Item.name? = [] := by
    rw [List.filterMap_map, List.filterMap_eq_nil_iff]
    intro line _
    rfl
  refine ⟨lines.map .line, htext, ?_, by rw [hnames]; exact List.nodup_nil, ?_, ?_, ?_⟩
  · intro item hitem
    have hinfix := infix_joinItems_of_mem hitem
    obtain ⟨line, hline, rfl⟩ := List.mem_map.mp hitem
    refine ⟨hlines line hline, fun marker name hmarker => ?_⟩
    exact h marker name (htext ▸ hmarker.trans hinfix)
  · simp
  · rcases List.eq_nil_or_concat lines with rfl | ⟨others, last, rfl⟩
    · exact absurd rfl hne
    · exact ⟨others.map .line, last, by simp⟩
  · obtain ⟨pre, post, hsplit, hpre, hpost, hfirst, hlast⟩ := Text.strip_split List.isEmpty lines
    have hblank {some : List Chars} (hsome : ∀ line ∈ some, line.isEmpty = true) :
        ∀ item ∈ some.map Item.line, item = .line [] := by
      intro item hitem
      obtain ⟨line, hline, rfl⟩ := List.mem_map.mp hitem
      rw [List.isEmpty_iff.mp (hsome line hline)]
    have hitems : lines.map Item.line =
        pre.map .line ++ (Text.strip List.isEmpty lines).map .line ++ post.map .line := by
      rw [← List.map_append, ← List.map_append, ← hsplit]
    have hcore (line : Chars) (hline : line ∈ Text.strip List.isEmpty lines) : line ∈ lines := by
      rw [hsplit]
      simp [hline]
    have hfirst' (line : Chars) (hline : (Text.strip List.isEmpty lines).head? = some line) :
        line ≠ [] := by simpa using hfirst line hline
    have hlast' (line : Chars) (hline : (Text.strip List.isEmpty lines).getLast? = some line) :
        line ≠ [] := by simpa using hlast line hline
    refine ⟨pre.map .line, Text.strip List.isEmpty lines, post.map .line, hitems, ?_, ?_, ?_, hfirst', hlast'⟩
    · intro item hitem
      rw [hblank hpre item hitem]
      rfl
    · intro item hitem
      rw [hblank hpost item hitem]
      rfl
    · rw [← htext, hitems]
      exact strip_joinItems (hblank hpre) (hblank hpost) (fun line hline => hlines line (hcore line hline))
        hfirst' hlast'

/-! ## Deleting blocks -/

/-- The text without the block of an artifact; nothing outside the markers is touched. -/
def deleteBlock (text : Chars) (name : Slug) : Chars :=
  match Text.partition? (Marker.first.chars name) text with
  | none => text
  | some (before, after) =>
      match Text.partition? (Marker.last.chars name) (Marker.first.chars name ++ after) with
      | none => text
      | some (_, tail) => before ++ tail

def deleteBlocks (text : Chars) (names : List Slug) : Chars := names.foldl deleteBlock text

def eraseBlock (name : Slug) (item : Item) : Item :=
  if item.name? = some name then .line [] else item

theorem map_eraseBlock {items : List Item} (h : name ∉ items.filterMap Item.name?) :
    items.map (eraseBlock name) = items := by
  conv_rhs => rw [← List.map_id items]
  refine List.map_congr_left fun item hitem => ?_
  have hne : item.name? ≠ some name := fun heq => h (List.mem_filterMap.mpr ⟨item, hitem, heq⟩)
  simp [eraseBlock, hne]

/-- A deleted block leaves an empty line. -/
theorem Layout.delete (h : Layout initial installed items) (hname : (installed name).isSome = true) :
    ∃ rest, deleteBlock (joinItems items) name = joinItems rest ∧
      Layout initial (setBlock installed name none) rest := by
  obtain ⟨left, body, right, rfl, hright, hleftName, hrightName, hbody, hleft⟩ :=
    h.split ((mem_names_iff h name).mpr hname)
  have hwithout := h.without name
  have hfilter : (left ++ Item.block name body :: right).filter (isOtherThan name) = left ++ right := by
    rw [List.filter_append, List.filter_cons, filter_isOtherThan hleftName, filter_isOtherThan hrightName]
    simp [isOtherThan, Item.name?]
  rw [hfilter] at hwithout
  have haround := h.around.map (fun text => rfl)
    (fun owner current => by simp only [eraseBlock]; split <;> trivial : ∀ owner current,
      (eraseBlock name (.block owner current)).Loose)
  rw [List.map_append, List.map_cons, map_eraseBlock hleftName, map_eraseBlock hrightName] at haround
  have herased : eraseBlock name (.block name body) = .line [] := by simp [eraseBlock, Item.name?]
  rw [herased] at haround
  refine ⟨left ++ .line [] :: right, ?_, ?_, ?_, ?_, ?_, haround⟩
  · have hbegin := @partition?_begin name body left right hright hleft hleftName
    have hend := @partition?_end name (Text.stripRight newline body) (joinItems right) (hbody.stripRight .last name)
    simp only [deleteBlock, hbegin, hend]
    rw [joinItems_before (by simp), joinItems_cons _ hright]
    rfl
  · intro item hitem
    rcases List.mem_append.mp hitem with hitem | hitem
    · exact hleft item hitem
    · rcases List.mem_cons.mp hitem with rfl | hitem
      · exact Item.plain_line_nil
      · exact h.plain item (by simp [hitem])
  · simpa using hwithout.names
  · intro owner text
    rw [hwithout.recorded owner text]
    simp
  · obtain ⟨before, text, heq⟩ := h.ends
    rcases List.eq_nil_or_concat right with rfl | ⟨others, last, rfl⟩
    · exact absurd rfl hright
    · simp only [List.concat_eq_append, ← List.cons_append, ← List.append_assoc] at heq ⊢
      exact ⟨left ++ .line [] :: others, text, by rw [(List.append_inj' heq rfl).2]⟩

/-- Without blocks the file is the initial text between newlines. -/
theorem Layout.strip_eq (h : Layout initial installed items) (hnone : ∀ name, installed name = none) :
    Text.strip newline (joinItems items) = Text.strip newline initial := by
  obtain ⟨pre, core, post, rfl, hpre, hpost, hcore⟩ := h.around
  have hblank {some : List Item} (hsome : ∀ item ∈ some, item.Loose)
      (hmem : ∀ item ∈ some, item ∈ pre ++ core.map Item.line ++ post) : ∀ item ∈ some, item = .line [] := by
    intro item hitem
    cases item with
    | line text => rw [show text = [] from hsome _ hitem]
    | block name body =>
        have hinstalled := (h.recorded name body).mpr (hmem _ hitem)
        rw [hnone name] at hinstalled
        exact absurd hinstalled (by simp)
  rw [hcore.text]
  refine strip_joinItems (hblank hpre ?_) (hblank hpost ?_) ?_ hcore.first hcore.last
  · intro item hitem
    simp [hitem]
  · intro item hitem
    simp [hitem]
  · intro line hline
    exact (h.plain (.line line) (by simp [hline])).1

theorem Layout.deleteAll (h : Layout initial installed items) {names : List Slug} (hnames : names.Nodup)
    (hall : ∀ name, name ∈ names ↔ (installed name).isSome = true) :
    Text.strip newline (deleteBlocks (joinItems items) names) = Text.strip newline initial := by
  induction names generalizing installed items with
  | nil =>
      refine h.strip_eq fun name => ?_
      have hnot : ¬ (installed name).isSome = true := fun hsome => absurd ((hall name).mpr hsome) (by simp)
      simpa using hnot
  | cons name others ih =>
      obtain ⟨hfresh, hothers⟩ := List.nodup_cons.mp hnames
      obtain ⟨rest, hdelete, hrest⟩ := h.delete ((hall name).mp List.mem_cons_self)
      rw [deleteBlocks, List.foldl_cons, hdelete]
      refine ih hrest hothers fun other => ?_
      by_cases hother : other = name
      · subst hother
        simp [setBlock, hfresh]
      · have hmem := hall other
        simp only [List.mem_cons, hother, false_or] at hmem
        simpa [setBlock, hother] using hmem

/-! ## Runs -/

/-- What is done to the blocks of a file. -/
inductive BlockOp where
  | install (name : Slug) (body : String) (top : Bool)
  | strip (name : Slug)

def BlockOp.run (text : String) : BlockOp → Option String
  | .install name body top => some (memoryBlock (some text) name.value body top)
  | .strip name => (stripManagedBlock name.value (encodeUtf8 text)).bind decodeUtf8

/-- The bodies of the blocks that are installed. -/
def BlockOp.record (installed : Slug → Option Chars) : BlockOp → Slug → Option Chars
  | .install name body _ => setBlock installed name (some body.toList)
  | .strip name => setBlock installed name none

def BlockOp.MarkerFree : BlockOp → Prop
  | .install _ body _ => AgentArtifacts.MarkerFree body.toList
  | .strip _ => True

def runBlocks (text : String) (ops : List BlockOp) : Option String := ops.foldlM BlockOp.run text

def installedBlocks (ops : List BlockOp) : Slug → Option Chars := ops.foldl BlockOp.record fun _ => none

theorem BlockOp.run_layout (h : Layout initial installed items) {op : BlockOp} (hop : op.MarkerFree) :
    ∃ rest, op.run (String.ofList (joinItems items)) = some (String.ofList (joinItems rest)) ∧
      Layout initial (op.record installed) rest := by
  cases op with
  | install name body top =>
      simp only [BlockOp.run, memoryBlock, Option.getD_some, String.toList_ofList]
      by_cases hname : name ∈ items.filterMap Item.name?
      · exact ⟨_, by rw [memoryBlockChars_present h hname], h.replace hname hop⟩
      · exact ⟨_, by rw [memoryBlockChars_absent h hname], h.insert hname hop top⟩
  | strip name =>
      simp only [BlockOp.run, stripManagedBlock, decodeUtf8_encodeUtf8, Option.bind_eq_bind,
        Option.bind_some, String.toList_ofList]
      by_cases hname : name ∈ items.filterMap Item.name?
      · obtain ⟨trimmed, rest, hstrip, htrimmed, hends, hrest⟩ := stripManagedBlockChars_present h hname
        have hfiltered := h.without name
        have hlayout : Layout initial (setBlock installed name none) trimmed := by
          rcases htrimmed with rfl | heq
          · exact hfiltered
          · rw [heq] at hfiltered
            exact hfiltered.dropLast hends
        refine ⟨rest, by simp [hstrip], ?_⟩
        rcases hrest with rfl | ⟨heq, hne⟩
        · exact hlayout
        · rw [heq] at hlayout
          exact hlayout.tail hne
      · refine ⟨items, by simp [stripManagedBlockChars_absent h hname], ?_⟩
        have hfiltered := h.without name
        rwa [filter_isOtherThan hname] at hfiltered

theorem foldlM_run_layout {initial : Chars} {ops : List BlockOp} (hops : ∀ op ∈ ops, op.MarkerFree)
    {installed : Slug → Option Chars} {items : List Item} (h : Layout initial installed items) :
    ∃ rest, ops.foldlM BlockOp.run (String.ofList (joinItems items)) = some (String.ofList (joinItems rest)) ∧
      Layout initial (ops.foldl BlockOp.record installed) rest := by
  induction ops generalizing installed items with
  | nil => exact ⟨items, rfl, h⟩
  | cons op others ih =>
      obtain ⟨next, hrun, hnext⟩ := BlockOp.run_layout h (hops op List.mem_cons_self)
      obtain ⟨rest, hrest, hlayout⟩ := ih (fun other hother => hops other (List.mem_cons_of_mem _ hother)) hnext
      refine ⟨rest, ?_, hlayout⟩
      rw [List.foldlM_cons, hrun]
      exact hrest

/-- The status of a block in a layout. -/
theorem Layout.managedBlockStatus (h : Layout initial installed items) (name : Slug) (executable : Bool) :
    managedBlockStatus name.value (.file (encodeUtf8 (String.ofList (joinItems items))) executable) =
      if (installed name).isSome then .current else .missing := by
  simp only [AgentArtifacts.managedBlockStatus, decodeUtf8_encodeUtf8, String.toList_ofList]
  by_cases hname : (installed name).isSome = true
  · have hmem := (mem_names_iff h name).mpr hname
    have hcount (marker : Marker) : Text.count (marker.chars name) (joinItems items) = 1 := by
      rw [count_joinItems marker name h.plain]
      exact List.count_eq_one_of_mem h.names hmem
    have hfirst := hcount .first
    have hlast := hcount .last
    obtain ⟨left, body, right, rfl, hright, hleftName, _, hbody, hleft⟩ := h.split hmem
    have hbegin := @partition?_begin name body left right hright hleft hleftName
    have hend : Text.partition? (Marker.last.chars name)
        (joinItems (left ++ .block name body :: right)) =
        some (itemsBefore left ++ (Marker.first.chars name ++ '\n' :: (Text.stripRight newline body ++ ['\n'])),
          '\n' :: joinItems right) := by
      have hsearch := @partition?_end name (Text.stripRight newline body) (joinItems right) (hbody.stripRight .last name)
      rw [joinItems_before (by simp), joinItems_cons _ hright, Item.chars, blockChars_eq,
        partition?_itemsBefore hleft hleftName]
      simp only [List.append_assoc, List.cons_append] at hsearch ⊢
      rw [hsearch]
      simp
    simp only [Marker.chars] at hbegin hend hfirst hlast
    simp [hbegin, hend, hfirst, hlast, hname]
  · have hmem : name ∉ items.filterMap Item.name? := fun hmem => hname ((mem_names_iff h name).mp hmem)
    have hnone (marker : Marker) : Text.partition? (marker.chars name) (joinItems items) = none :=
      Text.partition?_eq_none_iff.mpr fun hinfix => hmem ((infix_joinItems h.plain).mp hinfix)
    have hfirst := hnone .first
    have hlast := hnone .last
    simp only [Marker.chars] at hfirst hlast
    simp [hfirst, hlast, hname]

/-- However blocks of several artifacts are installed and stripped in one file, each
installed one stands there once with its last body, the status tells the installed
ones from the others, and between the blocks lies the initial text. -/
theorem managed_blocks_do_not_interfere (initial : String) (hinitial : MarkerFree initial.toList)
    (ops : List BlockOp) (hops : ∀ op ∈ ops, op.MarkerFree) :
    ∃ text, runBlocks initial ops = some text ∧
      (∀ name body, installedBlocks ops name = some body →
        Text.count (beginMarker name.value).toList text.toList = 1 ∧
        Text.count (endMarker name.value).toList text.toList = 1 ∧
        ∃ left right, text.toList = left ++ ((beginMarker name.value).toList ++ ['\n'] ++
          Text.stripRight newline body ++ ['\n'] ++ (endMarker name.value).toList) ++ right) ∧
      (∀ name executable, managedBlockStatus name.value (.file (encodeUtf8 text) executable) =
        if (installedBlocks ops name).isSome then .current else .missing) ∧
      ∀ names : List Slug, names.Nodup → (∀ name, name ∈ names ↔ (installedBlocks ops name).isSome) →
        Text.strip newline (deleteBlocks text.toList names) = Text.strip newline initial.toList := by
  obtain ⟨first, hfirst, hlayout⟩ := exists_layout hinitial
  obtain ⟨items, hrun, h⟩ := foldlM_run_layout hops hlayout
  rw [hfirst, String.ofList_toList] at hrun
  refine ⟨_, hrun, ?_, fun name executable => h.managedBlockStatus name executable, ?_⟩
  · intro name body hbody
    have hmem := (mem_names_iff h name).mpr (by rw [show ops.foldl BlockOp.record _ name = _ from hbody]; rfl)
    have hcount (marker : Marker) : Text.count (marker.chars name) (joinItems items) = 1 := by
      rw [count_joinItems marker name h.plain]
      exact List.count_eq_one_of_mem h.names hmem
    have hinfix := infix_joinItems_of_mem ((h.recorded name body).mp hbody)
    obtain ⟨left, right, heq⟩ := hinfix
    rw [String.toList_ofList]
    exact ⟨hcount .first, hcount .last, left, right, heq.symm⟩
  · intro names hnodup hall
    rw [String.toList_ofList]
    exact h.deleteAll hnodup hall

variable {text : Chars}

theorem markerFree_of_not_mem (h : '!' ∉ text) : MarkerFree text := by
  intro marker name hpart
  obtain ⟨rest, hchars, _⟩ := marker.chars_shape name
  exact h (hpart.subset (by simp [hchars]))

theorem managed_blocks_do_not_interfere_two_artifacts :
    ∃ text, runBlocks "keep" [.install ⟨"tidy", by decide⟩ "one" true, .install ⟨"lint", by decide⟩ "two" false,
        .strip ⟨"tidy", by decide⟩] = some text ∧
      managedBlockStatus "lint" (.file (encodeUtf8 text) false) = .current ∧
      managedBlockStatus "tidy" (.file (encodeUtf8 text) false) = .missing := by
  obtain ⟨text, hrun, _, hstatus, _⟩ := managed_blocks_do_not_interfere "keep"
    (markerFree_of_not_mem (by decide))
    [.install ⟨"tidy", by decide⟩ "one" true, .install ⟨"lint", by decide⟩ "two" false,
      .strip ⟨"tidy", by decide⟩]
    (by
      intro op hop
      simp only [List.mem_cons, List.not_mem_nil, or_false] at hop
      rcases hop with rfl | rfl | rfl
      · exact markerFree_of_not_mem (by decide)
      · exact markerFree_of_not_mem (by decide)
      · trivial)
  refine ⟨text, hrun, (hstatus ⟨"lint", by decide⟩ false).trans ?_,
    (hstatus ⟨"tidy", by decide⟩ false).trans ?_⟩
  · simp [installedBlocks, BlockOp.record, setBlock]
  · simp [installedBlocks, BlockOp.record, setBlock]

/-! ## Installing a block and stripping it -/

/-- A block with the newline behind it and the rest of the file. -/
def framed (name : Slug) (inner rest : Chars) : Chars :=
  Marker.first.chars name ++ '\n' :: (inner ++ '\n' :: (Marker.last.chars name ++ '\n' :: rest))

theorem memoryBlockChars_first (body : Chars)
    (hbegin : ¬ Marker.first.chars name <:+: text) (hend : text.getLast? = some '\n') (top : Bool) :
    memoryBlockChars text name.value body top =
      if top then framed name (Text.stripRight newline body) ('\n' :: text)
      else text ++ '\n' :: framed name (Text.stripRight newline body) [] := by
  have hnone := Text.partition?_eq_none_iff.mpr hbegin
  have hne : text ≠ [] := by
    rintro rfl
    exact absurd hend (by simp)
  simp only [Marker.chars] at hnone
  unfold memoryBlockChars
  simp only [hnone, hne, if_false, withFinalNewline, hend, if_true, blockChars_eq]
  cases top <;> simp [framed]

theorem count_framed (marker : Marker) (name : Slug) (inner rest : Chars) :
    Text.count (marker.chars name) (framed name inner rest) =
      1 + Text.count (marker.chars name) inner + Text.count (marker.chars name) rest := by
  have hne := marker.chars_ne_nil name
  have hline := marker.newline_not_mem name
  rw [framed, Text.count_append_sep hne hline, Text.count_append_sep hne hline,
    Text.count_append_sep hne hline, count_marker, count_marker]
  cases marker <;> simp <;> omega

/-- A body with a marker of its own makes the block unrecognisable. -/
theorem stripManagedBlockChars_eq_none {marker : Marker}
    (h : 1 < Text.count (marker.chars name) text) : stripManagedBlockChars name.value text = none := by
  have hinfix : marker.chars name <:+: text := by
    by_contra hnot
    rw [Text.count_eq_zero hnot] at h
    exact absurd h (by simp)
  have hcontains : Text.contains (marker.chars name) text = true := Text.partition?_isSome_of_infix hinfix
  have hcount : Text.count (marker.chars name) text ≠ 1 := by omega
  cases marker with
  | first =>
      simp only [Marker.chars] at hcontains hcount
      simp [stripManagedBlockChars, hcontains, hcount]
  | last =>
      simp only [Marker.chars] at hcontains hcount
      simp [stripManagedBlockChars, hcontains, hcount]

/-- The ends of a file after its block was cut out. -/
def trimEnds (text : Chars) : Chars :=
  dropNewline (if ['\n', '\n'] <:+ text then text.dropLast else text)

theorem stripManagedBlockChars_framed {text before inner rest : Chars}
    (hbegin : Text.partition? (Marker.first.chars name) text =
      some (before, '\n' :: (inner ++ '\n' :: (Marker.last.chars name ++ '\n' :: rest))))
    (hinner : ¬ Marker.last.chars name <:+: inner)
    (hcount : ∀ marker : Marker, Text.count (marker.chars name) text = 1) :
    stripManagedBlockChars name.value text = some (trimEnds (before ++ rest)) := by
  have hcontains : Text.contains (Marker.first.chars name) text = true := by simp [Text.contains, hbegin]
  have hend := @partition?_end name inner rest hinner
  have hfirst := hcount .first
  have hlast := hcount .last
  simp only [Marker.chars] at hbegin hend hcontains hfirst hlast
  simp only [stripManagedBlockChars, hcontains, hfirst, hlast, hbegin, hend, dropNewline, Bool.not_true,
    Bool.false_and, Bool.false_eq_true, if_false, ne_eq, not_true_eq_false, or_self, trimEnds]

theorem infix_stripRight {marker : Marker} :
    marker.chars name <:+: Text.stripRight newline body ↔ marker.chars name <:+: body := by
  obtain ⟨tail, hbody, hlines⟩ := Text.stripRight_append_stripped newline body
  constructor
  · intro h
    rw [hbody]
    exact h.trans (List.prefix_append _ tail).isInfix
  · intro h
    rw [hbody] at h
    cases tail with
    | nil => simpa using h
    | cons c others =>
        obtain rfl : c = '\n' := by simpa [newline] using hlines c List.mem_cons_self
        rcases (Text.infix_append_sep (marker.chars_ne_nil name) (marker.newline_not_mem name) _ _).mp h
          with hinner | htail
        · exact hinner
        · obtain ⟨rest, hchars, _⟩ := marker.chars_shape name
          have hmem : '<' ∈ others := htail.subset (by simp [hchars])
          exact absurd (hlines '<' (List.mem_cons_of_mem _ hmem)) (by decide)

/-- On top of the file the blank line behind the block is taken back, and one more
if the text ends with a blank line. -/
theorem trimEnds_top (hend : text.getLast? = some '\n') :
    trimEnds ('\n' :: text) = text ↔ ¬ ['\n', '\n'] <:+ '\n' :: text := by
  have hne : text ≠ [] := by
    rintro rfl
    exact absurd hend (by simp)
  unfold trimEnds
  constructor
  · intro h hsuffix
    rw [if_pos hsuffix, List.dropLast_cons_of_ne_nil hne] at h
    have hlength := congrArg List.length h
    have hpos := List.length_pos_of_ne_nil hne
    simp only [dropNewline, List.length_dropLast] at hlength
    omega
  · intro h
    rw [if_neg h]
    rfl

/-- At the end of the file the blank line before the block is taken back, and the
first newline of the file with it. -/
theorem trimEnds_bottom (hend : text.getLast? = some '\n') :
    trimEnds (text ++ ['\n']) = text ↔ ¬ ['\n'] <+: text := by
  have hsuffix : ['\n', '\n'] <:+ text ++ ['\n'] := by
    obtain ⟨init, rfl⟩ := List.getLast?_eq_some_iff.mp hend
    exact ⟨init, by simp⟩
  rw [trimEnds, if_pos hsuffix, List.dropLast_concat]
  cases text with
  | nil => exact absurd hend (by simp)
  | cons c rest =>
      by_cases hc : c = '\n'
      · subst hc
        simp [dropNewline]
      · have hkept : dropNewline (c :: rest) = c :: rest := by
          unfold dropNewline
          split
          · rename_i heq
            simp only [List.cons.injEq] at heq
            exact absurd heq.1 hc
          · rfl
        simp [hkept, Ne.symm hc]

theorem stripManagedBlockChars_memoryBlockChars (body : Chars) (top : Bool)
    (hend : text.getLast? = some '\n') (hmarker : ∀ marker : Marker, ¬ marker.chars name <:+: text)
    (hbody : ∀ marker : Marker, ¬ marker.chars name <:+: body) :
    stripManagedBlockChars name.value (memoryBlockChars text name.value body top) =
      some (trimEnds (if top then '\n' :: text else text ++ ['\n'])) := by
  have hinner (marker : Marker) : ¬ marker.chars name <:+: Text.stripRight newline body :=
    fun h => hbody marker (infix_stripRight.mp h)
  have hne := Marker.first.chars_ne_nil name
  have hline := Marker.first.newline_not_mem name
  rw [memoryBlockChars_first body (hmarker .first) hend]
  cases top with
  | true =>
      simp only [if_true]
      refine @stripManagedBlockChars_framed name _ [] _ _ ?_ (hinner .last) ?_
      · rw [framed, Text.partition?_append_sep hne hline, Text.partition?_self]
        rfl
      · intro marker
        have htext := Text.count_append_sep (marker.chars_ne_nil name) (marker.newline_not_mem name) [] text
        rw [List.nil_append] at htext
        rw [count_framed, htext, Text.count_eq_zero (hinner marker), Text.count_eq_zero (hmarker marker)]
        rfl
  | false =>
      simp only [Bool.false_eq_true, if_false]
      have hresult := @stripManagedBlockChars_framed name
        (text ++ '\n' :: framed name (Text.stripRight newline body) []) (text ++ ['\n'])
        (Text.stripRight newline body) [] ?_ (hinner .last) ?_
      · simpa using hresult
      · rw [Text.partition?_append_sep hne hline, Text.partition?_eq_none_iff.mpr (hmarker .first), framed,
          Text.partition?_append_sep hne hline, Text.partition?_self]
        simp
      · intro marker
        rw [Text.count_append_sep (marker.chars_ne_nil name) (marker.newline_not_mem name), count_framed,
          Text.count_eq_zero (hinner marker), Text.count_eq_zero (hmarker marker)]
        rfl

/-- A body with a marker of the artifact cannot be stripped again. -/
theorem stripManagedBlockChars_of_marked {text body : Chars} {marker : Marker} (top : Bool)
    (hend : text.getLast? = some '\n') (hmarker : ¬ Marker.first.chars name <:+: text)
    (hbody : marker.chars name <:+: body) :
    stripManagedBlockChars name.value (memoryBlockChars text name.value body top) = none := by
  have hinner := Text.count_pos (marker.chars_ne_nil name) (infix_stripRight.mpr hbody)
  refine @stripManagedBlockChars_eq_none name _ marker ?_
  rw [memoryBlockChars_first body hmarker hend]
  cases top with
  | true =>
      simp only [if_true]
      rw [count_framed]
      omega
  | false =>
      simp only [Bool.false_eq_true, if_false]
      rw [Text.count_append_sep (marker.chars_ne_nil name) (marker.newline_not_mem name), count_framed]
      omega

theorem pyIn_eq_false_iff {needle text : String} :
    pyIn needle text = false ↔ ¬ needle.toList <:+: text.toList := by
  rw [← Text.partition?_eq_none_iff, pyIn, Text.contains, Option.isSome_eq_false_iff,
    Option.isNone_iff_eq_none]

/-- Stripping the block of a body restores the file exactly when the body holds no
marker of the artifact and the text has no blank line where the strip trims. -/
theorem stripManagedBlock_memoryBlock_iff (name : Slug) (text body : String) (top : Bool)
    (hend : endsWith "\n" text = true) (hfirst : pyIn (beginMarker name.value) text = false)
    (hlast : pyIn (endMarker name.value) text = false) :
    stripManagedBlock name.value (encodeUtf8 (memoryBlock (some text) name.value body top)) =
        some (encodeUtf8 text) ↔
      pyIn (beginMarker name.value) body = false ∧ pyIn (endMarker name.value) body = false ∧
        (top = true → endsWith "\n\n" ("\n" ++ text) = false) ∧
        (top = false → startsWith "\n" text = false) := by
  have hnewline : text.toList.getLast? = some '\n' := by
    obtain ⟨init, heq⟩ := List.isSuffixOf_iff_suffix.mp hend
    rw [← heq]
    exact List.getLast?_concat
  have hmarker (marker : Marker) : ¬ marker.chars name <:+: text.toList := by
    cases marker with
    | first => exact pyIn_eq_false_iff.mp hfirst
    | last => exact pyIn_eq_false_iff.mp hlast
  have htop : endsWith "\n\n" ("\n" ++ text) = false ↔ ¬ ['\n', '\n'] <:+ '\n' :: text.toList := by
    rw [← Bool.not_eq_true, endsWith, List.isSuffixOf_iff_suffix, String.toList_append]
    rfl
  have hbottom : startsWith "\n" text = false ↔ ¬ ['\n'] <+: text.toList := by
    rw [← Bool.not_eq_true, startsWith, List.isPrefixOf_iff_prefix]
    rfl
  have hstrip (chars : Option Chars) : ((chars.bind fun chars => some (encodeUtf8 (String.ofList chars))) =
      some (encodeUtf8 text)) ↔ chars = some text.toList := by
    cases chars with
    | none => simp
    | some chars =>
        simp only [Option.bind_some, Option.some.injEq]
        constructor
        · intro h
          rw [← encodeUtf8_injective h, String.toList_ofList]
        · rintro rfl
          rw [String.ofList_toList]
  simp only [stripManagedBlock, memoryBlock, decodeUtf8_encodeUtf8, Option.bind_eq_bind, Option.bind_some,
    Option.getD_some, String.toList_ofList, Option.pure_def]
  rw [hstrip]
  by_cases hbody : ∀ marker : Marker, ¬ marker.chars name <:+: body.toList
  · have hbegin := pyIn_eq_false_iff.mpr (hbody .first)
    have hclose := pyIn_eq_false_iff.mpr (hbody .last)
    rw [stripManagedBlockChars_memoryBlockChars body.toList top hnewline hmarker hbody, Option.some.injEq]
    cases top with
    | true => simp [hbegin, hclose, htop, trimEnds_top hnewline]
    | false => simp [hbegin, hclose, hbottom, trimEnds_bottom hnewline]
  · have hmarked : ∃ marker : Marker, marker.chars name <:+: body.toList := by
      by_contra hnone
      exact hbody fun marker hinfix => hnone ⟨marker, hinfix⟩
    obtain ⟨marker, hinfix⟩ := hmarked
    rw [stripManagedBlockChars_of_marked top hnewline (hmarker .first) hinfix]
    refine iff_of_false (by simp) ?_
    rintro ⟨hbegin, hclose, _⟩
    cases marker with
    | first => exact pyIn_eq_false_iff.mp hbegin hinfix
    | last => exact pyIn_eq_false_iff.mp hclose hinfix

theorem stripManagedBlock_memoryBlock_appended :
    stripManagedBlock "n" (encodeUtf8 (memoryBlock (some "a\n") "n" "b" false)) = some (encodeUtf8 "a\n") :=
  (stripManagedBlock_memoryBlock_iff ⟨"n", by decide⟩ "a\n" "b" false (by decide) (by decide) (by decide)).mpr
    ⟨by decide, by decide, by decide, by decide⟩

/-- A blank line at the end of the file loses its newline with a prepended block. -/
theorem stripManagedBlock_loses_blank_line :
    endsWith "\n" "a\n\n" = true ∧ pyIn (beginMarker "n") "a\n\n" = false ∧
      pyIn (endMarker "n") "a\n\n" = false ∧
      stripManagedBlock "n" (encodeUtf8 (memoryBlock (some "a\n\n") "n" "b" true)) =
        some (encodeUtf8 "a\n") ∧ encodeUtf8 "a\n" ≠ encodeUtf8 "a\n\n" := by
  refine ⟨by decide, by decide, by decide, ?_, fun h => absurd (encodeUtf8_injective h) (by decide)⟩
  decide +kernel

end AgentArtifacts
