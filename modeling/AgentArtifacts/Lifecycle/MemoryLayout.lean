import AgentArtifacts.Installation.MemoryBlock

/-!
# Layout of a file with managed blocks

Markers stand on lines of their own and none of them occurs inside another, so a
file with managed blocks is a sequence of plain lines and whole blocks, joined by
newlines. The text the file had before the first block lies between loose items:
blocks and empty lines.
-/

namespace AgentArtifacts

/-! ## Markers -/

inductive Marker where
  | first
  | last
deriving DecidableEq

def Marker.chars (marker : Marker) (name : Slug) : Chars :=
  match marker with
  | .first => (beginMarker name.value).toList
  | .last => (endMarker name.value).toList

def Marker.opening : Marker → Chars
  | .first => "<!-- >>> agent-artifacts memory:".toList
  | .last => "<!-- <<< agent-artifacts memory:".toList

def Marker.closing : Marker → Chars
  | .first => " >>> -->".toList
  | .last => " <<< -->".toList

theorem Marker.chars_eq (marker : Marker) (name : Slug) :
    marker.chars name = marker.opening ++ (name.value.toList ++ marker.closing) := by
  cases marker with
  | first =>
      unfold Marker.chars beginMarker
      simp only [String.toList_append, List.append_assoc]
      rfl
  | last =>
      unfold Marker.chars endMarker
      simp only [String.toList_append, List.append_assoc]
      rfl

theorem Marker.opening_eq (marker : Marker) :
    ∃ rest, marker.opening = '<' :: '!' :: rest ∧ '!' ∉ rest ∧ '\n' ∉ rest := by
  cases marker with
  | first => exact ⟨"-- >>> agent-artifacts memory:".toList, by decide, by decide, by decide⟩
  | last => exact ⟨"-- <<< agent-artifacts memory:".toList, by decide, by decide, by decide⟩

theorem Marker.closing_eq (marker : Marker) :
    ∃ rest, marker.closing = ' ' :: rest ∧ '!' ∉ rest ∧ '\n' ∉ rest := by
  cases marker with
  | first => exact ⟨">>> -->".toList, by decide, by decide, by decide⟩
  | last => exact ⟨"<<< -->".toList, by decide, by decide, by decide⟩

/-- The exclamation mark of a marker is its second character and occurs nowhere else in it. -/
theorem Marker.chars_shape (marker : Marker) (name : Slug) :
    ∃ rest, marker.chars name = '<' :: '!' :: rest ∧ '!' ∉ rest ∧ '\n' ∉ rest := by
  obtain ⟨opening, hopening, hmark, hline⟩ := marker.opening_eq
  obtain ⟨closing, hclosing, hmark', hline'⟩ := marker.closing_eq
  refine ⟨opening ++ (name.value.toList ++ marker.closing), ?_, ?_, ?_⟩
  · rw [marker.chars_eq, hopening]
    rfl
  · have hname := name.not_mem (c := '!') (by decide) (by decide)
    simp [hclosing, hmark, hmark', hname]
  · have hname := name.not_mem (c := '\n') (by decide) (by decide)
    simp [hclosing, hline, hline', hname]

theorem Marker.chars_ne_nil (marker : Marker) (name : Slug) : marker.chars name ≠ [] := by
  obtain ⟨rest, hchars, _⟩ := marker.chars_shape name
  simp [hchars]

theorem Marker.newline_not_mem (marker : Marker) (name : Slug) : '\n' ∉ marker.chars name := by
  obtain ⟨rest, hchars, _, hline⟩ := marker.chars_shape name
  simp [hchars, hline]

/-- A marker inside a marker starts where it starts. -/
theorem Marker.isPrefix_of_infix {a b : Marker} {m n : Slug} (h : a.chars m <:+: b.chars n) :
    a.chars m <+: b.chars n := by
  obtain ⟨rest, ha, _⟩ := a.chars_shape m
  obtain ⟨rest', hb, hmark, _⟩ := b.chars_shape n
  obtain ⟨left, right, heq⟩ := h
  rw [ha, hb] at heq
  cases left with
  | nil => exact ⟨right, by rw [ha, hb]; simpa using heq⟩
  | cons c more =>
      exfalso
      simp only [List.cons_append, List.append_assoc, List.cons.injEq] at heq
      cases more with
      | nil => exact absurd heq.2 (by simp)
      | cons d others =>
          simp only [List.cons_append, List.cons.injEq] at heq
          exact hmark (by rw [← heq.2.2]; simp)

/-- No marker occurs inside another one. -/
theorem Marker.infix_iff {a b : Marker} {m n : Slug} :
    a.chars m <:+: b.chars n ↔ a = b ∧ m = n := by
  constructor
  · intro h
    obtain ⟨tail, htail⟩ := Marker.isPrefix_of_infix h
    rw [a.chars_eq, b.chars_eq, List.append_assoc] at htail
    have hlength : a.opening.length = b.opening.length := by
      cases a <;> cases b <;> decide
    obtain ⟨hopening, hrest⟩ := List.append_inj htail hlength
    obtain rfl : a = b := by
      cases a <;> cases b <;> first | rfl | exact absurd hopening (by decide)
    obtain ⟨closing, hclosing, _⟩ := a.closing_eq
    rw [hclosing, List.append_assoc, List.cons_append] at hrest
    have hname := (Text.append_sep_inj (m.not_mem (by decide) (by decide))
      (n.not_mem (by decide) (by decide)) hrest).1
    refine ⟨rfl, ?_⟩
    cases m
    cases n
    simpa [String.toList_inj] using hname
  · rintro ⟨rfl, rfl⟩
    exact List.infix_refl _

theorem Marker.getLast?_chars (marker : Marker) (name : Slug) : (marker.chars name).getLast? = some '>' := by
  have hclosing : marker.closing.getLast? = some '>' := by
    cases marker <;> decide
  have hne : marker.closing ≠ [] := by
    cases marker <;> decide
  rw [marker.chars_eq, ← List.append_assoc, List.getLast?_append_of_ne_nil _ hne, hclosing]

/-- No marker starts inside another one. -/
theorem Marker.no_overlap {a b : Marker} {m n : Slug} {shift x y : Chars} (hshift : shift ≠ [])
    (hlength : shift.length < (a.chars m).length) : a.chars m ++ x ≠ shift ++ (b.chars n ++ y) := by
  intro heq
  obtain ⟨rest, ha, hmark, _⟩ := a.chars_shape m
  obtain ⟨rest', hb, _⟩ := b.chars_shape n
  rcases List.append_eq_append_iff.mp heq with ⟨more, hmore, _⟩ | ⟨inside, hinside, hrest⟩
  · have hle := congrArg List.length hmore
    rw [List.length_append] at hle
    omega
  · rw [hb, List.cons_append, List.cons_append] at hrest
    match inside with
    | [] =>
        rw [List.append_nil] at hinside
        exact absurd (congrArg List.length hinside) (by omega)
    | [c] =>
        -- The marker would end with the bracket that opens the next one.
        have hlast := a.getLast?_chars m
        rw [List.cons_append, List.nil_append, List.cons.injEq] at hrest
        rw [hinside, List.getLast?_concat, ← hrest.1] at hlast
        exact absurd hlast (by decide)
    | c :: d :: others =>
        rw [List.cons_append, List.cons_append, List.cons.injEq, List.cons.injEq] at hrest
        rw [ha, ← hrest.1, ← hrest.2.1] at hinside
        match shift with
        | [] => exact hshift rfl
        | [e] =>
            simp only [List.cons_append, List.nil_append, List.cons.injEq] at hinside
            exact absurd hinside.2.1 (by decide)
        | e :: f :: others' =>
            simp only [List.cons_append, List.cons.injEq] at hinside
            exact hmark (by rw [hinside.2.2]; simp)

/-- A text that holds no marker of any artifact. -/
def MarkerFree (text : Chars) : Prop := ∀ (marker : Marker) (name : Slug), ¬ marker.chars name <:+: text

theorem MarkerFree.stripRight {text : Chars} (h : MarkerFree text) :
    MarkerFree (Text.stripRight newline text) := by
  intro marker name hpart
  obtain ⟨tail, htext, _⟩ := Text.stripRight_append_stripped newline text
  exact h marker name (hpart.trans ⟨[], tail, by simpa using htext.symm⟩)

/-! ## Items -/

/-- What a file with managed blocks consists of; items are joined by newlines. -/
inductive Item where
  | line (text : Chars)
  | block (name : Slug) (body : Chars)

def Item.chars : Item → Chars
  | .line text => text
  | .block name body => blockChars name.value body

def Item.Plain : Item → Prop
  | .line text => '\n' ∉ text ∧ MarkerFree text
  | .block _ body => MarkerFree body

def Item.name? : Item → Option Slug
  | .line _ => none
  | .block name _ => some name

def joinItems : List Item → Chars
  | [] => []
  | [item] => item.chars
  | item :: next :: rest => item.chars ++ '\n' :: joinItems (next :: rest)

theorem joinItems_cons (item : Item) {rest : List Item} (h : rest ≠ []) :
    joinItems (item :: rest) = item.chars ++ '\n' :: joinItems rest := by
  cases rest with
  | nil => exact absurd rfl h
  | cons next others => rfl

theorem joinItems_append {left right : List Item} (hleft : left ≠ []) (hright : right ≠ []) :
    joinItems (left ++ right) = joinItems left ++ '\n' :: joinItems right := by
  induction left with
  | nil => exact absurd rfl hleft
  | cons item rest ih =>
      by_cases hrest : rest = []
      · subst hrest
        exact joinItems_cons item hright
      · rw [List.cons_append, joinItems_cons item (by simp [hrest]), ih hrest, joinItems_cons item hrest]
        simp

/-- The items before a place, each with the newline behind it. -/
def itemsBefore (items : List Item) : Chars := items.flatMap fun item => item.chars ++ ['\n']

theorem joinItems_before {left right : List Item} (hright : right ≠ []) :
    joinItems (left ++ right) = itemsBefore left ++ joinItems right := by
  induction left with
  | nil => rfl
  | cons item rest ih =>
      rw [List.cons_append, joinItems_cons item (by simp [hright]), ih]
      simp [itemsBefore]

/-! ## Counting markers -/

theorem blockChars_eq (name : Slug) (body : Chars) :
    blockChars name.value body = Marker.first.chars name ++
      '\n' :: (Text.stripRight newline body ++ '\n' :: Marker.last.chars name) := by
  simp [blockChars, Marker.chars]

theorem count_marker (a b : Marker) (m n : Slug) :
    Text.count (a.chars m) (b.chars n) = if a = b ∧ m = n then 1 else 0 := by
  by_cases h : a = b ∧ m = n
  · obtain ⟨rfl, rfl⟩ := h
    simp [Text.count_self (a.chars_ne_nil m)]
  · rw [if_neg h]
    exact Text.count_eq_zero fun hinfix => h (Marker.infix_iff.mp hinfix)

/-- A plain item holds a marker exactly when it is the block of that name, and then once. -/
theorem count_item (marker : Marker) (name : Slug) {item : Item} (h : item.Plain) :
    Text.count (marker.chars name) item.chars = if item.name? = some name then 1 else 0 := by
  cases item with
  | line text => simp [Item.name?, Item.chars, Text.count_eq_zero (h.2 marker name)]
  | block owner body =>
      have hbody := Text.count_eq_zero ((MarkerFree.stripRight h) marker name)
      have hne := marker.chars_ne_nil name
      have hline := marker.newline_not_mem name
      rw [Item.chars, blockChars_eq, Text.count_append_sep hne hline, Text.count_append_sep hne hline,
        hbody, count_marker, count_marker]
      cases marker <;> simp [Item.name?, eq_comm]

variable {items : List Item}

theorem count_joinItems (marker : Marker) (name : Slug)
    (h : ∀ item ∈ items, item.Plain) :
    Text.count (marker.chars name) (joinItems items) = (items.filterMap Item.name?).count name := by
  induction items with
  | nil => rfl
  | cons item rest ih =>
      have hitem := count_item marker name (h item List.mem_cons_self)
      have hrest := ih fun other hother => h other (List.mem_cons_of_mem _ hother)
      have hsplit : Text.count (marker.chars name) (joinItems (item :: rest)) =
          Text.count (marker.chars name) item.chars + Text.count (marker.chars name) (joinItems rest) := by
        by_cases hempty : rest = []
        · subst hempty
          simp [joinItems, Text.count, Text.countFrom]
        · rw [joinItems_cons item hempty,
            Text.count_append_sep (marker.chars_ne_nil name) (marker.newline_not_mem name)]
      rw [hsplit, hitem, hrest]
      cases hname : item.name? with
      | none => simp [hname]
      | some owner =>
          by_cases howner : owner = name
          · simp [hname, howner, Nat.add_comm]
          · simp [hname, howner]

variable {name : Slug}

theorem infix_joinItems {marker : Marker}
    (h : ∀ item ∈ items, item.Plain) :
    marker.chars name <:+: joinItems items ↔ name ∈ items.filterMap Item.name? := by
  rw [← List.count_pos_iff, ← count_joinItems marker name h]
  constructor
  · exact Text.count_pos (marker.chars_ne_nil name)
  · intro hpos
    by_contra hnot
    rw [Text.count_eq_zero hnot] at hpos
    exact absurd hpos (by simp)

/-! ## Finding a block -/

theorem partition?_itemsBefore {marker : Marker} {left : List Item}
    (h : ∀ item ∈ left, item.Plain) (hnot : name ∉ left.filterMap Item.name?) (rest : Chars) :
    Text.partition? (marker.chars name) (itemsBefore left ++ rest) =
      (Text.partition? (marker.chars name) rest).map fun parts => (itemsBefore left ++ parts.1, parts.2) := by
  induction left with
  | nil => simp [itemsBefore]
  | cons item others ih =>
      have hitem : Text.partition? (marker.chars name) item.chars = none := by
        rw [Text.partition?_eq_none_iff]
        intro hinfix
        have hpos := Text.count_pos (marker.chars_ne_nil name) hinfix
        rw [count_item marker name (h item List.mem_cons_self)] at hpos
        split at hpos
        · rename_i hname
          exact hnot (by simp [hname])
        · exact absurd hpos (by simp)
      have hothers : name ∉ others.filterMap Item.name? := by
        intro hmem
        refine hnot ?_
        rw [List.filterMap_cons]
        split
        · exact hmem
        · exact List.mem_cons_of_mem _ hmem
      have hrest := ih (fun other hother => h other (List.mem_cons_of_mem _ hother)) hothers
      have hsplit : itemsBefore (item :: others) ++ rest =
          item.chars ++ '\n' :: (itemsBefore others ++ rest) := by
        simp [itemsBefore]
      rw [hsplit, Text.partition?_append_sep (marker.chars_ne_nil name) (marker.newline_not_mem name),
        hitem, hrest]
      cases Text.partition? (marker.chars name) rest <;> simp [itemsBefore]

/-- The search for the begin marker of an item finds it. -/
theorem partition?_begin {body : Chars} {left right : List Item} (hright : right ≠ [])
    (hleft : ∀ item ∈ left, item.Plain) (hnot : name ∉ left.filterMap Item.name?) :
    Text.partition? (Marker.first.chars name) (joinItems (left ++ .block name body :: right)) =
      some (itemsBefore left, '\n' :: (Text.stripRight newline body ++
        '\n' :: (Marker.last.chars name ++ '\n' :: joinItems right))) := by
  have hne := Marker.first.chars_ne_nil name
  have hline := Marker.first.newline_not_mem name
  rw [joinItems_before (by simp), joinItems_cons _ hright, Item.chars, blockChars_eq,
    partition?_itemsBefore hleft hnot]
  simp only [List.append_assoc, List.cons_append]
  rw [Text.partition?_append_sep hne hline, Text.partition?_self]
  simp

/-- From the begin marker on, the search for the end marker finds the one of the block. -/
theorem partition?_end {inner tail : Chars} (hinner : ¬ Marker.last.chars name <:+: inner) :
    Text.partition? (Marker.last.chars name) (Marker.first.chars name ++
        '\n' :: (inner ++ '\n' :: (Marker.last.chars name ++ '\n' :: tail))) =
      some (Marker.first.chars name ++ '\n' :: (inner ++ ['\n']), '\n' :: tail) := by
  have hne := Marker.last.chars_ne_nil name
  have hline := Marker.last.newline_not_mem name
  have hfirst : Text.partition? (Marker.last.chars name) (Marker.first.chars name) = none :=
    Text.partition?_eq_none_iff.mpr fun h => absurd (Marker.infix_iff.mp h).1 (by decide)
  rw [Text.partition?_append_sep hne hline, hfirst]
  simp only
  rw [Text.partition?_append_sep hne hline, Text.partition?_eq_none_iff.mpr hinner]
  simp only
  rw [Text.partition?_append_sep hne hline, Text.partition?_self]
  simp

/-! ## Layouts -/

/-- Items that belong to no text: blocks and empty lines. -/
def Item.Loose : Item → Prop
  | .line text => text = []
  | .block _ _ => True

/-- The lines of a text without the newlines at its ends. -/
structure Core (initial : Chars) (core : List Chars) : Prop where
  text : Text.strip newline initial = joinItems (core.map .line)
  first : ∀ line, core.head? = some line → line ≠ []
  last : ∀ line, core.getLast? = some line → line ≠ []

/-- The items around the initial text are blocks and empty lines. -/
def Surrounds (initial : Chars) (items : List Item) : Prop :=
  ∃ pre core post, items = pre ++ core.map .line ++ post ∧ (∀ item ∈ pre, item.Loose) ∧
    (∀ item ∈ post, item.Loose) ∧ Core initial core

/-- The layout of a file that holds the installed blocks and the initial text. -/
structure Layout (initial : Chars) (installed : Slug → Option Chars) (items : List Item) : Prop where
  plain : ∀ item ∈ items, item.Plain
  names : (items.filterMap Item.name?).Nodup
  recorded : ∀ name body, installed name = some body ↔ Item.block name body ∈ items
  ends : ∃ before text, items = before ++ [.line text]
  around : Surrounds initial items

variable {initial : Chars}

theorem Surrounds.prepend {items more : List Item} (h : Surrounds initial items)
    (hmore : ∀ item ∈ more, item.Loose) : Surrounds initial (more ++ items) := by
  obtain ⟨pre, core, post, rfl, hpre, hpost, hcore⟩ := h
  refine ⟨more ++ pre, core, post, by simp, ?_, hpost, hcore⟩
  intro item hitem
  exact (List.mem_append.mp hitem).elim (hmore item) (hpre item)

theorem Surrounds.append {items more : List Item} (h : Surrounds initial items)
    (hmore : ∀ item ∈ more, item.Loose) : Surrounds initial (items ++ more) := by
  obtain ⟨pre, core, post, rfl, hpre, hpost, hcore⟩ := h
  refine ⟨pre, core, post ++ more, by simp, hpre, ?_, hcore⟩
  intro item hitem
  exact (List.mem_append.mp hitem).elim (hpost item) (hmore item)

/-- An empty line at the end belongs to no text. -/
theorem Surrounds.dropLast (h : Surrounds initial (items ++ [.line []])) : Surrounds initial items := by
  obtain ⟨pre, core, post, heq, hpre, hpost, hcore⟩ := h
  rcases List.eq_nil_or_concat post with rfl | ⟨others, item, rfl⟩
  · rcases List.eq_nil_or_concat core with rfl | ⟨lines, line, rfl⟩
    · simp only [List.map_nil, List.append_nil] at heq
      refine ⟨items, [], [], by simp, ?_, by simp, hcore⟩
      intro item hitem
      exact hpre item (by rw [← heq]; simp [hitem])
    · simp only [List.concat_eq_append, List.map_append, List.map_cons, List.map_nil, List.append_nil,
        ← List.append_assoc] at heq
      have hlast := (List.append_inj' heq rfl).2
      have hline : line = [] := by simpa using hlast.symm
      exact absurd hline (hcore.last line (by simp))
  · simp only [List.concat_eq_append, ← List.append_assoc] at heq
    refine ⟨pre, core, others, (List.append_inj' heq rfl).1, hpre, ?_, hcore⟩
    intro other hother
    exact hpost other (by simp [hother])

/-- An empty line at the start belongs to no text. -/
theorem Surrounds.tail (h : Surrounds initial (.line [] :: items)) : Surrounds initial items := by
  obtain ⟨pre, core, post, heq, hpre, hpost, hcore⟩ := h
  cases pre with
  | cons item others =>
      simp only [List.cons_append, List.cons.injEq] at heq
      exact ⟨others, core, post, heq.2, fun other hother => hpre other (by simp [hother]), hpost, hcore⟩
  | nil =>
      cases core with
      | cons line lines =>
          simp only [List.nil_append, List.map_cons, List.cons_append, List.cons.injEq] at heq
          have hline : line = [] := by simpa using heq.1.symm
          exact absurd hline (hcore.first line rfl)
      | nil =>
          simp only [List.nil_append, List.map_nil] at heq
          refine ⟨[], [], items, by simp, by simp, ?_, hcore⟩
          intro item hitem
          exact hpost item (by rw [← heq]; simp [hitem])

/-- A change of blocks keeps what surrounds the text. -/
theorem Surrounds.map {change : Item → Item}
    (h : Surrounds initial items) (hline : ∀ text, change (.line text) = .line text)
    (hblock : ∀ name body, (change (.block name body)).Loose) : Surrounds initial (items.map change) := by
  obtain ⟨pre, core, post, rfl, hpre, hpost, hcore⟩ := h
  have hloose {others : List Item} (hothers : ∀ item ∈ others, item.Loose) :
      ∀ item ∈ others.map change, item.Loose := by
    intro item hitem
    obtain ⟨other, hother, rfl⟩ := List.mem_map.mp hitem
    cases other with
    | line text =>
        rw [hline]
        exact hothers _ hother
    | block name body => exact hblock name body
  refine ⟨pre.map change, core, post.map change, ?_, hloose hpre, hloose hpost, hcore⟩
  simp [hline, Function.comp_def]

theorem Surrounds.filter {keep : Item → Bool}
    (h : Surrounds initial items) (hline : ∀ text, keep (.line text) = true) :
    Surrounds initial (items.filter keep) := by
  obtain ⟨pre, core, post, rfl, hpre, hpost, hcore⟩ := h
  have hcoreKept : (core.map Item.line).filter keep = core.map Item.line := by
    rw [List.filter_eq_self]
    intro item hitem
    obtain ⟨line, _, rfl⟩ := List.mem_map.mp hitem
    exact hline line
  refine ⟨pre.filter keep, core, post.filter keep, ?_, ?_, ?_, hcore⟩
  · rw [List.filter_append, List.filter_append, hcoreKept]
  · exact fun item hitem => hpre item (List.mem_of_mem_filter hitem)
  · exact fun item hitem => hpost item (List.mem_of_mem_filter hitem)

/-! ## Newlines at the ends of a layout -/

theorem blockChars_head (name : Slug) (body : Chars) : ∃ rest, blockChars name.value body = '<' :: rest := by
  obtain ⟨rest, hchars, _⟩ := Marker.first.chars_shape name
  rw [blockChars_eq, hchars]
  exact ⟨_, rfl⟩

theorem blockChars_last (name : Slug) (body : Chars) : (blockChars name.value body).getLast? = some '>' := by
  have hclosing : Marker.last.closing = " <<< --".toList ++ ['>'] := by decide
  rw [blockChars_eq, Marker.chars_eq .last, hclosing, List.getLast?_eq_some_iff]
  exact ⟨Marker.first.chars name ++ '\n' :: (Text.stripRight newline body ++
    '\n' :: (Marker.last.opening ++ (name.value.toList ++ " <<< --".toList))), by simp⟩

/-- A plain item does not end with a newline. -/
theorem Item.Plain.getLast? {item : Item} (h : item.Plain) : item.chars.getLast? ≠ some '\n' := by
  cases item with
  | line text =>
      intro hlast
      exact h.1 (List.mem_of_getLast? hlast)
  | block name body =>
      rw [Item.chars, blockChars_last]
      decide

theorem Item.Plain.eq_line_nil {item : Item} (h : item.chars = []) : item = .line [] := by
  cases item with
  | line text => rw [show text = [] from h]
  | block name body =>
      obtain ⟨rest, hhead⟩ := blockChars_head name body
      rw [Item.chars, hhead] at h
      exact absurd h (by simp)

/-- Two newlines at the end come from two empty lines. -/
theorem trailing_newlines {before : List Item} {text : Chars}
    (hplain : ∀ item ∈ before ++ [Item.line text], item.Plain)
    (h : ['\n', '\n'] <:+ joinItems (before ++ [.line text])) :
    ∃ others, before ++ [Item.line text] = others ++ [.line [], .line []] := by
  rw [joinItems_before (by simp)] at h
  obtain ⟨head, heq⟩ := h
  have htext : text = [] := by
    by_contra hne
    have hlast := congrArg List.getLast? heq
    rw [List.getLast?_append_of_ne_nil _ (by simp)] at hlast
    rw [show joinItems [Item.line text] = text from rfl, List.getLast?_append_of_ne_nil _ hne] at hlast
    exact (hplain (.line text) (by simp)).getLast? (by rw [Item.chars, ← hlast]; rfl)
  subst htext
  rcases List.eq_nil_or_concat before with rfl | ⟨others, item, rfl⟩
  · exact absurd heq (by simp [itemsBefore, joinItems, Item.chars])
  · refine ⟨others, ?_⟩
    have hitem : item = .line [] := by
      refine Item.Plain.eq_line_nil ?_
      by_contra hne
      have hend : head ++ ['\n'] = itemsBefore others ++ item.chars := by
        have hflat : head ++ ['\n'] ++ ['\n'] = (itemsBefore others ++ item.chars) ++ ['\n'] := by
          simpa [itemsBefore, joinItems, Item.chars] using heq
        exact (List.append_inj' hflat rfl).1
      have hlast := congrArg List.getLast? hend
      rw [List.getLast?_append_of_ne_nil _ (by simp), List.getLast?_append_of_ne_nil _ hne] at hlast
      exact (hplain item (by simp)).getLast? (by rw [← hlast]; rfl)
    simp [hitem]

/-- A newline at the start comes from an empty line. -/
theorem leading_newline (hplain : ∀ item ∈ items, item.Plain)
    (hends : ∃ before text, items = before ++ [.line text]) :
    dropNewline (joinItems items) = joinItems items ∨
      ∃ rest, rest ≠ [] ∧ items = .line [] :: rest ∧ dropNewline (joinItems items) = joinItems rest := by
  have hkept {c : Char} {rest : Chars} (hc : c ≠ '\n') : dropNewline (c :: rest) = c :: rest := by
    unfold dropNewline
    split
    · rename_i heq
      rw [List.cons.injEq] at heq
      exact absurd heq.1 hc
    · rfl
  cases items with
  | nil =>
      obtain ⟨before, text, heq⟩ := hends
      exact absurd heq (by simp)
  | cons item rest =>
      have hitem := hplain item List.mem_cons_self
      by_cases hrest : rest = []
      · subst hrest
        refine Or.inl ?_
        obtain ⟨before, text, heq⟩ := hends
        obtain rfl : item = .line text := by
          cases before with
          | nil => simpa using heq
          | cons other others => exact absurd heq (by simp)
        cases text with
        | nil => rfl
        | cons c more =>
            refine hkept ?_
            rintro rfl
            exact hitem.1 List.mem_cons_self
      · rw [joinItems_cons item hrest]
        cases item with
        | block name body =>
            obtain ⟨tail, hhead⟩ := blockChars_head name body
            refine Or.inl ?_
            rw [Item.chars, hhead]
            exact hkept (by decide)
        | line text =>
            cases text with
            | nil => exact Or.inr ⟨rest, hrest, rfl, rfl⟩
            | cons c more =>
                refine Or.inl (hkept ?_)
                rintro rfl
                exact hitem.1 List.mem_cons_self

end AgentArtifacts
