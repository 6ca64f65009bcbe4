import Mathlib.Data.List.Infix

/-!
# Delimited blocks of lines

A block is an opening line, a body and a closing line, which ends at the first place where a
closing line may end. A text is searched from left to right for the first line that opens a
block. The delimiters hold no separator of lines, so neither can run over the end of a line.
-/

namespace Blocks

variable {α : Type} [DecidableEq α]

/-! ## The shortest body -/

/-- The shortest text before an occurrence of `needle` whose rest is accepted, and this rest. -/
def upTo (needle : List α) (ok : List α → Bool) : List α → Option (List α × List α)
  | [] => none
  | c :: rest =>
      if needle <+: c :: rest ∧ ok ((c :: rest).drop needle.length) = true then
        some ([], (c :: rest).drop needle.length)
      else (upTo needle ok rest).map fun parts => (c :: parts.1, parts.2)

variable {needle text body after a b : List α} {ok : List α → Bool}

theorem upTo_eq (h : upTo needle ok text = some (body, after)) :
    text = body ++ needle ++ after ∧ ok after = true := by
  induction text generalizing body with
  | nil => cases h
  | cons c rest ih =>
      rw [upTo] at h
      split at h
      · rename_i hhere
        obtain ⟨ hprefix, hok⟩ := hhere
        cases h
        exact ⟨List.prefix_append_drop hprefix, hok⟩
      · obtain ⟨⟨first, second⟩, hparts, hsame⟩ := Option.map_eq_some_iff.mp h
        cases hsame
        obtain ⟨hrest, hok⟩ := ih hparts
        rw [hrest]
        exact ⟨rfl, hok⟩

/-- No accepted occurrence starts earlier. -/
theorem upTo_le (h : upTo needle ok text = some (body, after)) (htext : text = a ++ needle ++ b)
    (hok : ok b = true) : body.length ≤ a.length := by
  induction text generalizing body a with
  | nil => cases h
  | cons c rest ih =>
      rw [upTo] at h
      split at h
      · cases h
        exact Nat.zero_le _
      · rename_i hnot
        obtain ⟨⟨first, second⟩, hparts, hsame⟩ := Option.map_eq_some_iff.mp h
        cases hsame
        cases a with
        | nil =>
            rw [List.nil_append] at htext
            refine absurd ⟨⟨b, htext.symm⟩, ?_⟩ hnot
            rw [htext, List.drop_left]
            exact hok
        | cons d more =>
            rw [List.cons_append, List.cons_append] at htext
            exact Nat.succ_le_succ (ih hparts (List.cons.inj htext).2)

theorem upTo_isSome (hne : needle ≠ []) (hok : ok b = true) : (upTo needle ok (a ++ needle ++ b)).isSome = true := by
  induction a with
  | nil =>
      obtain ⟨c, rest, rfl⟩ := List.exists_cons_of_ne_nil hne
      rw [List.nil_append, List.cons_append, upTo, if_pos]
      · rfl
      · refine ⟨⟨b, rfl⟩, ?_⟩
        rw [← List.cons_append, List.drop_left]
        exact hok
  | cons c more ih =>
      rw [List.cons_append, List.cons_append, upTo]
      split
      · rfl
      · rw [Option.isSome_map]
        exact ih

/-- The first accepted occurrence is found. -/
theorem upTo_of_first (hne : needle ≠ []) (hok : ok after = true)
    (hfirst : ∀ a b, body ++ needle ++ after = a ++ needle ++ b → ok b = true → body.length ≤ a.length) :
    upTo needle ok (body ++ needle ++ after) = some (body, after) := by
  obtain ⟨⟨found, rest⟩, hfound⟩ := Option.isSome_iff_exists.mp (upTo_isSome (a := body) hne hok)
  obtain ⟨htext, hrest⟩ := upTo_eq hfound
  have hlength : body.length = found.length :=
    Nat.le_antisymm (hfirst _ _ htext hrest) (upTo_le hfound rfl hok)
  rw [List.append_assoc, List.append_assoc] at htext
  obtain ⟨rfl, hsame⟩ := List.append_inj htext hlength
  obtain rfl := List.append_cancel_left hsame
  exact hfound

/-! ## Blocks -/

structure Delimiters (α : Type) where
  sep : α
  opening : List α
  closing : List α

/-- Each delimiter stands on one line. -/
structure Delimiters.Plain (d : Delimiters α) : Prop where
  opening : d.sep ∉ d.opening
  closing : d.sep ∉ d.closing

def Delimiters.block (d : Delimiters α) (body : List α) : List α :=
  d.opening ++ d.sep :: body ++ d.sep :: d.closing

/-- The block that a text begins with, and what follows it. -/
def Delimiters.blockAt (d : Delimiters α) (ok : List α → Bool) (text : List α) : Option (List α × List α) :=
  if d.opening ++ [d.sep] <+: text then
    (upTo (d.sep :: d.closing) ok (text.drop (d.opening.length + 1))).map fun parts => (d.block parts.1, parts.2)
  else none

structure Found (α : Type) where
  before : List α
  block : List α
  after : List α

/-- The first block of a text; `atLine` says whether the text begins at the start of a line. -/
def Delimiters.find (d : Delimiters α) (ok : List α → Bool) : Bool → List α → Option (Found α)
  | _, [] => none
  | atLine, c :: rest =>
      match if atLine = true then d.blockAt ok (c :: rest) else none with
      | some (block, after) => some ⟨[], block, after⟩
      | none => (d.find ok (c == d.sep) rest).map fun found => { found with before := c :: found.before }

/-- What comes after `before` begins at the start of a line. -/
def startsLine (sep : α) (atLine : Bool) (before : List α) : Bool :=
  match before.getLast? with
  | none => atLine
  | some c => c == sep

variable {d : Delimiters α} {block before rest : List α} {atLine : Bool}

@[simp] theorem startsLine_nil (sep : α) : startsLine sep atLine [] = atLine := rfl

theorem startsLine_cons (sep c : α) (before : List α) :
    startsLine sep atLine (c :: before) = startsLine sep (c == sep) before := by
  unfold startsLine
  rw [List.getLast?_cons]
  cases before.getLast? <;> rfl

/-- What ends before a line ends with the separator. -/
theorem exists_init_of_startsLine {sep : α} (h : startsLine sep atLine before = true) (hne : before ≠ []) :
    ∃ init, before = init ++ [sep] := by
  unfold startsLine at h
  split at h
  · rename_i hlast
    exact absurd (List.getLast?_eq_none_iff.mp hlast) hne
  · rename_i c hlast
    obtain ⟨init, rfl⟩ := List.getLast?_eq_some_iff.mp hlast
    rw [beq_iff_eq] at h
    rw [h]
    exact ⟨init, rfl⟩

theorem startsLine_concat {sep : α} (init : List α) : startsLine sep atLine (init ++ [sep]) = true := by
  unfold startsLine
  rw [List.getLast?_concat]
  exact beq_self_eq_true sep

omit [DecidableEq α] in
theorem Delimiters.block_inj {body other : List α} (h : d.block body = d.block other) : body = other := by
  unfold Delimiters.block at h
  rw [List.append_assoc, List.append_assoc] at h
  exact List.append_cancel_right (List.cons.inj (List.append_cancel_left h)).2

theorem Delimiters.blockAt_eq (h : d.blockAt ok text = some (block, after)) :
    ∃ body, block = d.block body ∧ text = block ++ after ∧ ok after = true ∧
      ∀ a b, body ++ d.sep :: d.closing ++ after = a ++ d.sep :: d.closing ++ b → ok b = true →
        body.length ≤ a.length := by
  unfold Delimiters.blockAt at h
  split at h
  · rename_i hopens
    obtain ⟨tail, rfl⟩ := hopens
    obtain ⟨⟨body, rest⟩, hparts, hsame⟩ := Option.map_eq_some_iff.mp h
    cases hsame
    rw [List.drop_left' (by rw [List.length_append, List.length_singleton])] at hparts
    obtain ⟨htail, hok⟩ := upTo_eq hparts
    refine ⟨body, rfl, ?_, hok, ?_⟩
    · rw [htail]
      simp [Delimiters.block]
    · intro a b hsplit hb
      rw [htail] at hparts
      exact upTo_le hparts hsplit hb
  · cases h

/-- A line that opens a block begins one when an accepted closing line follows it. -/
theorem Delimiters.blockAt_isSome (hok : ok b = true) :
    (d.blockAt ok (d.opening ++ d.sep :: a ++ d.sep :: d.closing ++ b)).isSome = true := by
  unfold Delimiters.blockAt
  have htext : d.opening ++ d.sep :: a ++ d.sep :: d.closing ++ b =
      (d.opening ++ [d.sep]) ++ (a ++ d.sep :: d.closing ++ b) := by simp
  rw [htext, if_pos (List.prefix_append _ _), Option.isSome_map,
    List.drop_left' (by rw [List.length_append, List.length_singleton])]
  exact upTo_isSome (List.cons_ne_nil _ _) hok

theorem Delimiters.blockAt_of_first (hok : ok after = true)
    (hfirst : ∀ a b, body ++ d.sep :: d.closing ++ after = a ++ d.sep :: d.closing ++ b → ok b = true →
      body.length ≤ a.length) : d.blockAt ok (d.block body ++ after) = some (d.block body, after) := by
  unfold Delimiters.blockAt
  have htext : d.block body ++ after = (d.opening ++ [d.sep]) ++ (body ++ d.sep :: d.closing ++ after) := by
    simp [Delimiters.block]
  rw [htext, if_pos (List.prefix_append _ _), List.drop_left' (by rw [List.length_append, List.length_singleton]),
    upTo_of_first (List.cons_ne_nil _ _) hok hfirst]
  rfl

theorem Delimiters.blockAt_nil : d.blockAt ok [] = none := by
  unfold Delimiters.blockAt
  rw [if_neg]
  intro hprefix
  exact absurd (List.prefix_nil.mp hprefix) (by simp)

/-- The block found, and that no earlier line begins one. -/
theorem Delimiters.find_eq (h : d.find ok atLine text = some ⟨before, block, after⟩) :
    text = before ++ (block ++ after) ∧ startsLine d.sep atLine before = true ∧
      d.blockAt ok (block ++ after) = some (block, after) ∧
      ∀ a b, text = a ++ b → startsLine d.sep atLine a = true → a.length < before.length → d.blockAt ok b = none := by
  induction text generalizing atLine before with
  | nil => cases h
  | cons c rest ih =>
      rw [Delimiters.find] at h
      split at h
      · rename_i hhere
        cases h
        split at hhere
        · rename_i hline
          obtain ⟨_, _, htext, _⟩ := Delimiters.blockAt_eq hhere
          rw [htext] at hhere
          refine ⟨htext, hline, hhere, ?_⟩
          intro a _ _ _ hlt
          exact absurd hlt (Nat.not_lt_zero _)
        · cases hhere
      · rename_i hhere
        obtain ⟨⟨first, found, tail⟩, hfound, hsame⟩ := Option.map_eq_some_iff.mp h
        cases hsame
        obtain ⟨hrest, hline, hblock, hfirst⟩ := ih hfound
        refine ⟨?_, ?_, hblock, ?_⟩
        · rw [hrest]
          rfl
        · rw [startsLine_cons]
          exact hline
        · intro a b htext hstarts hlt
          cases a with
          | nil =>
              rw [startsLine_nil] at hstarts
              rw [if_pos hstarts] at hhere
              rw [List.nil_append] at htext
              rw [← htext]
              exact hhere
          | cons e more =>
              rw [List.cons_append] at htext
              obtain ⟨rfl, htail⟩ := List.cons.inj htext
              rw [startsLine_cons] at hstarts
              exact hfirst more b htail hstarts (Nat.lt_of_succ_lt_succ hlt)

theorem Delimiters.find_of_first (hline : startsLine d.sep atLine before = true)
    (hblock : d.blockAt ok (block ++ after) = some (block, after))
    (hfirst : ∀ a b, before ++ (block ++ after) = a ++ b → startsLine d.sep atLine a = true →
      a.length < before.length → d.blockAt ok b = none) :
    d.find ok atLine (before ++ (block ++ after)) = some ⟨before, block, after⟩ := by
  induction before generalizing atLine with
  | nil =>
      rw [startsLine_nil] at hline
      rw [List.nil_append]
      cases htext : block ++ after with
      | nil =>
          rw [htext, Delimiters.blockAt_nil] at hblock
          cases hblock
      | cons c rest =>
          rw [Delimiters.find, if_pos hline, ← htext, hblock]
  | cons c more ih =>
      have hnone : (if atLine = true then d.blockAt ok (c :: (more ++ (block ++ after))) else none) = none := by
        split
        · rename_i hstarts
          exact hfirst [] _ rfl hstarts (Nat.zero_lt_succ _)
        · rfl
      rw [List.cons_append, Delimiters.find, hnone]
      rw [startsLine_cons] at hline
      rw [ih hline]
      · rfl
      · intro a b htext hstarts hlt
        refine hfirst (c :: a) b ?_ ?_ (Nat.succ_lt_succ hlt)
        · rw [List.cons_append, List.cons_append, htext]
        · rw [startsLine_cons]
          exact hstarts

/-! ## Lines before a block -/

omit [DecidableEq α] in
/-- A line of delimiters that starts before a line ends there. -/
theorem exists_rest_of_split {sep : α} {line rest x y : List α} (hline : sep ∉ line)
    (h : x ++ sep :: y = line ++ sep :: rest) : ∃ w, rest = w ++ y := by
  rcases List.append_eq_append_iff.mp h with ⟨z, hz, hrest⟩ | ⟨z, hz, hrest⟩
  · cases z with
    | nil =>
        rw [List.nil_append] at hrest
        exact ⟨[], (List.cons.inj hrest).2.symm⟩
    | cons c more =>
        rw [List.cons_append] at hrest
        obtain ⟨rfl, -⟩ := List.cons.inj hrest
        exact absurd (by rw [hz]; exact List.mem_append_right _ List.mem_cons_self) hline
  · cases z with
    | nil =>
        rw [List.nil_append] at hrest
        exact ⟨[], (List.cons.inj hrest).2⟩
    | cons c more =>
        rw [List.cons_append] at hrest
        obtain ⟨rfl, hmore⟩ := List.cons.inj hrest
        exact ⟨more ++ [sep], by rw [hmore, List.append_assoc]; rfl⟩

/-- A line that begins before `before` ends, and is closed by a separator, lies in it. -/
theorem exists_split_of_line {sep : α} {line tail : List α} (hline : sep ∉ line)
    (hbefore : startsLine sep atLine before = true) (hlt : a.length < before.length)
    (h : before ++ tail = a ++ (line ++ sep :: rest)) : ∃ w, before = a ++ (line ++ sep :: w) := by
  obtain ⟨init, rfl⟩ := exists_init_of_startsLine hbefore (List.ne_nil_of_length_pos (Nat.zero_lt_of_lt hlt))
  rw [List.append_assoc] at h
  have hinit : a.length ≤ init.length := by
    rw [List.length_append, List.length_singleton] at hlt
    exact Nat.le_of_lt_succ hlt
  obtain ⟨x, rfl⟩ : ∃ x, init = a ++ x := by
    obtain ⟨x, hx⟩ := List.prefix_of_prefix_length_le ⟨_, h.symm⟩ (List.prefix_append init _) hinit
    exact ⟨x, hx.symm⟩
  rw [List.append_assoc] at h
  have htail := List.append_cancel_left h
  obtain ⟨w, hrest⟩ := exists_rest_of_split hline htail
  refine ⟨w, ?_⟩
  have hsame : a ++ x ++ [sep] ++ tail = a ++ (line ++ sep :: w) ++ tail := by
    rw [List.append_assoc, List.append_assoc, h, hrest]
    simp
  exact List.append_cancel_right hsame

/-- No line before the block that is found opens one: the block would have begun there. -/
theorem Delimiters.not_opens_before (hplain : d.Plain) (h : d.find ok atLine text = some ⟨before, block, after⟩)
    (hlt : a.length < before.length) (hline : startsLine d.sep atLine a = true) :
    text ≠ a ++ (d.opening ++ d.sep :: rest) := by
  intro htext
  obtain ⟨hsplit, hbefore, hblock, hfirst⟩ := Delimiters.find_eq h
  obtain ⟨body, hbody, _, hok, _⟩ := Delimiters.blockAt_eq hblock
  have hnone := hfirst a _ htext hline hlt
  rw [hsplit] at htext
  obtain ⟨w, hw⟩ := exists_split_of_line hplain.opening hbefore hlt htext
  have hsome := Delimiters.blockAt_isSome (d := d) (a := w ++ d.opening ++ d.sep :: body) hok
  have hsame : a ++ (d.opening ++ d.sep :: rest) =
      a ++ (d.opening ++ d.sep :: (w ++ d.opening ++ d.sep :: body) ++ d.sep :: d.closing ++ after) := by
    rw [← htext, hw, hbody]
    simp [Delimiters.block]
  rw [← List.append_cancel_left hsame, hnone] at hsome
  cases hsome

omit [DecidableEq α] in
/-- A closing line that starts before the end of the body ends before it. -/
theorem infix_of_early_closing {sep : α} {closing : List α} (hplain : sep ∉ closing)
    (h : body ++ sep :: closing ++ after = a ++ sep :: closing ++ b) (hlt : a.length < body.length) :
    sep :: closing <:+: body := by
  rw [List.append_assoc, List.append_assoc] at h
  obtain ⟨y, rfl⟩ : ∃ y, body = a ++ y := by
    obtain ⟨y, hy⟩ := List.prefix_of_prefix_length_le ⟨_, h.symm⟩ (List.prefix_append body _) (Nat.le_of_lt hlt)
    exact ⟨y, hy.symm⟩
  rw [List.append_assoc] at h
  have htail := List.append_cancel_left h
  cases y with
  | nil =>
      rw [List.append_nil] at hlt
      exact absurd hlt (Nat.lt_irrefl _)
  | cons c y =>
      obtain ⟨rfl, hmore⟩ := List.cons.inj htail
      have hclose : y ++ c :: (closing ++ after) = closing ++ b := hmore
      rcases List.append_eq_append_iff.mp hclose with ⟨z, hz, hrest⟩ | ⟨z, hz, hrest⟩
      · cases z with
        | nil =>
            rw [List.append_nil] at hz
            rw [hz]
            exact ⟨a, [], List.append_nil _⟩
        | cons e z =>
            rw [List.cons_append] at hrest
            obtain ⟨rfl, -⟩ := List.cons.inj hrest
            exact absurd (by rw [hz]; exact List.mem_append_right _ List.mem_cons_self) hplain
      · exact ⟨a, z, by rw [hz, List.append_assoc]; rfl⟩

/-- A block whose body holds no closing line is found where no line before it opens one. -/
theorem Delimiters.find_of_not_opens (hplain : d.Plain) (hok : ok after = true)
    (hline : startsLine d.sep atLine before = true) (hbody : ¬ d.sep :: d.closing <:+: body)
    (hbefore : ∀ a rest, a.length < before.length → startsLine d.sep atLine a = true →
      before ++ (d.block body ++ after) ≠ a ++ (d.opening ++ d.sep :: rest)) :
    d.find ok atLine (before ++ (d.block body ++ after)) = some ⟨before, d.block body, after⟩ := by
  refine Delimiters.find_of_first hline ?_ ?_
  · refine Delimiters.blockAt_of_first hok ?_
    intro a b hsplit _
    by_contra hlt
    exact hbody (infix_of_early_closing hplain.closing hsplit (Nat.lt_of_not_le hlt))
  · intro a b htext hstarts hlt
    cases hblock : d.blockAt ok b with
    | none => rfl
    | some parts =>
        obtain ⟨body', hsame, hb, _⟩ := Delimiters.blockAt_eq hblock
        refine absurd ?_ (hbefore a (body' ++ d.sep :: d.closing ++ parts.2) hlt hstarts)
        rw [htext, hb, hsame]
        simp [Delimiters.block]

/-- A block that ends at any closing line holds none in its body. -/
theorem Delimiters.not_closing_of_find {found : Found α} (h : d.find (fun _ => true) atLine text = some found)
    (hblock : found.block = d.block body) : ¬ d.sep :: d.closing <:+: body := by
  rintro ⟨x, y, hbody⟩
  obtain ⟨_, _, hat, _⟩ := Delimiters.find_eq h
  obtain ⟨other, hother, _, _, hfirst⟩ := Delimiters.blockAt_eq hat
  obtain rfl := Delimiters.block_inj (hblock.symm.trans hother)
  have hle := hfirst x (y ++ d.sep :: d.closing ++ found.after) (by rw [← hbody]; simp) rfl
  rw [← hbody, List.length_append, List.length_append, List.length_cons] at hle
  omega

end Blocks
