import Mathlib.Data.List.Infix
import Mathlib.Data.List.TakeWhile

/-!
# Substitution of matches by a mark

A text is scanned from left to right. Where a match begins, its first items are kept, the others
are replaced by a mark, and the scan goes on after them. The marks stand between brackets, so what
is read of the result without a bracket was there before.
-/

namespace Substitution

variable {α : Type}

/-- At the head of a text, how many items a match keeps and how many after these it hides. -/
abbrev Finder (α : Type) := List α → Option (Nat × Nat)

/-- The first argument counts the items that the last match still covers. -/
def subFrom (find : Finder α) (mark : List α) : Nat → List α → List α
  | _, [] => []
  | n + 1, _ :: rest => subFrom find mark n rest
  | 0, c :: rest =>
      match find (c :: rest) with
      | none => c :: subFrom find mark 0 rest
      | some (kept, hidden) => (c :: rest).take kept ++ mark ++ subFrom find mark (kept + hidden - 1) rest

/-- `re.sub` with a mark after what is kept. -/
def sub (find : Finder α) (mark text : List α) : List α := subFrom find mark 0 text

/-- A match hides something and lies within the text. -/
def Sound (find : Finder α) : Prop :=
  ∀ text kept hidden, find text = some (kept, hidden) → 0 < hidden ∧ kept + hidden ≤ text.length

/-- A text and the result of its scan, match by match. -/
inductive Scanned (find : Finder α) (mark : List α) : List α → List α → Prop where
  | done : Scanned find mark [] []
  | skip {c : α} {rest out : List α} : find (c :: rest) = none → Scanned find mark rest out →
      Scanned find mark (c :: rest) (c :: out)
  | hit {kept hidden rest out : List α} :
      find (kept ++ hidden ++ rest) = some (kept.length, hidden.length) → hidden ≠ [] →
      Scanned find mark rest out → Scanned find mark (kept ++ hidden ++ rest) (kept ++ mark ++ out)

variable {find : Finder α} {mark text out : List α}

theorem subFrom_eq_drop (n : Nat) (text : List α) : subFrom find mark n text = sub find mark (text.drop n) := by
  induction text generalizing n with
  | nil => cases n <;> rfl
  | cons c rest ih =>
      cases n with
      | zero => rfl
      | succ n =>
          rw [subFrom, List.drop_succ_cons]
          exact ih n

/-- The parts of a match. -/
theorem Sound.parts (hsound : Sound find) {count length : Nat} (h : find text = some (count, length)) :
    ∃ kept hidden rest, text = kept ++ hidden ++ rest ∧ kept.length = count ∧ hidden.length = length := by
  have hwithin := (hsound text count length h).2
  refine ⟨text.take count, (text.drop count).take length, text.drop (count + length), ?_, ?_, ?_⟩
  · rw [List.append_assoc, ← List.drop_drop, List.take_append_drop, List.take_append_drop]
  · rw [List.length_take]
    omega
  · rw [List.length_take, List.length_drop]
    omega

/-- A match in one step. -/
theorem sub_of_find {kept hidden rest : List α} (h : find (kept ++ hidden ++ rest) = some (kept.length, hidden.length))
    (hne : hidden ≠ []) : sub find mark (kept ++ hidden ++ rest) = kept ++ mark ++ sub find mark rest := by
  cases hwhole : kept ++ hidden ++ rest with
  | nil => simp [hne] at hwhole
  | cons c whole =>
      obtain ⟨n, hn⟩ : ∃ n, kept.length + hidden.length = n + 1 := by
        have hpositive := List.length_pos_iff.mpr hne
        exact ⟨kept.length + hidden.length - 1, by omega⟩
      have hbehind : whole.drop n = rest := by
        rw [← List.drop_succ_cons, ← hn, ← hwhole, ← List.length_append, List.drop_left]
      have hkept : (c :: whole).take kept.length = kept := by rw [← hwhole, List.append_assoc, List.take_left]
      rw [sub, subFrom, ← hwhole, h]
      dsimp only
      rw [hn, Nat.add_sub_cancel, subFrom_eq_drop, hbehind, hwhole, hkept]

theorem scanned_sub (hsound : Sound find) (text : List α) : Scanned find mark text (sub find mark text) := by
  induction hlength : text.length using Nat.strong_induction_on generalizing text with
  | h length ih =>
      cases text with
      | nil => exact .done
      | cons c rest =>
          cases hfind : find (c :: rest) with
          | none =>
              have hstep : sub find mark (c :: rest) = c :: sub find mark rest := by
                rw [sub, subFrom, hfind]
                rfl
              rw [hstep]
              exact .skip hfind (ih rest.length (by rw [← hlength]; simp) rest rfl)
          | some found =>
              obtain ⟨kept, hidden, behind, htext, hkept, hhidden⟩ := hsound.parts hfind
              have hpositive := (hsound _ _ _ hfind).1
              rw [← hhidden] at hpositive
              have hne := List.length_pos_iff.mp hpositive
              have hseen : find (kept ++ hidden ++ behind) = some (kept.length, hidden.length) := by
                rw [← htext, hkept, hhidden]
                exact hfind
              have hshorter : behind.length < length := by
                rw [← hlength, htext, List.length_append, List.length_append]
                omega
              rw [htext, sub_of_find hseen hne]
              exact .hit hseen hne (ih behind.length hshorter behind rfl)

/-! ## What is read of the result -/

/-- A text and what is left of it where stretches are hidden. Whether one may be hidden depends on
the item before it, on the stretch and on what follows. -/
inductive Hides (mark : List α) (may : Option α → List α → List α → Prop) : Option α → List α → List α → Prop where
  | done {before : Option α} : Hides mark may before [] []
  | keep {before : Option α} {c : α} {text out : List α} : Hides mark may (some c) text out →
      Hides mark may before (c :: text) (c :: out)
  | hide {before : Option α} {hidden text out : List α} : may before hidden text → hidden ≠ [] →
      Hides mark may mark.getLast? text out → Hides mark may before (hidden ++ text) (mark ++ out)

/-- The last item of a text, or else the item before it. -/
def lastOr (before : Option α) (text : List α) : Option α := text.getLast?.or before

theorem lastOr_cons (before : Option α) (c : α) (text : List α) : lastOr before (c :: text) = lastOr (some c) text := by
  cases text with
  | nil => rfl
  | cons d rest => simp [lastOr, List.getLast?_eq_some_getLast]

variable {may : Option α → List α → List α → Prop} {before : Option α}

theorem Hides.inv (h : Hides mark may before text out) :
    (text = [] ∧ out = []) ∨
      (∃ c rest shown, text = c :: rest ∧ out = c :: shown ∧ Hides mark may (some c) rest shown) ∨
      ∃ hidden rest shown, text = hidden ++ rest ∧ out = mark ++ shown ∧ may before hidden rest ∧ hidden ≠ [] ∧
        Hides mark may mark.getLast? rest shown := by
  cases h with
  | done => exact Or.inl ⟨rfl, rfl⟩
  | keep hrest => exact Or.inr (Or.inl ⟨_, _, _, rfl, rfl, hrest⟩)
  | hide hmay hne hrest => exact Or.inr (Or.inr ⟨_, _, _, rfl, rfl, hmay, hne, hrest⟩)

theorem Hides.keepAll {kept : List α} (h : Hides mark may (lastOr before kept) text out) :
    Hides mark may before (kept ++ text) (kept ++ out) := by
  induction kept generalizing before with
  | nil => exact h
  | cons c rest ih =>
      rw [lastOr_cons] at h
      exact .keep (ih h)

/-- A scan hides what its matches hide. -/
theorem Scanned.hides (hmay : ∀ before kept hidden rest,
    find (kept ++ hidden ++ rest) = some (kept.length, hidden.length) → may (lastOr before kept) hidden rest)
    (h : Scanned find mark text out) (before : Option α) : Hides mark may before text out := by
  induction h generalizing before with
  | done => exact .done
  | skip _ _ ih => exact .keep (ih _)
  | @hit kept hidden rest out hfind hne _ ih =>
      rw [List.append_assoc, List.append_assoc]
      exact Hides.keepAll (.hide (hmay before kept hidden rest hfind) hne (ih _))

section Brackets

variable {opening closing : α} {inner : List α}

/-- What the result begins with up to the next bracket, the text begins with. -/
theorem Hides.of_prefix {part after : List α} (h : Hides (opening :: inner ++ [closing]) may before text (part ++ after))
    (hopening : opening ∉ part) :
    ∃ rest, text = part ++ rest ∧ Hides (opening :: inner ++ [closing]) may (lastOr before part) rest after := by
  induction part generalizing before text with
  | nil => exact ⟨text, rfl, h⟩
  | cons c part ih =>
      rcases h.inv with ⟨_, hout⟩ | ⟨d, rest, shown, rfl, hout, hrest⟩ | ⟨hidden, rest, shown, _, hout, _⟩
      · cases hout
      · obtain ⟨rfl, rfl⟩ := List.cons.inj hout
        obtain ⟨rest, rfl, hafter⟩ := ih hrest (fun hmem => hopening (List.mem_cons_of_mem _ hmem))
        exact ⟨rest, rfl, by rw [lastOr_cons]; exact hafter⟩
      · have hc : c = opening := (List.cons.inj hout).1
        exact absurd (hc ▸ List.mem_cons_self) hopening

/-- No part without brackets begins inside the mark, unless it lies there. -/
theorem inside_mark {front tail part after : List α} {out : List α} (hmark : opening :: inner ++ [closing] = front ++ tail)
    (htail : tail ≠ []) (hpart : part ++ after = tail ++ out) (hne : part ≠ []) (hopening : opening ∉ part)
    (hclosing : closing ∉ part) : part <:+: inner := by
  cases front with
  | nil =>
      obtain ⟨c, part, rfl⟩ := List.exists_cons_of_ne_nil hne
      rw [List.nil_append] at hmark
      rw [← hmark] at hpart
      exact absurd ((List.cons.inj hpart).1 ▸ List.mem_cons_self) hopening
  | cons d front =>
      obtain ⟨_, hinner⟩ := List.cons.inj hmark
      obtain ⟨last, init, rfl⟩ : ∃ last init, tail = init ++ [last] :=
        ⟨tail.getLast htail, tail.dropLast, (List.dropLast_append_getLast htail).symm⟩
      have hends : inner ++ [closing] = front ++ init ++ [last] := hinner.trans (List.append_assoc front init [last]).symm
      obtain ⟨hinit, hlast⟩ := List.append_inj' hends rfl
      obtain rfl := List.singleton_inj.mp hlast
      rw [List.append_assoc] at hpart
      rcases List.append_eq_append_iff.mp hpart with ⟨more, hwhole, _⟩ | ⟨more, rfl, hmore⟩
      · exact ⟨front, more, by rw [hinit, hwhole, List.append_assoc]⟩
      · cases more with
        | nil => exact ⟨front, [], by simp [hinit]⟩
        | cons e more =>
            rw [List.singleton_append] at hmore
            rw [(List.cons.inj hmore).1] at hclosing
            exact absurd (by simp) hclosing

/-- A part without brackets that is no part of the mark stands in the text, between what its
surroundings are left of. -/
theorem Hides.split {front part after : List α}
    (h : Hides (opening :: inner ++ [closing]) may before text (front ++ part ++ after)) (hne : part ≠ [])
    (hopening : opening ∉ part) (hclosing : closing ∉ part) (hinner : ¬ part <:+: inner)
    (hmay : ∀ before hidden rest more, may before hidden (rest ++ more) → may before hidden rest) :
    ∃ first rest, text = first ++ part ++ rest ∧ Hides (opening :: inner ++ [closing]) may before first front ∧
      Hides (opening :: inner ++ [closing]) may part.getLast? rest after := by
  generalize hout : front ++ part ++ after = out at h
  induction h generalizing front with
  | done => simp [hne] at hout
  | @keep before c text out hrest ih =>
      cases front with
      | nil =>
          have hall : Hides (opening :: inner ++ [closing]) may before (c :: text) (part ++ after) := by
            rw [List.nil_append] at hout
            rw [hout]
            exact .keep hrest
          obtain ⟨rest, htext, hafter⟩ := hall.of_prefix hopening
          have hlast : lastOr before part = part.getLast? := by
            rw [lastOr, List.getLast?_eq_some_getLast hne, Option.some_or]
          rw [hlast] at hafter
          exact ⟨[], rest, htext, .done, hafter⟩
      | cons d front =>
          obtain ⟨rfl, hrestOut⟩ := List.cons.inj hout
          obtain ⟨first, rest, rfl, hfront, hafter⟩ := ih hrestOut
          exact ⟨d :: first, rest, rfl, .keep hfront, hafter⟩
  | @hide before hidden text out hmayHere hhidden hrest ih =>
      rw [List.append_assoc] at hout
      rcases List.append_eq_append_iff.mp hout with ⟨tail, hmark, hpart⟩ | ⟨tail, rfl, hrestOut⟩
      · by_cases htail : tail = []
        · rw [htail, List.append_nil] at hmark
          rw [htail, List.nil_append] at hpart
          obtain ⟨first, rest, rfl, hfront, hafter⟩ := @ih [] hpart
          obtain rfl : first = [] := by
            rcases hfront.inv with ⟨hfirst, _⟩ | ⟨_, _, _, _, hout, _⟩ | ⟨_, _, _, _, hout, _⟩
            · exact hfirst
            · cases hout
            · cases hout
          refine ⟨hidden, rest, by simp, ?_, hafter⟩
          have hnone : Hides (opening :: inner ++ [closing]) may before (hidden ++ []) (opening :: inner ++ [closing] ++ []) :=
            .hide (hmay before hidden [] (part ++ rest) (by simpa using hmayHere)) hhidden .done
          rw [← hmark]
          simpa using hnone
        · -- The part would begin inside the mark.
          exact absurd (inside_mark hmark htail hpart hne hopening hclosing) hinner
      · obtain ⟨first, rest, rfl, hfront, hafter⟩ := ih (by rw [List.append_assoc]; exact hrestOut.symm)
        refine ⟨hidden ++ first, rest, by simp, ?_, hafter⟩
        exact .hide (hmay before hidden first (part ++ rest) (by rw [← List.append_assoc]; exact hmayHere)) hhidden hfront

end Brackets

/-- Nothing is said of what is hidden. -/
def Anything : Option α → List α → List α → Prop := fun _ _ _ => True

theorem Hides.anything (h : Hides mark may before text out) : Hides mark Anything before text out := by
  induction h with
  | done => exact .done
  | keep _ ih => exact .keep ih
  | hide _ hne _ ih => exact .hide trivial hne ih

/-! ## Absent matches -/

/-- No part of the kind stands in the text. -/
def Free (Found : List α → List α → Prop) (text : List α) : Prop :=
  ∀ front part after, text = front ++ (part ++ after) → ¬ Found part after

/-- `re.search`. -/
def search (find : Finder α) (text : List α) : Bool := text.tails.any fun rest => (find rest).isSome

/-- The parts by which a rule sees its matches. A mark neither makes one up nor completes one. -/
structure Seen (find : Finder α) (Found : List α → List α → Prop) (opening : α) (inner : List α) (closing : α) : Prop where
  nonempty : ∀ part after, Found part after → part ≠ []
  opening_free : ∀ part after, Found part after → opening ∉ part
  closing_free : ∀ part after, Found part after → closing ∉ part
  outside : ∀ part after, Found part after → ¬ part <:+: inner
  found : ∀ part after, Found part after → find (part ++ after) ≠ none
  parts : ∀ text, find text ≠ none → ∃ part after, text = part ++ after ∧ Found part after
  hidden : ∀ before part rest after, Hides (opening :: inner ++ [closing]) Anything before rest after → Found part after →
    Found part rest

section Seen

variable {Found : List α → List α → Prop} {opening closing : α} {inner : List α}

/-- A rule that keeps nothing of its matches leaves none. -/
theorem free_of_scanned (hseen : Seen find Found opening inner closing)
    (hkept : ∀ kept hidden rest, find (kept ++ hidden ++ rest) = some (kept.length, hidden.length) → kept = [])
    (h : Scanned find (opening :: inner ++ [closing]) text out) : Free Found out := by
  induction h with
  | done =>
      intro front part after hout hfound
      have hempty : part = [] := by
        rw [eq_comm, List.append_eq_nil_iff, List.append_eq_nil_iff] at hout
        exact hout.2.1
      exact hseen.nonempty part after hfound hempty
  | @skip c rest out hfind hscanned ih =>
      intro front part after hout hfound
      cases front with
      | cons d front => exact ih front part after (List.cons.inj hout).2 hfound
      | nil =>
          have hall : Hides (opening :: inner ++ [closing]) Anything none (c :: rest) (part ++ after) := by
            rw [← List.nil_append (part ++ after), ← hout]
            exact (Scanned.skip hfind hscanned).hides (fun _ _ _ _ _ => trivial) none
          obtain ⟨behind, hbehind, hafter⟩ := hall.of_prefix (hseen.opening_free part after hfound)
          rw [hbehind] at hfind
          exact hseen.found part behind (hseen.hidden _ part behind after hafter hfound) hfind
  | @hit kept hidden rest out hfind _ _ ih =>
      intro front part after hout hfound
      obtain rfl := hkept kept hidden rest hfind
      rw [List.nil_append] at hout
      rcases List.append_eq_append_iff.mp hout with ⟨tail, rfl, hbehind⟩ | ⟨tail, hmark, hpart⟩
      · exact ih tail part after hbehind hfound
      · by_cases htail : tail = []
        · rw [htail, List.nil_append] at hpart
          exact ih [] part after hpart.symm hfound
        · exact hseen.outside part after hfound (inside_mark hmark htail hpart (hseen.nonempty part after hfound)
            (hseen.opening_free part after hfound) (hseen.closing_free part after hfound))

/-- Hiding something does not bring a match about. -/
theorem Free.hides (hseen : Seen find Found opening inner closing) (hfree : Free Found text)
    (h : Hides (opening :: inner ++ [closing]) may before text out) : Free Found out := by
  intro front part after hout hfound
  have hall := h.anything
  rw [hout, ← List.append_assoc] at hall
  obtain ⟨first, rest, htext, _, hafter⟩ := hall.split (hseen.nonempty part after hfound)
    (hseen.opening_free part after hfound) (hseen.closing_free part after hfound) (hseen.outside part after hfound)
    (fun _ _ _ _ _ => trivial)
  rw [List.append_assoc] at htext
  exact hfree first part rest htext (hseen.hidden _ part rest after hafter hfound)

theorem Free.find_eq_none (hseen : Seen find Found opening inner closing) (hfree : Free Found text) {front rest : List α}
    (htext : text = front ++ rest) : find rest = none := by
  by_contra hfind
  obtain ⟨part, after, rfl, hfound⟩ := hseen.parts rest hfind
  exact hfree front part after htext hfound

theorem Free.search (hseen : Seen find Found opening inner closing) (hfree : Free Found text) :
    search find text = false := by
  rw [Substitution.search, List.any_eq_false]
  intro rest hrest
  obtain ⟨front, hfront⟩ := (List.mem_tails _ _).mp hrest
  rw [hfree.find_eq_none hseen hfront.symm]
  simp

theorem scan_of_free (hseen : Seen find Found opening inner closing) (hfree : Free Found text)
    (h : Scanned find mark text out) : out = text := by
  induction h with
  | done => rfl
  | @skip c rest out _ _ ih =>
      have hrest : Free Found rest := fun front part after hrest => hfree (c :: front) part after (by rw [hrest]; rfl)
      rw [ih hrest]
  | @hit kept hidden rest out hfind _ _ _ =>
      have hnone := hfree.find_eq_none hseen (List.nil_append (kept ++ hidden ++ rest)).symm
      rw [hnone] at hfind
      cases hfind

end Seen

end Substitution
