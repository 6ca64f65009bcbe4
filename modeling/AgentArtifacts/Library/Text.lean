import Mathlib.Data.List.Infix
import Mathlib.Data.List.TakeWhile

/-!
# Searching in sequences

First occurrence, non-overlapping count and replacement of a subsequence,
stripping of both ends. The search is stated as a partition of the sequence
around the first occurrence, so that a slice by index never has to be compared
with the search that produced the index.
-/

namespace Text

variable {α : Type}

/-! ## Stripping -/

def stripRight (p : α → Bool) (text : List α) : List α := (text.reverse.dropWhile p).reverse

def strip (p : α → Bool) (text : List α) : List α := stripRight p (text.dropWhile p)

/-- Stripping the end takes away a run of stripped items. -/
theorem stripRight_append_stripped (p : α → Bool) (text : List α) :
    ∃ tail, text = stripRight p text ++ tail ∧ ∀ c ∈ tail, p c = true := by
  refine ⟨(text.reverse.takeWhile p).reverse, ?_, ?_⟩
  · unfold stripRight
    rw [← List.reverse_append, List.takeWhile_append_dropWhile, List.reverse_reverse]
  · intro c hc
    exact List.mem_takeWhile_imp (List.mem_reverse.mp hc)

theorem stripRight_append_of_all {p : α → Bool} (text : List α) {tail : List α}
    (h : ∀ c ∈ tail, p c = true) : stripRight p (text ++ tail) = stripRight p text := by
  unfold stripRight
  rw [List.reverse_append, List.dropWhile_append_of_pos]
  intro c hc
  exact h c (List.mem_reverse.mp hc)

theorem stripRight_of_getLast {p : α → Bool} {text : List α} {c : α} (h : text.getLast? = some c)
    (hc : p c = false) : stripRight p text = text := by
  obtain ⟨init, rfl⟩ := List.getLast?_eq_some_iff.mp h
  simp [stripRight, hc]

/-- Nothing is left exactly when every item is stripped. -/
theorem strip_eq_nil_iff (p : α → Bool) (text : List α) :
    strip p text = [] ↔ ∀ c ∈ text, p c = true := by
  unfold strip stripRight
  constructor
  · intro h c hc
    have hall : ∀ d ∈ (text.dropWhile p).reverse, p d = true := by
      simpa [List.dropWhile_eq_nil_iff] using h
    by_cases hmem : c ∈ text.dropWhile p
    · exact hall c (List.mem_reverse.mpr hmem)
    · have hsplit := @List.takeWhile_append_dropWhile _ p text
      rw [← hsplit, List.mem_append] at hc
      rcases hc with htake | hdrop
      · exact List.mem_takeWhile_imp htake
      · exact absurd hdrop hmem
  · intro h
    have hdrop : text.dropWhile p = [] := List.dropWhile_eq_nil_iff.mpr h
    simp [hdrop]

/-- What is stripped from both ends of a text, and the text between. -/
theorem strip_split (p : α → Bool) (text : List α) :
    ∃ pre post, text = pre ++ strip p text ++ post ∧ (∀ c ∈ pre, p c = true) ∧ (∀ c ∈ post, p c = true) ∧
      (∀ c, (strip p text).head? = some c → p c = false) ∧
      (∀ c, (strip p text).getLast? = some c → p c = false) := by
  obtain ⟨post, hpost, hall⟩ := stripRight_append_stripped p (text.dropWhile p)
  have hsplit : text = text.takeWhile p ++ strip p text ++ post := by
    rw [List.append_assoc, strip, ← hpost, List.takeWhile_append_dropWhile]
  refine ⟨text.takeWhile p, post, hsplit, fun c hc => List.mem_takeWhile_imp hc, hall, ?_, ?_⟩
  · intro c hc
    have hhead : (text.dropWhile p).head? = some c := by
      rw [hpost, List.head?_append, ← strip, hc]
      rfl
    have hnot := List.head?_dropWhile_not p text
    rwa [hhead] at hnot
  · intro c hc
    rw [strip, stripRight, List.getLast?_reverse] at hc
    have hnot := List.head?_dropWhile_not p (text.dropWhile p).reverse
    rwa [hc] at hnot

/-- Stripping gives back the text between two stripped runs. -/
theorem strip_append_of_all {p : α → Bool} {pre text post : List α} (hpre : ∀ c ∈ pre, p c = true)
    (hpost : ∀ c ∈ post, p c = true) (hfirst : ∀ c, text.head? = some c → p c = false)
    (hlast : ∀ c, text.getLast? = some c → p c = false) : strip p (pre ++ text ++ post) = text := by
  cases text with
  | nil =>
      rw [strip_eq_nil_iff]
      intro c hc
      rcases List.mem_append.mp hc with hc | hc
      · exact hpre c (by simpa using hc)
      · exact hpost c hc
  | cons c rest =>
      have hc := hfirst c rfl
      have hend : (c :: rest).getLast? = some ((c :: rest).getLast (by simp)) :=
        List.getLast?_eq_some_getLast (by simp)
      rw [strip, List.append_assoc, List.dropWhile_append_of_pos hpre, List.cons_append, List.dropWhile_cons,
        if_neg (by simp [hc]), ← List.cons_append, stripRight_append_of_all _ hpost]
      exact stripRight_of_getLast hend (hlast _ hend)

variable [DecidableEq α]

/-! ## First occurrence -/

/-- The parts of `text` before and after the first occurrence of `needle`. -/
def partition? (needle : List α) : List α → Option (List α × List α)
  | [] => if needle = [] then some ([], []) else none
  | c :: rest =>
      if needle <+: c :: rest then some ([], (c :: rest).drop needle.length)
      else (partition? needle rest).map fun parts => (c :: parts.1, parts.2)

def contains (needle text : List α) : Bool := (partition? needle text).isSome

theorem partition?_eq {needle text before after : List α}
    (h : partition? needle text = some (before, after)) : text = before ++ needle ++ after := by
  induction text generalizing before after with
  | nil =>
      simp only [partition?] at h
      split at h
      · rename_i hneedle
        simp only [Option.some.injEq, Prod.mk.injEq] at h
        simp [hneedle, ← h.1, ← h.2]
      · exact absurd h (by simp)
  | cons c rest ih =>
      simp only [partition?] at h
      split at h
      · rename_i hprefix
        simp only [Option.some.injEq, Prod.mk.injEq] at h
        obtain ⟨tail, htail⟩ := hprefix
        rw [← h.1, ← h.2, ← htail]
        simp
      · simp only [Option.map_eq_some_iff, Prod.mk.injEq] at h
        obtain ⟨⟨left, right⟩, hparts, hleft, hright⟩ := h
        have hrest := ih hparts
        rw [← hleft, hrest, ← hright]
        simp

theorem partition?_isSome_of_infix {needle text : List α} (h : needle <:+: text) :
    (partition? needle text).isSome = true := by
  induction text with
  | nil =>
      have hnil : needle = [] := by simpa using h
      simp [partition?, hnil]
  | cons c rest ih =>
      by_cases hprefix : needle <+: c :: rest
      · simp [partition?, hprefix]
      · have hrest : needle <:+: rest := by
          rcases List.infix_cons_iff.mp h with hp | hi
          · exact absurd hp hprefix
          · exact hi
        simp [partition?, hprefix, ih hrest]

theorem partition?_eq_none_iff {needle text : List α} :
    partition? needle text = none ↔ ¬ needle <:+: text := by
  constructor
  · intro h hinfix
    have hsome := partition?_isSome_of_infix hinfix
    rw [h] at hsome
    exact absurd hsome (by simp)
  · intro h
    cases hparts : partition? needle text with
    | none => rfl
    | some parts =>
        obtain ⟨before, after⟩ := parts
        exact absurd ⟨before, after, (partition?_eq hparts).symm⟩ h

/-- No occurrence of the needle starts before the one found. -/
theorem partition?_length_le {needle text before after left right : List α}
    (h : partition? needle text = some (before, after)) (htext : text = left ++ needle ++ right) :
    before.length ≤ left.length := by
  induction text generalizing before after left with
  | nil =>
      simp only [partition?] at h
      split at h
      · simp only [Option.some.injEq, Prod.mk.injEq] at h
        simp [← h.1]
      · exact absurd h (by simp)
  | cons c rest ih =>
      simp only [partition?] at h
      split at h
      · simp only [Option.some.injEq, Prod.mk.injEq] at h
        simp [← h.1]
      · rename_i hprefix
        simp only [Option.map_eq_some_iff, Prod.mk.injEq] at h
        obtain ⟨⟨first, second⟩, hparts, hbefore, _⟩ := h
        cases left with
        | nil => exact absurd ⟨right, by simpa using htext.symm⟩ hprefix
        | cons d more =>
            have hrest : rest = more ++ needle ++ right := by
              simp only [List.cons_append, List.cons.injEq] at htext
              exact htext.2
            have hle := ih hparts hrest
            rw [← hbefore]
            simpa using hle

/-! ## Counting and replacing -/

/-- Occurrences of a non-empty `needle` found from left to right without
overlap; `skip` items of the last occurrence are still to be passed over. -/
def countFrom (needle : List α) : Nat → List α → Nat
  | _, [] => 0
  | skip + 1, _ :: rest => countFrom needle skip rest
  | 0, c :: rest =>
      if needle <+: c :: rest then 1 + countFrom needle (needle.length - 1) rest
      else countFrom needle 0 rest

def count (needle text : List α) : Nat := countFrom needle 0 text

/-- Left-to-right replacement of a non-empty `needle`. -/
def replaceFrom (needle replacement : List α) : Nat → List α → List α
  | _, [] => []
  | skip + 1, _ :: rest => replaceFrom needle replacement skip rest
  | 0, c :: rest =>
      if needle <+: c :: rest then
        replacement ++ replaceFrom needle replacement (needle.length - 1) rest
      else c :: replaceFrom needle replacement 0 rest

def replaceAll (needle replacement text : List α) : List α :=
  replaceFrom needle replacement 0 text

/-! ## Separators -/

omit [DecidableEq α] in
/-- The parts around the first separator are determined by the text. -/
theorem append_sep_inj {a b x y : List α} {c : α} (ha : c ∉ a) (hb : c ∉ b)
    (h : a ++ c :: x = b ++ c :: y) : a = b ∧ x = y := by
  induction a generalizing b with
  | nil =>
      cases b with
      | nil => simpa using h
      | cons d more =>
          rw [List.nil_append, List.cons_append, List.cons.injEq] at h
          exact absurd (by simp [h.1]) hb
  | cons d rest ih =>
      cases b with
      | nil =>
          rw [List.nil_append, List.cons_append, List.cons.injEq] at h
          exact absurd (by simp [h.1]) ha
      | cons e more =>
          rw [List.cons_append, List.cons_append, List.cons.injEq] at h
          rw [List.mem_cons, not_or] at ha hb
          obtain ⟨hrest, htail⟩ := ih ha.2 hb.2 h.2
          exact ⟨by rw [h.1, hrest], htail⟩

omit [DecidableEq α] in
/-- A needle without the separator starts before it only if it ends before it. -/
theorem isPrefix_append_sep {needle : List α} {c : α} (hc : c ∉ needle) (a b : List α) :
    needle <+: a ++ c :: b ↔ needle <+: a := by
  constructor
  · intro h
    obtain ⟨tail, htail⟩ := h
    rcases List.append_eq_append_iff.mp htail with ⟨more, ha, _⟩ | ⟨more, hneedle, hrest⟩
    · exact ⟨more, ha.symm⟩
    · cases more with
      | nil => simp [hneedle]
      | cons d others =>
          rw [List.cons_append, List.cons.injEq] at hrest
          exact absurd (by simp [hneedle, hrest.1]) hc
  · intro h
    exact h.trans (List.prefix_append a (c :: b))

/-- The search in a separated text looks into the first part and then into the second. -/
theorem partition?_append_sep {needle : List α} (hne : needle ≠ []) {c : α} (hc : c ∉ needle)
    (a b : List α) :
    partition? needle (a ++ c :: b) =
      match partition? needle a with
      | some (before, after) => some (before, after ++ c :: b)
      | none => (partition? needle b).map fun parts => (a ++ c :: parts.1, parts.2) := by
  induction a with
  | nil =>
      have hfirst : ¬ needle <+: c :: b := by
        intro h
        have hnil := (isPrefix_append_sep hc [] b).mp h
        exact hne (List.prefix_nil.mp hnil)
      simp [partition?, hne, hfirst]
  | cons d rest ih =>
      have hprefix : needle <+: d :: (rest ++ c :: b) ↔ needle <+: d :: rest :=
        isPrefix_append_sep hc (d :: rest) b
      by_cases hstart : needle <+: d :: rest
      · have hdrop : (d :: (rest ++ c :: b)).drop needle.length =
            (d :: rest).drop needle.length ++ c :: b := by
          rw [← List.cons_append, List.drop_append_of_le_length hstart.length_le]
        simp only [List.cons_append, partition?, hprefix, hstart, if_true, hdrop]
      · simp only [List.cons_append, partition?, hprefix, hstart, if_false, ih]
        cases hparts : partition? needle rest with
        | none => cases partition? needle b <;> simp
        | some parts => simp

theorem countFrom_of_length_le {needle : List α} {skip : Nat} {text : List α} (h : text.length ≤ skip) :
    countFrom needle skip text = 0 := by
  induction text generalizing skip with
  | nil => cases skip <;> rfl
  | cons c rest ih =>
      cases skip with
      | zero => exact absurd h (by simp)
      | succ skip => exact ih (by simpa using h)

theorem countFrom_append_sep {needle : List α} (hne : needle ≠ []) {c : α} (hc : c ∉ needle)
    {skip : Nat} {a : List α} (b : List α) (hskip : skip ≤ a.length) :
    countFrom needle skip (a ++ c :: b) = countFrom needle skip a + countFrom needle 0 b := by
  induction a generalizing skip with
  | nil =>
      obtain rfl : skip = 0 := by simpa using hskip
      have hfirst : ¬ needle <+: c :: b := by
        intro h
        exact hne (List.prefix_nil.mp ((isPrefix_append_sep hc [] b).mp h))
      simp [countFrom, hfirst]
  | cons d rest ih =>
      cases skip with
      | succ skip =>
          simp only [List.cons_append, countFrom]
          exact ih (by simpa using hskip)
      | zero =>
          have hprefix : needle <+: d :: (rest ++ c :: b) ↔ needle <+: d :: rest :=
            isPrefix_append_sep hc (d :: rest) b
          by_cases hstart : needle <+: d :: rest
          · have hlength := hstart.length_le
            simp only [List.length_cons] at hlength
            simp only [List.cons_append, countFrom, hprefix, hstart, if_true]
            rw [ih (by omega), Nat.add_assoc]
          · simp only [List.cons_append, countFrom, hprefix, hstart, if_false]
            exact ih (Nat.zero_le _)

/-- Occurrences are counted part by part. -/
theorem count_append_sep {needle : List α} (hne : needle ≠ []) {c : α} (hc : c ∉ needle)
    (a b : List α) : count needle (a ++ c :: b) = count needle a + count needle b :=
  countFrom_append_sep hne hc b (Nat.zero_le _)

theorem count_eq_zero {needle text : List α} (h : ¬ needle <:+: text) : count needle text = 0 := by
  induction text with
  | nil => rfl
  | cons c rest ih =>
      have hprefix : ¬ needle <+: c :: rest := fun hp => h hp.isInfix
      have hrest : ¬ needle <:+: rest := fun hi => h (List.infix_cons hi)
      simpa [count, countFrom, hprefix] using ih hrest

theorem count_pos {needle text : List α} (hne : needle ≠ []) (h : needle <:+: text) :
    0 < count needle text := by
  induction text with
  | nil => exact absurd (by simpa using h) hne
  | cons c rest ih =>
      by_cases hprefix : needle <+: c :: rest
      · unfold count
        rw [countFrom, if_pos hprefix]
        omega
      · rcases List.infix_cons_iff.mp h with hp | hi
        · exact absurd hp hprefix
        · simpa [count, countFrom, hprefix] using ih hi

theorem count_self {needle : List α} (hne : needle ≠ []) : count needle needle = 1 := by
  cases needle with
  | nil => exact absurd rfl hne
  | cons c rest =>
      unfold count
      rw [countFrom, if_pos (List.prefix_refl _), countFrom_of_length_le (by simp)]

theorem countFrom_eq_drop (needle : List α) (skip : Nat) (text : List α) :
    countFrom needle skip text = count needle (text.drop skip) := by
  induction text generalizing skip with
  | nil => cases skip <;> rfl
  | cons c rest ih =>
      cases skip with
      | zero => rfl
      | succ skip => exact ih skip

/-- The first occurrence counts once, the others lie behind it. -/
theorem count_of_partition? {needle text before after : List α} (hne : needle ≠ [])
    (h : partition? needle text = some (before, after)) : count needle text = 1 + count needle after := by
  induction text generalizing before with
  | nil =>
      rw [partition?, if_neg hne] at h
      exact absurd h (by simp)
  | cons c rest ih =>
      rw [partition?] at h
      split at h
      · rename_i hprefix
        simp only [Option.some.injEq, Prod.mk.injEq] at h
        obtain ⟨d, more, rfl⟩ := List.exists_cons_of_ne_nil hne
        rw [count, countFrom, if_pos hprefix, countFrom_eq_drop, ← h.2]
        rfl
      · rename_i hprefix
        simp only [Option.map_eq_some_iff, Prod.mk.injEq] at h
        obtain ⟨⟨first, second⟩, hparts, _, hsecond⟩ := h
        rw [count, countFrom, if_neg hprefix]
        exact ih (by rw [hparts, ← hsecond])

theorem partition?_self (needle : List α) : partition? needle needle = some ([], []) := by
  cases needle with
  | nil => rfl
  | cons c rest => simp [partition?]

/-- A needle without the separator occurs in a separated text if it occurs in a part. -/
theorem infix_append_sep {needle : List α} (hne : needle ≠ []) {c : α} (hc : c ∉ needle)
    (a b : List α) : needle <:+: a ++ c :: b ↔ needle <:+: a ∨ needle <:+: b := by
  have hsearch := partition?_append_sep hne hc a b
  constructor
  · intro h
    by_contra hnone
    rw [not_or] at hnone
    rw [partition?_eq_none_iff.mpr hnone.1, partition?_eq_none_iff.mpr hnone.2] at hsearch
    exact partition?_eq_none_iff.mp hsearch h
  · rintro (h | h)
    · exact h.trans (List.prefix_append a (c :: b)).isInfix
    · exact h.trans (List.suffix_append_of_suffix (List.suffix_cons c b)).isInfix

end Text
