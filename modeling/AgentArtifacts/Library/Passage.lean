import AgentArtifacts.Library.MarkedValues

/-!
# Splitting a scan

At an item that no lead and no mark contains a scan splits: what stands before the item in the
result comes of what stands before it in the text. Scans one after another split as well.
-/

namespace Substitution

variable {α : Type}

/-- The result is split at the item as the text is. -/
def Passes (scan : List α → List α) (e : α) : Prop :=
  ∀ text front after, scan text = front ++ e :: after ↔
    ∃ first rest, text = first ++ e :: rest ∧ scan (first ++ [e]) = front ++ [e] ∧ scan rest = after

theorem Passes.comp {scan scan' : List α → List α} {e : α} (hscan : Passes scan e) (hscan' : Passes scan' e)
    (hempty : ∀ text, scan' text = [] → text = []) : Passes (fun text => scan' (scan text)) e := by
  intro text front after
  constructor
  · intro h
    obtain ⟨middle, behind, hmiddle, hfront, hafter⟩ := (hscan' _ front after).mp h
    obtain ⟨first, rest, htext, hfirst, hrest⟩ := (hscan text middle behind).mp hmiddle
    refine ⟨first, rest, htext, ?_, ?_⟩
    · dsimp only
      rw [hfirst, hfront]
    · dsimp only
      rw [hrest, hafter]
  · rintro ⟨first, rest, htext, hfirst, hrest⟩
    dsimp only at hfirst hrest
    obtain ⟨middle, behind, hmiddle, hfront, hbehind⟩ := (hscan' _ front []).mp hfirst
    rw [hempty behind hbehind] at hmiddle
    refine (hscan' _ front after).mpr ⟨middle, scan rest, ?_, hfront, hrest⟩
    exact (hscan text middle (scan rest)).mpr ⟨first, rest, htext, hmiddle, rfl⟩

/-- An item that stands in no lead and no mark: whether a match is seen before it does not depend on
what follows it. -/
structure Firm (find : Finder α) (mark : List α) (e : α) : Prop where
  nonempty : mark ≠ []
  marked : e ∉ mark
  head : ∀ more, find (e :: more) = none
  kept : ∀ kept hidden rest, find (kept ++ hidden ++ rest) = some (kept.length, hidden.length) → e ∉ kept
  skips : ∀ text more, find (text ++ [e]) = none ↔ find (text ++ e :: more) = none
  hits : ∀ kept hidden rest more, find (kept ++ hidden ++ (rest ++ [e])) = some (kept.length, hidden.length) ↔
    find (kept ++ hidden ++ (rest ++ e :: more)) = some (kept.length, hidden.length)

variable {find : Finder α} {mark text out : List α} {e : α}

theorem eq_sub_of_scanned (h : Scanned find mark text out) : out = sub find mark text := by
  induction h with
  | done => rfl
  | @skip c rest out hfind _ ih =>
      rw [sub, subFrom, hfind]
      exact congrArg (c :: ·) ih
  | hit hfind hne _ ih => rw [sub_of_find hfind hne, ih]

theorem sub_eq_iff (hsound : Sound find) : sub find mark text = out ↔ Scanned find mark text out := by
  constructor
  · rintro rfl
    exact scanned_sub hsound text
  · intro h
    exact (eq_sub_of_scanned h).symm

theorem Scanned.eq_nil (hmark : mark ≠ []) (h : Scanned find mark text []) : text = [] := by
  cases text with
  | nil => rfl
  | cons c rest =>
      have hall : Hides mark Anything none (c :: rest) [] := h.hides (fun _ _ _ _ _ => trivial) none
      rcases hall.inv with ⟨hnil, _⟩ | ⟨_, _, _, _, hout, _⟩ | ⟨_, _, _, _, hout, _⟩
      · exact hnil
      · cases hout
      · exact absurd (List.append_eq_nil_iff.mp hout.symm).1 hmark

theorem eq_nil_of_sub (hsound : Sound find) (hmark : mark ≠ []) (h : sub find mark text = []) : text = [] :=
  ((sub_eq_iff hsound).mp h).eq_nil hmark

theorem Firm.split (hfirm : Firm find mark e) {front after : List α} (h : Scanned find mark text (front ++ e :: after)) :
    ∃ first rest, text = first ++ e :: rest ∧ Scanned find mark (first ++ [e]) (front ++ [e]) ∧
      Scanned find mark rest after := by
  generalize hout : front ++ e :: after = out at h
  induction h generalizing front with
  | done => simp at hout
  | @skip c rest out hfind hscanned ih =>
      cases front with
      | nil =>
          obtain ⟨rfl, rfl⟩ := List.cons.inj hout
          exact ⟨[], rest, rfl, .skip (hfirm.head []) .done, hscanned⟩
      | cons d front =>
          obtain ⟨rfl, hrest⟩ := List.cons.inj hout
          obtain ⟨first, behind, rfl, hfirst, hbehind⟩ := ih hrest
          exact ⟨d :: first, behind, rfl, .skip ((hfirm.skips (d :: first) behind).mpr hfind) hfirst, hbehind⟩
  | @hit kept hidden rest out hfind hne hscanned ih =>
      have hsplit : ∃ middle, front = kept ++ mark ++ middle ∧ middle ++ e :: after = out := by
        rcases List.append_eq_append_iff.mp hout with ⟨tail, hmark, hrest⟩ | ⟨middle, hfront, hrest⟩
        · cases tail with
          | nil => exact ⟨[], by rw [hmark, List.append_nil, List.append_nil], hrest⟩
          | cons d tail =>
              obtain ⟨rfl, _⟩ := List.cons.inj hrest
              have hmem : e ∈ kept ++ mark := by rw [hmark]; simp
              rcases List.mem_append.mp hmem with hkept | hmarked
              · exact absurd hkept (hfirm.kept kept hidden rest hfind)
              · exact absurd hmarked hfirm.marked
        · exact ⟨middle, hfront, hrest.symm⟩
      obtain ⟨middle, rfl, hmiddle⟩ := hsplit
      obtain ⟨first, behind, rfl, hfirst, hbehind⟩ := ih hmiddle
      refine ⟨kept ++ hidden ++ first, behind, by simp, ?_, hbehind⟩
      rw [List.append_assoc _ first, List.append_assoc _ middle]
      exact .hit ((hfirm.hits kept hidden first behind).mpr hfind) hne hfirst

theorem Firm.join (hfirm : Firm find mark e) {first front rest after : List α}
    (hfirst : Scanned find mark (first ++ [e]) (front ++ [e])) (hrest : Scanned find mark rest after) :
    Scanned find mark (first ++ e :: rest) (front ++ e :: after) := by
  generalize htext : first ++ [e] = text at hfirst
  generalize hout : front ++ [e] = out at hfirst
  induction hfirst generalizing first front with
  | done => simp at htext
  | @skip c behind out hfind hscanned ih =>
      cases first with
      | nil =>
          obtain ⟨rfl, rfl⟩ := List.cons.inj htext
          obtain rfl : front = [] := by
            have hnil := eq_sub_of_scanned hscanned
            rw [hnil] at hout
            simpa [sub, subFrom] using congrArg List.length hout
          exact .skip (hfirm.head rest) hrest
      | cons d first =>
          obtain ⟨rfl, rfl⟩ := List.cons.inj htext
          cases front with
          | nil =>
              obtain ⟨_, rfl⟩ := List.cons.inj hout
              exact absurd (hscanned.eq_nil hfirm.nonempty) (by simp)
          | cons d' front =>
              obtain ⟨rfl, rfl⟩ := List.cons.inj hout
              exact .skip ((hfirm.skips (d' :: first) rest).mp hfind) (ih rfl rfl)
  | @hit kept hidden behind out hfind hne hscanned ih =>
      have hlast : out ≠ [] := by
        rintro rfl
        rw [List.append_nil] at hout
        have hmarked : mark.getLast? = some e := by
          have hends := congrArg List.getLast? hout
          rw [List.getLast?_concat, List.getLast?_append, List.getLast?_eq_some_getLast hfirm.nonempty, Option.some_or] at hends
          rw [List.getLast?_eq_some_getLast hfirm.nonempty, ← hends]
        exact hfirm.marked (List.mem_of_getLast? hmarked)
      have hbehind : behind ≠ [] := by
        rintro rfl
        have hnil := eq_sub_of_scanned hscanned
        exact hlast hnil
      obtain ⟨left, d, rfl⟩ : ∃ left d, out = left ++ [d] :=
        ⟨out.dropLast, out.getLast hlast, (List.dropLast_append_getLast hlast).symm⟩
      obtain ⟨others, d', rfl⟩ : ∃ others d', behind = others ++ [d'] :=
        ⟨behind.dropLast, behind.getLast hbehind, (List.dropLast_append_getLast hbehind).symm⟩
      rw [← List.append_assoc] at htext hout
      obtain ⟨rfl, hd'⟩ := List.append_inj' htext rfl
      obtain ⟨rfl, hd⟩ := List.append_inj' hout rfl
      obtain rfl := List.singleton_inj.mp hd'
      obtain rfl := List.singleton_inj.mp hd
      rw [List.append_assoc _ others, List.append_assoc _ left]
      exact .hit ((hfirm.hits kept hidden others rest).mp hfind) hne (ih rfl rfl)

theorem Firm.passes (hfirm : Firm find mark e) (hsound : Sound find) : Passes (sub find mark) e := by
  intro text front after
  rw [sub_eq_iff hsound]
  constructor
  · intro h
    obtain ⟨first, rest, htext, hfirst, hrest⟩ := hfirm.split h
    exact ⟨first, rest, htext, (sub_eq_iff hsound).mpr hfirst, (sub_eq_iff hsound).mpr hrest⟩
  · rintro ⟨first, rest, rfl, hfirst, hrest⟩
    exact hfirm.join ((sub_eq_iff hsound).mp hfirst) ((sub_eq_iff hsound).mp hrest)

/-! ## Value rules -/

section Lawful

variable {rule : ValueRule α} {Leads : List α → Prop} {opening closing : α} {inner : List α}

/-- A rule that may end anywhere sees a lead with a value item behind it. -/
theorem ValueRule.finder_ne_none_iff (hlaw : rule.Lawful Leads opening inner closing) (hall : ∀ rest, rule.closes rest = true) :
    rule.finder text ≠ none ↔ ∃ part c, part ++ [c] <+: text ∧ Leads part ∧ rule.value c = true := by
  constructor
  · intro h
    obtain ⟨⟨kept, hidden⟩, hfind⟩ := Option.ne_none_iff_exists'.mp h
    obtain ⟨kept, hidden, rest, rfl, rfl, rfl⟩ := (rule.sound hlaw).parts hfind
    obtain ⟨hlead, hrun, _⟩ := rule.finder_eq hlaw hfind
    obtain ⟨c, others, rfl⟩ := List.exists_cons_of_ne_nil hrun.nonempty
    exact ⟨kept, c, ⟨others ++ rest, by simp⟩, hlead, hrun.values c List.mem_cons_self⟩
  · rintro ⟨part, c, ⟨rest, rfl⟩, hpart, hc⟩
    obtain ⟨shown, after, hrest, hrun⟩ := exists_run rest hc
    rw [List.append_assoc, List.singleton_append, hrest, ← List.append_assoc, rule.finder_of_run hlaw hpart hrun (hall after)]
    exact Option.some_ne_none _

theorem prefix_of_notMem {part more : List α} {c : α} (he : e ∉ part) :
    part ++ [c] <+: text ++ [e] ↔ part ++ [c] <+: text ++ e :: more := by
  have hfirst : text ++ [e] <+: text ++ e :: more := ⟨more, by simp⟩
  constructor
  · intro h
    exact h.trans hfirst
  · intro h
    apply List.prefix_of_prefix_length_le h hfirst
    by_contra hlength
    have hwhole : text ++ [e] <+: part := by
      apply List.prefix_of_prefix_length_le hfirst ((List.prefix_append part [c]).trans h)
      simp at hlength ⊢
      omega
    exact he (hwhole.subset (by simp))

theorem ValueRule.firm (hlaw : rule.Lawful Leads opening inner closing) (hall : ∀ rest, rule.closes rest = true)
    (hleads : ∀ part, Leads part → e ∉ part) (hmark : e ∉ opening :: inner ++ [closing]) :
    Firm rule.finder (opening :: inner ++ [closing]) e where
  nonempty := by simp
  marked := hmark
  head := by
    intro more
    by_contra h
    obtain ⟨part, c, hprefix, hpart, _⟩ := (rule.finder_ne_none_iff hlaw hall).mp h
    obtain ⟨d, part, rfl⟩ := List.exists_cons_of_ne_nil (hlaw.nonempty part hpart)
    rw [List.cons_append, List.cons_prefix_cons] at hprefix
    exact hleads _ hpart (by rw [ hprefix.1]; exact List.mem_cons_self)
  kept := by
    intro kept hidden rest h
    exact hleads kept (rule.finder_eq hlaw h).1
  skips := by
    intro text more
    rw [← not_iff_not]
    refine (rule.finder_ne_none_iff hlaw hall).trans ((Iff.trans ?_ (rule.finder_ne_none_iff hlaw hall).symm))
    constructor
    · rintro ⟨part, c, hprefix, hpart, hc⟩
      exact ⟨part, c, (prefix_of_notMem (hleads part hpart)).mp hprefix, hpart, hc⟩
    · rintro ⟨part, c, hprefix, hpart, hc⟩
      exact ⟨part, c, (prefix_of_notMem (hleads part hpart)).mpr hprefix, hpart, hc⟩
  hits := by
    intro kept hidden rest more
    have hhead : (rest ++ [e]).head? = (rest ++ e :: more).head? := by cases rest <;> rfl
    have hstops : Stops rule.value (rest ++ [e]) ↔ Stops rule.value (rest ++ e :: more) := by
      unfold Stops
      rw [hhead]
    constructor
    · intro h
      obtain ⟨hkept, hrun, _⟩ := rule.finder_eq hlaw h
      exact rule.finder_of_run hlaw hkept ⟨hrun.nonempty, hrun.values, hstops.mp hrun.stops⟩ (hall _)
    · intro h
      obtain ⟨hkept, hrun, _⟩ := rule.finder_eq hlaw h
      exact rule.finder_of_run hlaw hkept ⟨hrun.nonempty, hrun.values, hstops.mpr hrun.stops⟩ (hall _)

end Lawful

end Substitution
