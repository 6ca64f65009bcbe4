import AgentArtifacts.Library.Substitution

/-!
# Values after leads

The rules that hide the value after a lead: the lead is kept, and the run of value items behind it
is replaced by a mark, where what follows closes the match. After such a scan every value is the
mark, and it stays so whatever else is hidden of the text.
-/

namespace Substitution

variable {α : Type}

/-- A match keeps a lead and hides the run of value items after it. -/
structure ValueRule (α : Type) where
  lead : List α → Option Nat
  value : α → Bool
  /-- Whether a match may end before this. -/
  closes : List α → Bool

def ValueRule.finder (rule : ValueRule α) : Finder α := fun text =>
  match rule.lead text with
  | none => none
  | some kept =>
      let hidden := (text.drop kept).takeWhile rule.value
      if hidden.isEmpty || !rule.closes ((text.drop kept).dropWhile rule.value) then none else some (kept, hidden.length)

/-- The run ends here. -/
def Stops (value : α → Bool) (after : List α) : Prop := ∀ c, after.head? = some c → value c = false

/-- A nonempty run of value items and what follows it. -/
structure Run (value : α → Bool) (shown after : List α) : Prop where
  nonempty : shown ≠ []
  values : ∀ c ∈ shown, value c = true
  stops : Stops value after

variable {value : α → Bool}

theorem takeWhile_of_stops {shown after : List α} (hshown : ∀ c ∈ shown, value c = true) (hstops : Stops value after) :
    (shown ++ after).takeWhile value = shown := by
  rw [List.takeWhile_append_of_pos hshown]
  cases after with
  | nil => simp
  | cons c after => rw [List.takeWhile_cons_of_neg (by simp [hstops c rfl]), List.append_nil]

theorem dropWhile_of_stops {shown after : List α} (hshown : ∀ c ∈ shown, value c = true) (hstops : Stops value after) :
    (shown ++ after).dropWhile value = after := by
  have hsplit := @List.takeWhile_append_dropWhile _ value (shown ++ after)
  rw [takeWhile_of_stops hshown hstops] at hsplit
  exact List.append_cancel_left hsplit

theorem Run.takeWhile {shown after : List α} (h : Run value shown after) : (shown ++ after).takeWhile value = shown :=
  takeWhile_of_stops h.values h.stops

theorem Run.dropWhile {shown after : List α} (h : Run value shown after) : (shown ++ after).dropWhile value = after :=
  dropWhile_of_stops h.values h.stops

theorem Run.eq {shown after other rest : List α} (h : Run value shown after) (h' : Run value other rest)
    (heq : shown ++ after = other ++ rest) : shown = other := by
  rw [← h.takeWhile, ← h'.takeWhile, heq]

/-- What the leads of a rule are, and how they stand to the mark. -/
structure ValueRule.Lawful (rule : ValueRule α) (Leads : List α → Prop) (opening : α) (inner : List α) (closing : α) :
    Prop where
  reads : ∀ part c rest, Leads part → rule.value c = true → rule.lead (part ++ c :: rest) = some part.length
  found : ∀ part c rest, rule.lead (part ++ c :: rest) = some part.length → rule.value c = true → Leads part
  within : ∀ text kept, rule.lead text = some kept → kept ≤ text.length
  nonempty : ∀ part, Leads part → part ≠ []
  opening_free : ∀ part, Leads part → opening ∉ part
  closing_free : ∀ part, Leads part → closing ∉ part
  outside : ∀ part, Leads part → ¬ part <:+: inner
  ends : ∀ part whole c, Leads part → Leads whole → rule.value c = true → ¬ (part ++ [c]) <:+: whole
  marks : ∀ c ∈ opening :: inner ++ [closing], rule.value c = true
  closes_head : ∀ rest rest', rest.head? = rest'.head? → rule.closes rest = rule.closes rest'
  /-- A match may end anywhere, or else nothing inside a value is hidden. -/
  unbroken : (∀ rest, rule.closes rest = true) ∨ ∀ part c, Leads part → part.getLast? = some c → rule.value c = false

/-- Every value after a lead is the mark. -/
def Stable (rule : ValueRule α) (Leads : List α → Prop) (mark text : List α) : Prop :=
  ∀ front part shown after, text = front ++ (part ++ (shown ++ after)) → Leads part → Run rule.value shown after →
    rule.closes after = true → shown = mark

/-- What a rule hides follows a lead and is a whole run. -/
def AfterLead (Leads : List α → Prop) (value : α → Bool) (before : Option α) (hidden rest : List α) : Prop :=
  (∃ part, Leads part ∧ part.getLast? = before) ∧ Run value hidden rest

theorem AfterLead.of_append {Leads : List α → Prop} {before : Option α} {hidden rest more : List α}
    (h : AfterLead Leads value before hidden (rest ++ more)) : AfterLead Leads value before hidden rest := by
  refine ⟨h.1, h.2.nonempty, h.2.values, fun c hc => h.2.stops c ?_⟩
  rw [List.head?_append, hc, Option.some_or]

section Lawful

variable {rule : ValueRule α} {Leads : List α → Prop} {opening closing : α} {inner : List α}

theorem ValueRule.finder_of_run (hlaw : rule.Lawful Leads opening inner closing) {kept hidden rest : List α}
    (hkept : Leads kept) (hrun : Run rule.value hidden rest) (hcloses : rule.closes rest = true) :
    rule.finder (kept ++ hidden ++ rest) = some (kept.length, hidden.length) := by
  obtain ⟨d, shown, rfl⟩ := List.exists_cons_of_ne_nil hrun.nonempty
  have hlead : rule.lead (kept ++ d :: shown ++ rest) = some kept.length := by
    rw [List.append_assoc]
    exact hlaw.reads kept d (shown ++ rest) hkept (hrun.values d List.mem_cons_self)
  unfold ValueRule.finder
  rw [hlead]
  dsimp only
  rw [List.append_assoc, List.drop_left, hrun.takeWhile, hrun.dropWhile, hcloses]
  rfl

theorem ValueRule.finder_eq (hlaw : rule.Lawful Leads opening inner closing) {kept hidden rest : List α}
    (h : rule.finder (kept ++ hidden ++ rest) = some (kept.length, hidden.length)) :
    Leads kept ∧ Run rule.value hidden rest ∧ rule.closes rest = true := by
  unfold ValueRule.finder at h
  split at h
  · cases h
  · rename_i length hlead
    dsimp only at h
    split at h
    · cases h
    · rename_i hempty
      obtain ⟨hkept, hhidden⟩ := Prod.mk.inj (Option.some.inj h)
      subst hkept
      rw [List.append_assoc, List.drop_left] at hempty hhidden
      rw [Bool.or_eq_true, not_or, Bool.not_eq_true', Bool.not_eq_false] at hempty
      have hrun : (hidden ++ rest).takeWhile rule.value = hidden := by
        have hprefix : (hidden ++ rest).takeWhile rule.value <+: hidden ++ rest := List.takeWhile_prefix _
        exact (List.prefix_of_prefix_length_le hprefix (List.prefix_append hidden rest) (by rw [hhidden])).eq_of_length
          hhidden
      have hbehind : (hidden ++ rest).dropWhile rule.value = rest := by
        have hsplit := @List.takeWhile_append_dropWhile _ rule.value (hidden ++ rest)
        rw [hrun] at hsplit
        exact List.append_cancel_left hsplit
      have hvalues : ∀ c ∈ hidden, rule.value c = true := fun c hc => List.mem_takeWhile_imp (by rw [hrun]; exact hc)
      have hne : hidden ≠ [] := by
        rintro rfl
        rw [hrun] at hempty
        exact hempty.1 rfl
      rw [hbehind] at hempty
      obtain ⟨d, shown, rfl⟩ := List.exists_cons_of_ne_nil hne
      rw [List.append_assoc] at hlead
      refine ⟨hlaw.found kept d (shown ++ rest) hlead (hvalues d List.mem_cons_self), ⟨hne, hvalues, fun c hc => ?_⟩, hempty.2⟩
      have hhead := List.head?_dropWhile_not rule.value (d :: shown ++ rest)
      rw [hbehind, hc] at hhead
      simpa using hhead

/-- A run begins with every value item. -/
theorem exists_run {c : α} (rest : List α) (hc : value c = true) :
    ∃ shown after, c :: rest = c :: shown ++ after ∧ Run value (c :: shown) after := by
  refine ⟨rest.takeWhile value, rest.dropWhile value, ?_, List.cons_ne_nil _ _, ?_, ?_⟩
  · rw [List.cons_append, List.takeWhile_append_dropWhile]
  · intro d hd
    rcases List.mem_cons.mp hd with rfl | hd
    · exact hc
    · exact List.mem_takeWhile_imp hd
  · intro d hd
    have hhead := List.head?_dropWhile_not value rest
    rw [hd] at hhead
    simpa using hhead

theorem ValueRule.sound (hlaw : rule.Lawful Leads opening inner closing) : Sound rule.finder := by
  intro text kept hidden h
  unfold ValueRule.finder at h
  split at h
  · cases h
  · rename_i length hlead
    dsimp only at h
    split at h
    · cases h
    · rename_i hempty
      obtain ⟨rfl, rfl⟩ := Prod.mk.inj (Option.some.inj h)
      have hkept := hlaw.within text length hlead
      have hrun := (List.takeWhile_prefix (p := rule.value) (l := text.drop length)).length_le
      rw [List.length_drop] at hrun
      rw [Bool.or_eq_true, not_or] at hempty
      exact ⟨List.length_pos_iff.mpr (by simpa using hempty.1), by omega⟩

theorem hides_of_scanned (hlaw : rule.Lawful Leads opening inner closing) {text out : List α}
    (h : Scanned rule.finder mark text out) (before : Option α) :
    Hides mark (AfterLead Leads rule.value) before text out := by
  refine h.hides (fun before kept hidden rest hfind => ?_) before
  obtain ⟨hkept, hrun, _⟩ := ValueRule.finder_eq hlaw hfind
  refine ⟨⟨kept, hkept, ?_⟩, hrun⟩
  rw [lastOr, List.getLast?_eq_some_getLast (hlaw.nonempty kept hkept), Option.some_or]

/-- Where nothing that is hidden after a mark could not stand in a value, a run that ended still ends. -/
theorem Hides.stops {may : Option α → List α → List α → Prop} {before : Option α} {text out : List α}
    (h : Hides mark may before text out) (hmay : ∀ hidden rest, may before hidden rest →
      ∃ c, hidden.head? = some c ∧ value c = true) (hstops : Stops value text) : Stops value out := by
  rcases h.inv with ⟨_, rfl⟩ | ⟨c, rest, shown, rfl, rfl, _⟩ | ⟨hidden, rest, shown, rfl, _, hhere, _⟩
  · exact fun c hc => absurd hc (by simp)
  · exact hstops
  · obtain ⟨c, hc, hvalue⟩ := hmay hidden rest hhere
    have hfalse := hstops c (by rw [List.head?_append, hc, Option.some_or])
    rw [hvalue] at hfalse
    cases hfalse

/-- A rule does not hide anything behind the closing bracket of a mark. -/
theorem not_afterLead_mark (hlaw : rule.Lawful Leads opening inner closing) {hidden rest : List α} :
    ¬ AfterLead Leads value (opening :: inner ++ [closing]).getLast? hidden rest := by
  rintro ⟨⟨part, hpart, hlast⟩, _⟩
  have hclosing : (opening :: inner ++ [closing]).getLast? = some closing := List.getLast?_concat
  rw [hclosing] at hlast
  exact hlaw.closing_free part hpart (List.mem_of_getLast? hlast)

theorem run_mark (hlaw : rule.Lawful Leads opening inner closing) {after : List α} (h : Stops rule.value after) :
    Run rule.value (opening :: inner ++ [closing]) after :=
  ⟨by simp, hlaw.marks, h⟩

/-- Where leads end outside of values, a value of which the first item was kept is kept. -/
theorem Hides.keepsRun (hlaw : rule.Lawful Leads opening inner closing)
    (hleads : ∀ part c, Leads part → part.getLast? = some c → rule.value c = false) {d : α} {shown after text : List α}
    (hd : rule.value d = true) (hshown : ∀ c ∈ shown, rule.value c = true) (hafter : Stops rule.value after)
    (h : Hides (opening :: inner ++ [closing]) (AfterLead Leads rule.value) (some d) text (shown ++ after)) :
    ∃ rest, text = shown ++ rest ∧ rest.head? = after.head? := by
  induction shown generalizing d text with
  | nil =>
      rcases h.inv with ⟨rfl, hnil⟩ | ⟨c, rest, out, rfl, hout, _⟩ | ⟨hidden, rest, out, rfl, hout, _⟩
      · exact ⟨[], rfl, by rw [← hnil]; rfl⟩
      · exact ⟨c :: rest, rfl, by rw [← List.nil_append after, hout]; rfl⟩
      · have hopening := hafter opening (by rw [← List.nil_append after, hout]; rfl)
        rw [hlaw.marks opening (by simp)] at hopening
        cases hopening
  | cons c shown ih =>
      rcases h.inv with ⟨_, hnil⟩ | ⟨e, rest, out, rfl, hout, hrest⟩ | ⟨hidden, rest, out, rfl, _, hhere, _⟩
      · cases hnil
      · obtain ⟨rfl, rfl⟩ := List.cons.inj hout
        obtain ⟨behind, rfl, hhead⟩ := ih (hshown c List.mem_cons_self) (fun e he => hshown e (List.mem_cons_of_mem _ he)) hrest
        exact ⟨behind, rfl, hhead⟩
      · obtain ⟨⟨part, hpart, hlast⟩, _⟩ := hhere
        have hfalse := hleads part d hpart hlast
        rw [hd] at hfalse
        cases hfalse

/-- After a scan with a rule every value is the mark. -/
theorem stable_of_scanned (hlaw : rule.Lawful Leads opening inner closing) {text out : List α}
    (h : Scanned rule.finder (opening :: inner ++ [closing]) text out) :
    Stable rule Leads (opening :: inner ++ [closing]) out := by
  induction h with
  | done =>
      intro front part shown after hout hpart _ _
      have hempty : part = [] := by
        rw [eq_comm, List.append_eq_nil_iff, List.append_eq_nil_iff] at hout
        exact hout.2.1
      exact absurd hempty (hlaw.nonempty part hpart)
  | @skip c rest out hfind hscanned ih =>
      intro front part shown after hout hpart hrun hcloses
      cases front with
      | cons d front => exact ih front part shown after (List.cons.inj hout).2 hpart hrun hcloses
      | nil =>
          have hhides : Hides (opening :: inner ++ [closing]) (AfterLead Leads rule.value) none (c :: rest)
              (part ++ (shown ++ after)) := by
            have hall := hides_of_scanned hlaw (Scanned.skip hfind hscanned) none
            rwa [hout, List.nil_append] at hall
          obtain ⟨behind, hbehind, hafter⟩ := hhides.of_prefix (hlaw.opening_free part hpart)
          obtain ⟨d, more, rfl⟩ := List.exists_cons_of_ne_nil hrun.nonempty
          rcases hafter.inv with ⟨_, hnil⟩ | ⟨e, behind, left, rfl, hkept, hmore⟩ | ⟨hidden, behind, left, rfl, hmark, hhere, _, hleft⟩
          · cases hnil
          · -- The value would have been hidden.
            obtain ⟨rfl, rfl⟩ := List.cons.inj hkept
            have hd := hrun.values d List.mem_cons_self
            have hseen : ∃ whole left, d :: behind = whole ++ left ∧ Run rule.value whole left ∧ rule.closes left = true := by
              rcases hlaw.unbroken with hall | hleads
              · obtain ⟨whole, left, hwhole, hrunWhole⟩ := exists_run behind hd
                exact ⟨d :: whole, left, hwhole, hrunWhole, hall left⟩
              · obtain ⟨left, rfl, hhead⟩ := hmore.keepsRun hlaw hleads hd
                  (fun c hc => hrun.values c (List.mem_cons_of_mem _ hc)) hrun.stops
                refine ⟨d :: more, left, rfl, ⟨hrun.nonempty, hrun.values, ?_⟩, ?_⟩
                · unfold Stops
                  rw [hhead]
                  exact hrun.stops
                · rw [hlaw.closes_head left after hhead]
                  exact hcloses
            obtain ⟨whole, left, hwhole, hrunWhole, hleft⟩ := hseen
            rw [hbehind, hwhole, ← List.append_assoc, ValueRule.finder_of_run hlaw hpart hrunWhole hleft] at hfind
            cases hfind
          · have hstops : Stops rule.value left := hleft.stops
              (fun hidden rest hmay => absurd hmay (not_afterLead_mark hlaw)) hhere.2.stops
            exact hrun.eq (run_mark hlaw hstops) hmark
  | @hit kept hidden rest out hfind hne hscanned ih =>
      intro front part shown after hout hpart hrun hcloses
      obtain ⟨hkept, hhidden, _⟩ := ValueRule.finder_eq hlaw hfind
      have hstops : Stops rule.value out := (hides_of_scanned hlaw hscanned _).stops
        (fun hidden rest hmay => absurd hmay (not_afterLead_mark hlaw)) hhidden.stops
      rcases List.append_eq_append_iff.mp hout with ⟨tail, rfl, hbehind⟩ | ⟨tail, hfront, hrest⟩
      · exact ih tail part shown after hbehind hpart hrun hcloses
      by_cases htail : tail = []
      · rw [htail, List.nil_append] at hrest
        exact ih [] part shown after hrest.symm hpart hrun hcloses
      -- The lead begins in what the match kept, and the value is what it hid.
      rcases List.append_eq_append_iff.mp hfront with ⟨inside, _, hmark⟩ | ⟨lead, hlead, rfl⟩
      · exact absurd (inside_mark hmark htail hrest (hlaw.nonempty part hpart) (hlaw.opening_free part hpart)
          (hlaw.closing_free part hpart)) (hlaw.outside part hpart)
      · rw [List.append_assoc] at hrest
        rcases List.append_eq_append_iff.mp hrest with ⟨more, hmore, hvalue⟩ | ⟨more, hmore, hvalue⟩
        · cases more with
          | nil => exact hrun.eq (run_mark hlaw hstops) hvalue
          | cons d more =>
              obtain ⟨e, others, rfl⟩ := List.exists_cons_of_ne_nil hrun.nonempty
              obtain ⟨rfl, _⟩ := List.cons.inj hvalue
              refine absurd ?_ (hlaw.ends part kept e hpart hkept (hrun.values e List.mem_cons_self))
              exact ⟨front, more, by rw [hlead, hmore]; simp⟩
        · cases more with
          | nil => exact hrun.eq (run_mark hlaw hstops) hvalue.symm
          | cons d more =>
              obtain ⟨rfl, _⟩ := List.cons.inj hvalue
              exact absurd (by rw [hmore]; simp) (hlaw.opening_free part hpart)

theorem Stable.of_append {front rest : List α} (h : Stable rule Leads mark (front ++ rest)) :
    Stable rule Leads mark rest := by
  intro before part shown after hrest
  exact h (front ++ before) part shown after (by rw [hrest, List.append_assoc])

/-- A text in which every value is the mark stays as it is. -/
theorem scan_of_stable (hlaw : rule.Lawful Leads opening inner closing) {text out : List α}
    (h : Scanned rule.finder mark text out) (hstable : Stable rule Leads mark text) : out = text := by
  induction h with
  | done => rfl
  | @skip c rest out _ _ ih =>
      have hrest : Stable rule Leads mark ([c] ++ rest) := hstable
      rw [ih hrest.of_append]
  | @hit kept hidden rest out hfind _ _ ih =>
      obtain ⟨hkept, hrun, hcloses⟩ := ValueRule.finder_eq hlaw hfind
      have hhidden := hstable [] kept hidden rest (by simp) hkept hrun hcloses
      rw [ih hstable.of_append, hhidden]

/-- What else may be hidden of a text without breaking up its values. -/
structure Sparing (Leads : List α → Prop) (value : α → Bool) (opening : α) (inner : List α) (closing : α)
    (may : Option α → List α → List α → Prop) : Prop where
  shorter : ∀ before hidden rest more, may before hidden (rest ++ more) → may before hidden rest
  /-- After a lead only what stands in its value is hidden, and a mark only as a whole. -/
  lead : ∀ part hidden rest, Leads part → may part.getLast? hidden rest →
    (∃ c, hidden.head? = some c ∧ value c = true) ∧
      ∀ after, hidden ++ rest = opening :: inner ++ [closing] ++ after → Stops value after →
        hidden = opening :: inner ++ [closing]
  /-- Nothing is hidden that begins inside a mark. -/
  within : ∀ d c hidden rest, may (some d) hidden rest → d ∈ opening :: inner ++ [closing] → hidden.head? = some c →
    c ∉ opening :: inner ++ [closing]
  behind : ∀ hidden rest, may (some closing) hidden rest → ∃ c, hidden.head? = some c ∧ value c = true

/-- A mark of which the first item was kept is kept. -/
theorem Hides.keeps {may : Option α → List α → List α → Prop} {part text out : List α} {d : α}
    (hmay : ∀ d c hidden rest, may (some d) hidden rest → d ∈ opening :: inner ++ [closing] → hidden.head? = some c →
      c ∉ opening :: inner ++ [closing])
    (hd : d ∈ opening :: inner ++ [closing]) (hpart : ∀ c ∈ part, c ∈ opening :: inner ++ [closing])
    (h : Hides mark may (some d) (part ++ text) out) :
    ∃ left, out = part ++ left ∧ Hides mark may (lastOr (some d) part) text left := by
  induction part generalizing d out with
  | nil => exact ⟨out, rfl, h⟩
  | cons c part ih =>
      rcases h.inv with ⟨hnil, _⟩ | ⟨e, rest, left, htext, rfl, hrest⟩ | ⟨hidden, rest, left, htext, _, hhere, hne, _⟩
      · cases hnil
      · obtain ⟨rfl, rfl⟩ := List.cons.inj htext
        obtain ⟨left, rfl, hleft⟩ := ih (hpart c List.mem_cons_self) (fun e he => hpart e (List.mem_cons_of_mem _ he)) hrest
        exact ⟨left, rfl, by rw [lastOr_cons]; exact hleft⟩
      · obtain ⟨e, hidden, rfl⟩ := List.exists_cons_of_ne_nil hne
        obtain ⟨rfl, _⟩ := List.cons.inj htext
        exact absurd (hpart c List.mem_cons_self) (hmay d c _ rest hhere hd rfl)

/-- Hiding something else leaves every value the mark. -/
theorem Stable.hides (hlaw : rule.Lawful Leads opening inner closing) (hall : ∀ rest, rule.closes rest = true) {may : Option α → List α → List α → Prop}
    (hmay : Sparing Leads rule.value opening inner closing may) {text out : List α} {before : Option α}
    (hstable : Stable rule Leads (opening :: inner ++ [closing]) text)
    (h : Hides (opening :: inner ++ [closing]) may before text out) :
    Stable rule Leads (opening :: inner ++ [closing]) out := by
  intro front part shown after hout hpart hrun _
  have hlast : (opening :: inner ++ [closing]).getLast? = some closing := List.getLast?_concat
  rw [hout, ← List.append_assoc] at h
  obtain ⟨first, rest, rfl, _, hafter⟩ := h.split (hlaw.nonempty part hpart) (hlaw.opening_free part hpart)
    (hlaw.closing_free part hpart) (hlaw.outside part hpart) hmay.shorter
  -- In the text the value begins with an item of a value, so it is the mark.
  have hmark {c : α} {others : List α} (hrest : rest = c :: others) (hc : rule.value c = true) :
      ∃ more, rest = opening :: inner ++ [closing] ++ more ∧ Stops rule.value more := by
    obtain ⟨whole, more, hwhole, hrunWhole⟩ := exists_run others hc
    rw [hwhole] at hrest
    have hvalue := hstable first part (c :: whole) more (by rw [List.append_assoc, hrest]) hpart hrunWhole (hall more)
    exact ⟨more, by rw [← hvalue]; exact hrest, hrunWhole.stops⟩
  obtain ⟨d, more, rfl⟩ := List.exists_cons_of_ne_nil hrun.nonempty
  rcases hafter.inv with ⟨_, hnil⟩ | ⟨e, behind, left, hrest, hkept, hbehind⟩ | ⟨hidden, behind, left, hrest, hleft, hhere, hne, hbehind⟩
  · cases hnil
  · obtain ⟨rfl, rfl⟩ := List.cons.inj hkept
    obtain ⟨tail, htail, hstops⟩ := hmark hrest (hrun.values d List.mem_cons_self)
    rw [htail, List.cons_append, List.cons_append] at hrest
    obtain ⟨rfl, rfl⟩ := List.cons.inj hrest
    obtain ⟨left, hmore, hleft⟩ := hbehind.keeps hmay.within (by simp) (fun c hc => by simp at hc ⊢; tauto)
    have hbracket : lastOr (some opening) (inner ++ [closing]) = some closing := by simp [lastOr]
    rw [hbracket] at hleft
    have hends := hleft.stops hmay.behind hstops
    refine hrun.eq (run_mark hlaw hends) ?_
    exact congrArg (opening :: ·) hmore
  · obtain ⟨⟨c, hc, hvalue⟩, hwhole⟩ := hmay.lead part hidden behind hpart hhere
    obtain ⟨c', hidden, rfl⟩ := List.exists_cons_of_ne_nil hne
    obtain rfl := Option.some.inj hc
    obtain ⟨tail, htail, hstops⟩ := hmark hrest hvalue
    have hsame := hwhole tail (hrest.symm.trans htail) hstops
    rw [hrest, hsame] at htail
    obtain rfl := List.append_cancel_left htail
    rw [hlast] at hbehind
    exact hrun.eq (run_mark hlaw (hbehind.stops hmay.behind hstops)) hleft

/-- What another rule hides after its leads. -/
theorem sparing_afterLead {Others : List α → Prop} {other : α → Bool}
    (hmarks : ∀ c ∈ opening :: inner ++ [closing], other c = true)
    (hlast : ∀ part d, Others part → part.getLast? = some d → d ∉ opening :: inner ++ [closing])
    (hvalue : ∀ part part', Leads part → Others part' → part.getLast? = part'.getLast? →
      ∀ c, other c = true → rule.value c = true) :
    Sparing Leads rule.value opening inner closing (AfterLead Others other) where
  shorter _ _ _ _ h := h.of_append
  lead := by
    rintro part hidden rest hpart ⟨⟨part', hpart', hsame⟩, hrun⟩
    have hvalues := hvalue part part' hpart hpart' hsame.symm
    obtain ⟨c, others, rfl⟩ := List.exists_cons_of_ne_nil hrun.nonempty
    refine ⟨⟨c, rfl, hvalues c (hrun.values c List.mem_cons_self)⟩, fun after hafter hstops => ?_⟩
    have hmark : Run other (opening :: inner ++ [closing]) after := by
      refine ⟨by simp, hmarks, fun d hd => ?_⟩
      by_contra hother
      have hfalse := hstops d hd
      rw [hvalues d (by simpa using hother)] at hfalse
      cases hfalse
    exact hrun.eq hmark hafter
  within := by
    rintro d c hidden rest ⟨⟨part', hpart', hsame⟩, _⟩ hd
    exact absurd hd (hlast part' d hpart' hsame)
  behind := by
    rintro hidden rest ⟨⟨part', hpart', hsame⟩, _⟩
    exact absurd (by simp) (hlast part' closing hpart' hsame)

/-- What begins with an item of a value that stands in no mark. -/
theorem sparing_of_head {may : Option α → List α → List α → Prop}
    (hshorter : ∀ before hidden rest more, may before hidden (rest ++ more) → may before hidden rest)
    (hhead : ∀ before hidden rest, may before hidden rest →
      ∃ c, hidden.head? = some c ∧ rule.value c = true ∧ c ∉ opening :: inner ++ [closing]) :
    Sparing Leads rule.value opening inner closing may where
  shorter := hshorter
  lead := by
    intro part hidden rest _ hmay
    obtain ⟨c, hc, hvalue, hout⟩ := hhead _ _ _ hmay
    obtain ⟨others, rfl⟩ := List.head?_eq_some_iff.mp hc
    refine ⟨⟨c, hc, hvalue⟩, fun after hafter _ => ?_⟩
    rw [List.cons_append, List.cons_append, List.cons_append] at hafter
    rw [(List.cons.inj hafter).1] at hout
    exact absurd List.mem_cons_self hout
  within := by
    intro d c hidden rest hmay _ hc
    obtain ⟨c', hc', _, hout⟩ := hhead _ _ _ hmay
    obtain rfl := Option.some.inj (hc.symm.trans hc')
    exact hout
  behind := by
    intro hidden rest hmay
    obtain ⟨c, hc, hvalue, _⟩ := hhead _ _ _ hmay
    exact ⟨c, hc, hvalue⟩

end Lawful

end Substitution
