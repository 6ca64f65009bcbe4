import AgentArtifacts.Redaction.Leads

/-!
# Shapes and private keys

What the two rules that hide whole matches see: the shapes of bare credentials, and a private key
between its lines.
-/

namespace AgentArtifacts.Redactor

open Substitution

/-! ## Shapes of credentials -/

/-- The beginning of a shape with a run that is long enough. -/
def CredentialShape.Covers (shape : CredentialShape) (part : List Char) : Prop :=
  ∃ first body, part = first ++ body ∧ first.length = shape.lead.length ∧ leads shape.lead first = true ∧
    shape.least ≤ body.length ∧ ∀ c ∈ body, shape.body c = true

def IsCredential (part : List Char) : Prop := ∃ shape ∈ credentialShapes, shape.Covers part

def isShapeChar (c : Char) : Bool := c.isAlphanum || c == '_' || c == '-'

variable {letters : List String}

theorem leads_append {first rest : List Char} (h : first.length = letters.length) :
    leads letters (first ++ rest) = leads letters first := by
  induction letters generalizing first with
  | nil => rw [List.length_eq_zero_iff.mp h, leads, leads]
  | cons allowed letters ih =>
      cases first with
      | nil => cases h
      | cons c first =>
          rw [List.cons_append, leads, leads, ih (Nat.succ.inj h)]

variable {text : List Char}

theorem length_of_leads (h : leads letters text = true) :
    letters.length ≤ text.length := by
  induction letters generalizing text with
  | nil => exact Nat.zero_le _
  | cons allowed letters ih =>
      cases text with
      | nil => cases h
      | cons c text =>
          rw [leads, Bool.and_eq_true] at h
          exact Nat.succ_le_succ (ih h.2)

variable {c : Char}

theorem mem_of_leads {first : List Char} (hlength : first.length = letters.length)
    (h : leads letters first = true) (hc : c ∈ first) : ∃ allowed ∈ letters, c ∈ allowed.toList := by
  induction letters generalizing first with
  | nil =>
      rw [List.length_eq_zero_iff.mp hlength] at hc
      cases hc
  | cons allowed letters ih =>
      cases first with
      | nil => cases hlength
      | cons d first =>
          rw [leads, Bool.and_eq_true, List.contains_iff_mem] at h
          rcases List.mem_cons.mp hc with rfl | hc
          · exact ⟨allowed, List.mem_cons_self, h.1⟩
          · obtain ⟨other, hother, hmem⟩ := ih (Nat.succ.inj hlength) h.2 hc
            exact ⟨other, List.mem_cons_of_mem _ hother, hmem⟩

theorem CredentialShape.matched?_eq {shape : CredentialShape} {length : Nat}
    (h : shape.matched? text = some length) :
    ∃ part rest, text = part ++ rest ∧ part.length = length ∧ shape.Covers part := by
  unfold CredentialShape.matched? at h
  dsimp only at h
  split at h
  · rename_i hboth
    rw [Bool.and_eq_true, decide_eq_true_eq] at hboth
    obtain ⟨hleads, hleast⟩ := hboth
    have hfirst : (text.take shape.lead.length).length = shape.lead.length := by
      rw [List.length_take]
      exact Nat.min_eq_left (length_of_leads hleads)
    have hleadsFirst : leads shape.lead (text.take shape.lead.length) = true := by
      have hwhole := @leads_append shape.lead _ (text.drop shape.lead.length) hfirst
      rw [List.take_append_drop] at hwhole
      rw [← hwhole]
      exact hleads
    have hsplit : text = text.take shape.lead.length ++ ((text.drop shape.lead.length).takeWhile shape.body ++
        (text.drop shape.lead.length).dropWhile shape.body) := by
      rw [List.takeWhile_append_dropWhile, List.take_append_drop]
    have hall : ∀ c ∈ (text.drop shape.lead.length).takeWhile shape.body, shape.body c = true :=
      fun c hc => List.mem_takeWhile_imp hc
    generalize (text.drop shape.lead.length).takeWhile shape.body = run at h hleast hsplit hall
    generalize (text.drop shape.lead.length).dropWhile shape.body = behind at hsplit
    generalize text.take shape.lead.length = first at hfirst hleadsFirst hsplit
    split at h
    · refine ⟨first ++ run, behind, by rw [hsplit]; simp, ?_, first, run, rfl, hfirst, hleadsFirst, hleast, hall⟩
      rw [List.length_append, hfirst]
      exact Option.some.inj h
    · refine ⟨first ++ run.take shape.least, run.drop shape.least ++ behind, ?_, ?_, first, run.take shape.least, rfl, hfirst,
        hleadsFirst, ?_, fun c hc => hall c (List.mem_of_mem_take hc)⟩
      · rw [hsplit, List.append_assoc, ← List.append_assoc (run.take _), List.take_append_drop]
      · rw [List.length_append, hfirst, List.length_take, Nat.min_eq_left hleast]
        exact Option.some.inj h
      · rw [List.length_take, Nat.min_eq_left hleast]
  · cases h

variable {part : List Char}

theorem CredentialShape.Covers.found {shape : CredentialShape} (h : shape.Covers part) (rest : List Char) :
    shape.matched? (part ++ rest) ≠ none := by
  obtain ⟨first, body, rfl, hlength, hleads, hleast, hbody⟩ := h
  have hrun : shape.least ≤ ((body ++ rest).takeWhile shape.body).length := by
    rw [List.takeWhile_append_of_pos hbody, List.length_append]
    omega
  unfold CredentialShape.matched?
  dsimp only
  rw [List.append_assoc, leads_append hlength, hleads, ← hlength, List.drop_left, if_pos (by simpa using hrun)]
  exact Option.some_ne_none _

theorem credentialShape_eq {kept hidden : Nat} (h : credentialShape text = some (kept, hidden)) :
    kept = 0 ∧ ∃ part rest, text = part ++ rest ∧ part.length = hidden ∧ IsCredential part := by
  rw [credentialShape, Option.map_eq_some_iff] at h
  obtain ⟨length, hfind, hpair⟩ := h
  obtain ⟨hkept, hlength⟩ := Prod.mk.inj hpair
  obtain ⟨shape, hshape, hmatched⟩ := List.exists_of_findSome?_eq_some hfind
  obtain ⟨part, rest, htext, hpart, hcovers⟩ := shape.matched?_eq hmatched
  exact ⟨hkept.symm, part, rest, htext, by rw [hpart, hlength], shape, hshape, hcovers⟩

theorem IsCredential.found (h : IsCredential part) (rest : List Char) : credentialShape (part ++ rest) ≠ none := by
  obtain ⟨shape, hshape, hcovers⟩ := h
  rw [credentialShape, Ne, Option.map_eq_none_iff, List.findSome?_eq_none_iff]
  intro hnone
  exact hcovers.found rest (hnone shape hshape)

theorem isShapeChar_of_body {shape : CredentialShape} (hshape : shape ∈ credentialShapes)
    (hc : shape.body c = true) : isShapeChar c = true := by
  have alphanum : ∀ c : Char, c.isAlphanum = true → isShapeChar c = true := fun c hc => by simp [isShapeChar, hc]
  simp only [credentialShapes, List.mem_cons, List.not_mem_nil, or_false] at hshape
  rcases hshape with rfl | rfl | rfl | rfl | rfl
  · exact alphanum c hc
  · simp only [Bool.or_eq_true] at hc
    rcases hc with hc | hc <;> simp [isShapeChar, hc]
  · simp only [Bool.or_eq_true] at hc
    rcases hc with hc | hc <;> simp [isShapeChar, hc]
  · simp only [Bool.or_eq_true] at hc
    rcases hc with hc | hc <;> simp [isShapeChar, Char.isAlphanum, isAlpha_eq, hc]
  · exact alphanum c hc

theorem IsCredential.char (h : IsCredential part) (hc : c ∈ part) : isShapeChar c = true := by
  obtain ⟨shape, hshape, first, body, rfl, hlength, hleads, _, hbody⟩ := h
  have hletters : ∀ shape ∈ credentialShapes, ∀ allowed ∈ shape.lead, ∀ c ∈ allowed.toList, isShapeChar c = true := by decide
  rcases List.mem_append.mp hc with hc | hc
  · obtain ⟨allowed, hallowed, hmem⟩ := mem_of_leads hlength hleads hc
    exact hletters shape hshape allowed hallowed c hmem
  · exact isShapeChar_of_body hshape (hbody c hc)

theorem IsCredential.length (h : IsCredential part) : 9 ≤ part.length := by
  obtain ⟨shape, hshape, first, body, rfl, hlength, _, hleast, _⟩ := h
  have hall : ∀ shape ∈ credentialShapes, 9 ≤ shape.lead.length + shape.least := by decide
  have hshort := hall shape hshape
  rw [List.length_append]
  omega

/-- The letters that a credential begins with. -/
theorem IsCredential.head (h : IsCredential part) :
    ∃ c ∈ "gxAs".toList, part.head? = some c := by
  obtain ⟨shape, hshape, first, body, rfl, hlength, hleads, _⟩ := h
  have hall : ∀ shape ∈ credentialShapes, ∃ allowed ∈ shape.lead.head?, ∀ c ∈ allowed.toList, c ∈ "gxAs".toList := by decide
  obtain ⟨allowed, hallowed, hletters⟩ := hall shape hshape
  obtain ⟨more, hmore⟩ := List.head?_eq_some_iff.mp hallowed
  rw [hmore] at hlength hleads
  cases first with
  | nil => cases hlength
  | cons c first =>
      rw [leads, Bool.and_eq_true, List.contains_iff_mem] at hleads
      exact ⟨c, hletters c hleads.1, rfl⟩

theorem credentialShape_sound : Sound credentialShape := by
  intro text kept hidden h
  obtain ⟨rfl, part, rest, rfl, rfl, hcredential⟩ := credentialShape_eq h
  have hlength := hcredential.length
  refine ⟨by omega, ?_⟩
  rw [Nat.zero_add, List.length_append]
  omega

theorem credential_seen : Seen credentialShape (fun part _ => IsCredential part) '[' "redacted".toList ']' where
  nonempty := by
    rintro _ _ h rfl
    exact absurd h.length (by decide)
  opening_free _ _ h hmem := absurd (h.char hmem) (by decide)
  closing_free _ _ h hmem := absurd (h.char hmem) (by decide)
  outside := by
    intro part after h hinfix
    exact absurd (le_trans h.length hinfix.length_le) (by decide)
  found part after h := h.found after
  parts := by
    intro text h
    obtain ⟨⟨kept, hidden⟩, hfind⟩ := Option.ne_none_iff_exists'.mp h
    obtain ⟨_, part, rest, htext, _, hcredential⟩ := credentialShape_eq hfind
    exact ⟨part, rest, htext, hcredential⟩
  hidden _ _ _ _ _ h := h

/-- What this rule hides is a credential. -/
theorem credential_of_hit {kept hidden rest : List Char}
    (h : credentialShape (kept ++ hidden ++ rest) = some (kept.length, hidden.length)) : kept = [] ∧ IsCredential hidden := by
  obtain ⟨hkept, part, behind, htext, hlength, hcredential⟩ := credentialShape_eq h
  obtain rfl := List.length_eq_zero_iff.mp hkept
  rw [List.nil_append] at htext
  rw [(List.append_inj htext hlength.symm).1]
  exact ⟨rfl, hcredential⟩

variable {e : Char}

theorem takeWhile_of_break {body : Char → Bool} (he : body e = false) (text more : List Char) :
    (text ++ e :: more).takeWhile body = text.takeWhile body := by
  induction text with
  | nil => simp [he]
  | cons c text ih =>
      rw [List.cons_append, List.takeWhile_cons, List.takeWhile_cons, ih]

theorem leads_of_break (he : ∀ allowed ∈ letters, e ∉ allowed.toList)
    (text more : List Char) : leads letters (text ++ e :: more) = leads letters text := by
  induction letters generalizing text with
  | nil => rw [leads, leads]
  | cons allowed letters ih =>
      cases text with
      | nil =>
          have hfalse : allowed.toList.contains e = false := by simpa using he allowed List.mem_cons_self
          rw [List.nil_append, leads, leads, hfalse, Bool.false_and]
      | cons c text =>
          rw [List.cons_append, leads, leads, ih (fun other hother => he other (List.mem_cons_of_mem _ hother))]

/-- A letter that stands in no shape: what follows it does not matter. -/
theorem credentialShape_of_break (he : isShapeChar e = false) (text more : List Char) :
    credentialShape (text ++ e :: more) = credentialShape text := by
  have hletters : ∀ shape ∈ credentialShapes, ∀ allowed ∈ shape.lead, e ∉ allowed.toList := by
    intro shape hshape allowed hallowed hmem
    have hall : ∀ shape ∈ credentialShapes, ∀ allowed ∈ shape.lead, ∀ c ∈ allowed.toList, isShapeChar c = true := by decide
    rw [hall shape hshape allowed hallowed e hmem] at he
    cases he
  have hmatched : ∀ shape ∈ credentialShapes, shape.matched? (text ++ e :: more) = shape.matched? text := by
    intro shape hshape
    unfold CredentialShape.matched?
    dsimp only
    rw [leads_of_break (hletters shape hshape)]
    by_cases hleads : leads shape.lead text = true
    · rw [List.drop_append_of_le_length (length_of_leads hleads), takeWhile_of_break]
      by_contra hbody
      have hchar := isShapeChar_of_body hshape (by simpa using hbody)
      rw [he] at hchar
      cases hchar
    · rw [Bool.not_eq_true] at hleads
      rw [hleads, Bool.false_and, Bool.false_and, if_neg Bool.false_ne_true, if_neg Bool.false_ne_true]
  rw [credentialShape, credentialShape]
  refine congrArg _ ?_
  generalize credentialShapes = shapes at hmatched
  induction shapes with
  | nil => rfl
  | cons shape shapes ih =>
      rw [List.findSome?_cons, List.findSome?_cons, hmatched shape List.mem_cons_self,
        ih (fun other hother => hmatched other (List.mem_cons_of_mem _ hother))]

theorem credentialShape_firm (he : isShapeChar e = false) (hmark : e ∉ '[' :: "redacted".toList ++ [']']) :
    Firm credentialShape ('[' :: "redacted".toList ++ [']']) e where
  nonempty := by simp
  marked := hmark
  head := by
    intro more
    rw [← List.nil_append (e :: more), credentialShape_of_break he]
    decide
  kept := by
    intro kept hidden rest h
    rw [(credential_of_hit h).1]
    exact List.not_mem_nil
  skips := by
    intro text more
    rw [credentialShape_of_break he, credentialShape_of_break he]
  hits := by
    intro kept hidden rest more
    rw [← List.append_assoc, ← List.append_assoc, credentialShape_of_break he, credentialShape_of_break he]

/-! ## Private keys -/

def IsKeyLine (word : String) (part : List Char) : Prop :=
  ∃ kind, (kind = [] ∨ ∃ name, kind = ' ' :: name ∧ name ≠ [] ∧ ∀ c ∈ name, c.isUpper = true) ∧
    part = ("-----" ++ word).toList ++ kind ++ " PRIVATE KEY-----".toList

variable {word : String}

theorem keyLine_eq {length : Nat} (h : keyLine word text = some length) :
    ∃ part rest, text = part ++ rest ∧ part.length = length ∧ IsKeyLine word part := by
  unfold keyLine at h
  dsimp only at h
  split at h
  · rename_i hopening
    obtain ⟨rest, rfl⟩ := List.isPrefixOf_iff_prefix.mp hopening
    rw [List.drop_left] at h
    split at h
    · rename_i hkind
      simp only [Bool.and_eq_true, beq_iff_eq, List.isPrefixOf_iff_prefix, Bool.not_eq_true', List.isEmpty_eq_false_iff] at hkind
      obtain ⟨⟨hspace, hname⟩, behind, hbehind⟩ := hkind
      obtain ⟨rest, rfl⟩ := List.head?_eq_some_iff.mp hspace
      rw [List.drop_one, List.tail_cons] at hname hbehind h
      rw [List.drop_succ_cons] at hbehind
      have hsplit : rest.takeWhile Char.isUpper ++ rest.drop (rest.takeWhile Char.isUpper).length = rest :=
        List.prefix_iff_eq_append.mp (List.takeWhile_prefix _)
      refine ⟨_, behind, ?_, ?_, ' ' :: rest.takeWhile Char.isUpper,
        Or.inr ⟨_, rfl, hname, fun c hc => List.mem_takeWhile_imp hc⟩, rfl⟩
      · rw [List.append_assoc, List.append_assoc, hbehind, List.cons_append, hsplit]
      · rw [← Option.some.inj h, List.length_append, List.length_append, List.length_cons]
    · split at h
      · rename_i hclosing
        obtain ⟨behind, rfl⟩ := List.isPrefixOf_iff_prefix.mp hclosing
        refine ⟨_, behind, ?_, ?_, [], Or.inl rfl, rfl⟩
        · rw [List.append_nil, List.append_assoc]
        · rw [← Option.some.inj h, List.append_nil, List.length_append]
      · cases h
  · cases h

theorem IsKeyLine.found (h : IsKeyLine word part) (rest : List Char) :
    keyLine word (part ++ rest) = some part.length := by
  obtain ⟨kind, hkind, rfl⟩ := h
  have hopening : ("-----" ++ word).toList.isPrefixOf (("-----" ++ word).toList ++ kind ++ " PRIVATE KEY-----".toList ++ rest) =
      true := by
    rw [List.isPrefixOf_iff_prefix, List.append_assoc, List.append_assoc]
    exact List.prefix_append _ _
  unfold keyLine
  dsimp only
  rw [if_pos hopening, List.append_assoc, List.append_assoc, List.drop_left]
  rcases hkind with rfl | ⟨name, rfl, hne, hname⟩
  · have hrun : (([] ++ (" PRIVATE KEY-----".toList ++ rest)).drop 1).takeWhile Char.isUpper = "PRIVATE".toList := rfl
    have hspace : (" PRIVATE KEY-----".toList).isPrefixOf
        (([] ++ (" PRIVATE KEY-----".toList ++ rest)).drop ("PRIVATE".toList.length + 1)) = false := rfl
    rw [hrun, hspace, Bool.and_false, if_neg Bool.false_ne_true, List.nil_append,
      if_pos (List.isPrefixOf_iff_prefix.mpr (List.prefix_append _ _))]
    simp
  · have hrun : ((' ' :: name ++ (" PRIVATE KEY-----".toList ++ rest)).drop 1).takeWhile Char.isUpper = name := by
      refine takeWhile_of_stops hname (fun c hc => ?_)
      obtain rfl := Option.some.inj hc
      decide
    have hbehind : (' ' :: name ++ (" PRIVATE KEY-----".toList ++ rest)).drop (name.length + 1) =
        " PRIVATE KEY-----".toList ++ rest := by
      rw [List.cons_append, List.drop_succ_cons, List.drop_left]
    have hempty : name.isEmpty = false := by simpa using hne
    rw [hrun, hbehind, hempty, List.isPrefixOf_iff_prefix.mpr (List.prefix_append _ _)]
    simp
    omega

theorem IsKeyLine.nonempty (h : IsKeyLine word part) : part ≠ [] := by
  obtain ⟨kind, _, rfl⟩ := h
  simp

theorem IsKeyLine.dash (h : IsKeyLine word part) : '-' ∈ part := by
  obtain ⟨kind, _, rfl⟩ := h
  simp

theorem IsKeyLine.char (h : IsKeyLine word part) (hc : c ∈ part) :
    c ∈ "-----".toList ∨ c ∈ word.toList ∨ c = ' ' ∨ c.isUpper = true ∨ c ∈ " PRIVATE KEY-----".toList := by
  obtain ⟨kind, hkind, rfl⟩ := h
  rw [List.mem_append, List.mem_append, String.toList_append, List.mem_append] at hc
  rcases hc with ((hc | hc) | hc) | hc
  · exact Or.inl hc
  · exact Or.inr (Or.inl hc)
  · rcases hkind with rfl | ⟨name, rfl, _, hname⟩
    · cases hc
    · rcases List.mem_cons.mp hc with rfl | hc
      · exact Or.inr (Or.inr (Or.inl rfl))
      · exact Or.inr (Or.inr (Or.inr (Or.inl (hname c hc))))
  · exact Or.inr (Or.inr (Or.inr (Or.inr hc)))

theorem keyEnd_eq {length : Nat} (h : keyEnd text = some length) :
    ∃ middle line rest, text = middle ++ (line ++ rest) ∧ length = middle.length + line.length ∧ IsKeyLine "END" line := by
  induction text generalizing length with
  | nil => cases h
  | cons c text ih =>
      rw [keyEnd] at h
      split at h
      · rename_i found hline
        obtain ⟨line, rest, htext, hlength, hkey⟩ := keyLine_eq hline
        refine ⟨[], line, rest, htext, ?_, hkey⟩
        rw [hlength, List.length_nil, Nat.zero_add]
        exact (Option.some.inj h).symm
      · obtain ⟨found, hfound, hlength⟩ := Option.map_eq_some_iff.mp h
        obtain ⟨middle, line, rest, rfl, rfl, hkey⟩ := ih hfound
        refine ⟨c :: middle, line, rest, rfl, ?_, hkey⟩
        rw [← hlength, List.length_cons]
        omega

theorem keyEnd_ne_none {middle line rest : List Char} (h : IsKeyLine "END" line) :
    keyEnd (middle ++ (line ++ rest)) ≠ none := by
  induction middle with
  | nil =>
      obtain ⟨c, others, hline⟩ := List.exists_cons_of_ne_nil h.nonempty
      have hfound := h.found rest
      rw [hline, List.cons_append] at hfound
      rw [List.nil_append, hline, List.cons_append, keyEnd, hfound]
      exact Option.some_ne_none _
  | cons c middle ih =>
      rw [List.cons_append, keyEnd]
      split
      · exact Option.some_ne_none _
      · simpa using ih

/-- The first line of a key with its last line somewhere behind. -/
def KeyBegins (part after : List Char) : Prop :=
  IsKeyLine "BEGIN" part ∧ ∃ middle line rest, after = middle ++ (line ++ rest) ∧ IsKeyLine "END" line

theorem privateKey_eq {kept hidden : Nat} (h : privateKey text = some (kept, hidden)) :
    kept = 0 ∧ 0 < hidden ∧ hidden ≤ text.length ∧ ∃ part after, text = part ++ after ∧ KeyBegins part after := by
  unfold privateKey at h
  split at h
  · cases h
  · rename_i length hline
    obtain ⟨part, after, rfl, rfl, hbegin⟩ := keyLine_eq hline
    rw [List.drop_left] at h
    obtain ⟨behind, hend, hpair⟩ := Option.map_eq_some_iff.mp h
    obtain ⟨hkept, hhidden⟩ := Prod.mk.inj hpair
    obtain ⟨middle, line, rest, rfl, rfl, hkey⟩ := keyEnd_eq hend
    have hpositive := List.length_pos_iff.mpr hbegin.nonempty
    refine ⟨hkept.symm, by omega, ?_, part, _, rfl, hbegin, middle, line, rest, rfl, hkey⟩
    rw [← hhidden]
    simp only [List.length_append]
    omega

theorem privateKey_sound : Sound privateKey := by
  intro text kept hidden h
  obtain ⟨rfl, hpositive, hwithin, _⟩ := privateKey_eq h
  exact ⟨hpositive, by omega⟩

theorem privateKey_seen {inner : List Char} (hinner : '-' ∉ inner) : Seen privateKey KeyBegins '[' inner ']' where
  nonempty _ _ h := h.1.nonempty
  opening_free _ _ h hmem := absurd (h.1.char hmem) (by decide)
  closing_free _ _ h hmem := absurd (h.1.char hmem) (by decide)
  outside _ _ h hinfix := hinner ( hinfix.subset h.1.dash)
  found := by
    rintro part after ⟨hbegin, middle, line, rest, rfl, hend⟩
    unfold privateKey
    rw [hbegin.found]
    dsimp only
    rw [List.drop_left]
    simpa using keyEnd_ne_none hend
  parts := by
    intro text h
    obtain ⟨⟨kept, hidden⟩, hfind⟩ := Option.ne_none_iff_exists'.mp h
    obtain ⟨_, _, _, part, after, htext, hkey⟩ := privateKey_eq hfind
    exact ⟨part, after, htext, hkey⟩
  hidden := by
    rintro before part rest after hhides ⟨hbegin, middle, line, behind, rfl, hend⟩
    rw [← List.append_assoc] at hhides
    have hopening : '[' ∉ line := fun hmem => absurd (hend.char hmem) (by decide)
    have hclosing : ']' ∉ line := fun hmem => absurd (hend.char hmem) (by decide)
    obtain ⟨first, left, htext, _, _⟩ := hhides.split hend.nonempty hopening hclosing
      (fun hinfix => hinner ( hinfix.subset hend.dash)) (fun _ _ _ _ _ => trivial)
    exact ⟨hbegin, first, line, left, by rw [htext, List.append_assoc], hend⟩

end AgentArtifacts.Redactor
