import AgentArtifacts.Library.Passage
import AgentArtifacts.Redaction.Rules

/-!
# The leads of the rules

Which texts the three value rules keep, and that these stand to the mark as the library asks.
-/

namespace AgentArtifacts.Redactor

open Substitution

/-! ## What the leads are -/

def IsUrlPrefix (part : List Char) : Prop :=
  ∃ c run, part = c :: (run ++ "://".toList) ∧ isLetter c = true ∧ ∀ d ∈ run, isSchemeChar d = true

def IsQueryPrefix (part : List Char) : Prop :=
  ∃ c name, part = c :: (name ++ ['=']) ∧ (c = '?' ∨ c = '&') ∧ ∃ known ∈ queryNames, name.map foldCase = known.toList

def IsAssignmentPrefix (part : List Char) : Prop :=
  ∃ name gap sign behind, part = name ++ (gap ++ sign :: behind) ∧ isSensitive name = true ∧
    (∀ c ∈ name, isNameChar c = true) ∧ (∀ c ∈ gap, isSpace c = true) ∧ (sign = ':' ∨ sign = '=') ∧
    ∀ c ∈ behind, isSpace c = true

theorem urlPrefix_eq {text : List Char} {length : Nat} (h : urlPrefix text = some length) :
    ∃ part rest, text = part ++ rest ∧ part.length = length ∧ IsUrlPrefix part := by
  cases text with
  | nil => cases h
  | cons c rest =>
      rw [urlPrefix] at h
      split at h
      · rename_i hboth
        rw [Bool.and_eq_true, List.isPrefixOf_iff_prefix] at hboth
        obtain ⟨hletter, more, hmore⟩ := hboth
        refine ⟨c :: (rest.takeWhile isSchemeChar ++ "://".toList), more, ?_, ?_, c, _, rfl, hletter, ?_⟩
        · have hsplit : rest.takeWhile isSchemeChar ++ rest.drop (rest.takeWhile isSchemeChar).length = rest := by
            exact List.prefix_iff_eq_append.mp (List.takeWhile_prefix _)
          rw [List.cons_append, List.append_assoc, hmore, hsplit]
        · rw [List.length_cons, List.length_append]
          exact Option.some.inj h
        · exact fun d hd => List.mem_takeWhile_imp hd
      · cases h

variable {part : List Char}

theorem urlPrefix_reads (h : IsUrlPrefix part) (rest : List Char) :
    urlPrefix (part ++ rest) = some part.length := by
  obtain ⟨c, run, rfl, hletter, hrun⟩ := h
  have hstops : Stops isSchemeChar ("://".toList ++ rest) := by
    intro d hd
    obtain rfl := Option.some.inj hd
    decide
  rw [List.cons_append, List.append_assoc, urlPrefix]
  rw [takeWhile_of_stops hrun hstops, List.drop_left, hletter, List.isPrefixOf_iff_prefix.mpr (List.prefix_append _ _)]
  simp

theorem queryPrefix_eq {text : List Char} {length : Nat} (h : queryPrefix text = some length) :
    ∃ part rest, text = part ++ rest ∧ part.length = length ∧ IsQueryPrefix part := by
  cases text with
  | nil => cases h
  | cons c rest =>
      rw [queryPrefix] at h
      split at h
      · rename_i hopens
        obtain ⟨known, hknown, hnamed⟩ := List.exists_of_findSome?_eq_some h
        split at hnamed
        · rename_i hname
          obtain ⟨hname, hsign⟩ := hname
          obtain ⟨more, hmore⟩ := List.head?_eq_some_iff.mp hsign
          have hlength : (rest.take known.length).length = known.length := by
            have hmap := congrArg List.length hname
            rwa [List.length_map] at hmap
          refine ⟨c :: (rest.take known.length ++ ['=']), more, ?_, ?_, c, _, rfl, ?_, known, hknown, hname⟩
          · rw [List.cons_append, List.append_assoc, List.singleton_append, ← hmore, List.take_append_drop]
          · rw [List.length_cons, List.length_append, hlength]
            exact Option.some.inj hnamed
          · simpa using hopens
        · cases hnamed
      · cases h

variable {c : Char}

theorem queryName_char {known : String} {name : List Char} (hknown : known ∈ queryNames)
    (hname : name.map foldCase = known.toList) (hc : c ∈ name) : isNameChar (foldCase c) = true := by
  have hall : ∀ known ∈ queryNames, ∀ d ∈ known.toList, isNameChar d = true := by decide
  apply hall known hknown
  rw [← hname]
  exact List.mem_map_of_mem hc

theorem queryPrefix_reads (h : IsQueryPrefix part) (rest : List Char) :
    queryPrefix (part ++ rest) = some part.length := by
  obtain ⟨c, name, rfl, hopens, known, hknown, hname⟩ := h
  have hlength : name.length = known.length := by
    have hmap := congrArg List.length hname
    rwa [List.length_map] at hmap
  have hseen : (queryNames.findSome? fun known =>
      if ((name ++ '=' :: rest).take known.length).map foldCase = known.toList ∧
          ((name ++ '=' :: rest).drop known.length).head? = some '=' then some (known.length + 2) else none) ≠ none := by
    rw [Ne, List.findSome?_eq_none_iff]
    intro hnone
    have hfalse := hnone known hknown
    rw [← hlength, List.take_left, List.drop_left, if_pos ⟨hname, rfl⟩] at hfalse
    cases hfalse
  obtain ⟨length, hfind⟩ := Option.ne_none_iff_exists'.mp hseen
  obtain ⟨other, hother, hsome⟩ := List.exists_of_findSome?_eq_some hfind
  split at hsome
  · rename_i hboth
    obtain ⟨htake, hsign⟩ := hboth
    obtain ⟨more, hmore⟩ := List.head?_eq_some_iff.mp hsign
    have hsplit : name ++ '=' :: rest = (name ++ '=' :: rest).take other.length ++ '=' :: more := by
      rw [← hmore, List.take_append_drop]
    have hfirst : '=' ∉ name := fun hmem => absurd (queryName_char hknown hname hmem) (by decide)
    have hsecond : '=' ∉ (name ++ '=' :: rest).take other.length :=
      fun hmem => absurd (queryName_char hother htake hmem) (by decide)
    have hsame := (Text.append_sep_inj hfirst hsecond hsplit).1
    have hlengths : other.length = name.length := by
      have hmap := congrArg List.length htake
      rw [List.length_map, ← hsame] at hmap
      exact hmap.symm
    rw [List.cons_append, List.append_assoc, List.singleton_append, queryPrefix, if_pos (by simpa using hopens), hfind,
      ← Option.some.inj hsome, hlengths]
    simp
  · cases hsome

theorem assignmentPrefix_eq {text : List Char} {length : Nat} (h : assignmentPrefix text = some length) :
    ∃ part rest, text = part ++ rest ∧ part.length = length ∧ IsAssignmentPrefix part := by
  unfold assignmentPrefix at h
  dsimp only at h
  split at h
  · cases h
  · rename_i sign rest hsign
    split at h
    · rename_i hboth
      rw [Bool.and_eq_true] at hboth
      refine ⟨text.takeWhile isNameChar ++ ((text.dropWhile isNameChar).takeWhile isSpace ++ sign :: rest.takeWhile isSpace),
        rest.dropWhile isSpace, ?_, ?_, _, _, sign, _, rfl, hboth.1, ?_, ?_, by simpa using hboth.2, ?_⟩
      · rw [List.append_assoc, List.append_assoc, List.cons_append, List.takeWhile_append_dropWhile, ← hsign,
          List.takeWhile_append_dropWhile, List.takeWhile_append_dropWhile]
      · rw [← Option.some.inj h]
        simp
        omega
      · exact fun c hc => List.mem_takeWhile_imp hc
      · exact fun c hc => List.mem_takeWhile_imp hc
      · exact fun c hc => List.mem_takeWhile_imp hc
    · cases h

theorem not_space_of_isLetter (h : isLetter c = true) : isSpace c = false := by
  unfold isLetter foldCase at h
  split at h
  · rename_i hcase
    rcases hcase with rfl | rfl <;> decide
  · split at h
    · rename_i hcase
      rw [hcase]
      decide
    · split at h
      · rename_i hcase
        rw [hcase]
        decide
      · apply not_space_of_alphanum
        delta Char.toLower at h
        split at h
        · rename_i hupper
          have hletter : c.isUpper = true := by simpa [isUpper_eq] using hupper
          simp [Char.isAlphanum, isAlpha_eq, hletter]
        · simp [Char.isAlphanum, isAlpha_eq, h]

/-- No space stands in a name. -/
theorem not_space_of_isNameChar (h : isNameChar c = true) : isSpace c = false := by
  simp only [isNameChar, Bool.or_eq_true, beq_iff_eq] at h
  rcases h with (((hletter | hdigit) | rfl) | rfl) | rfl
  · exact not_space_of_isLetter hletter
  · exact not_space_of_alphanum (by simp [Char.isAlphanum, hdigit])
  · decide
  · decide
  · decide

theorem assignmentPrefix_reads (h : IsAssignmentPrefix part) {rest : List Char}
    (hrest : Stops isSpace rest) : assignmentPrefix (part ++ rest) = some part.length := by
  obtain ⟨name, gap, sign, behind, rfl, hsensitive, hname, hgap, hsign, hbehind⟩ := h
  have hsignSpace : isSpace sign = false := by
    rcases hsign with rfl | rfl <;> decide
  have hgapStops : Stops isSpace (sign :: (behind ++ rest)) := by
    intro c hc
    rw [← Option.some.inj hc]
    exact hsignSpace
  have hnameStops : Stops isNameChar (gap ++ sign :: (behind ++ rest)) := by
    intro c hc
    by_contra hvalue
    have hspace := not_space_of_isNameChar (by simpa using hvalue)
    cases gap with
    | nil =>
        obtain rfl := Option.some.inj hc
        rcases hsign with rfl | rfl
        · exact hvalue (by decide)
        · exact hvalue (by decide)
    | cons d gap =>
        obtain rfl := Option.some.inj hc
        rw [hgap d List.mem_cons_self] at hspace
        cases hspace
  have htext : name ++ (gap ++ sign :: behind) ++ rest = name ++ (gap ++ sign :: (behind ++ rest)) := by simp
  unfold assignmentPrefix
  dsimp only
  rw [htext, takeWhile_of_stops hname hnameStops, dropWhile_of_stops hname hnameStops, takeWhile_of_stops hgap hgapStops,
    dropWhile_of_stops hgap hgapStops]
  dsimp only
  rw [takeWhile_of_stops hbehind hrest, hsensitive, if_pos (by simpa using hsign)]
  simp
  omega

/-! ## How they stand to the mark -/

theorem IsUrlPrefix.char (h : IsUrlPrefix part) (hc : c ∈ part) :
    isSchemeChar c = true ∨ c = ':' ∨ c = '/' := by
  obtain ⟨d, run, rfl, hletter, hrun⟩ := h
  rw [List.mem_cons, List.mem_append] at hc
  rcases hc with rfl | hc | hc
  · exact Or.inl (by simp [isSchemeChar, hletter])
  · exact Or.inl (hrun c hc)
  · exact Or.inr (by simpa using hc)

theorem IsQueryPrefix.char (h : IsQueryPrefix part) (hc : c ∈ part) :
    (c = '?' ∨ c = '&') ∨ isNameChar (foldCase c) = true ∨ c = '=' := by
  obtain ⟨d, name, rfl, hopens, known, hknown, hname⟩ := h
  rw [List.mem_cons, List.mem_append, List.mem_singleton] at hc
  rcases hc with rfl | hc | hc
  · exact Or.inl hopens
  · exact Or.inr (Or.inl (queryName_char hknown hname hc))
  · exact Or.inr (Or.inr hc)

theorem IsAssignmentPrefix.char (h : IsAssignmentPrefix part) (hc : c ∈ part) :
    isNameChar c = true ∨ isSpace c = true ∨ c = ':' ∨ c = '=' := by
  obtain ⟨name, gap, sign, behind, rfl, _, hname, hgap, hsign, hbehind⟩ := h
  rw [List.mem_append, List.mem_append, List.mem_cons] at hc
  rcases hc with hc | hc | rfl | hc
  · exact Or.inl (hname c hc)
  · exact Or.inr (Or.inl (hgap c hc))
  · exact Or.inr (Or.inr hsign)
  · exact Or.inr (Or.inl (hbehind c hc))

theorem IsUrlPrefix.last (h : IsUrlPrefix part) (hc : part.getLast? = some c) : c = '/' := by
  obtain ⟨d, run, rfl, _, _⟩ := h
  rw [← List.cons_append, List.getLast?_append] at hc
  exact (Option.some.inj hc).symm

theorem IsQueryPrefix.last (h : IsQueryPrefix part) (hc : part.getLast? = some c) : c = '=' := by
  obtain ⟨d, name, rfl, _⟩ := h
  rw [← List.cons_append, List.getLast?_concat] at hc
  exact (Option.some.inj hc).symm

theorem IsAssignmentPrefix.last (h : IsAssignmentPrefix part) (hc : part.getLast? = some c) :
    isSpace c = true ∨ c = ':' ∨ c = '=' := by
  obtain ⟨name, gap, sign, behind, rfl, _, _, _, hsign, hbehind⟩ := h
  rw [← List.append_assoc, List.getLast?_append, List.getLast?_cons] at hc
  cases hlast : behind.getLast? with
  | none =>
      rw [hlast] at hc
      obtain rfl := Option.some.inj hc
      exact Or.inr hsign
  | some d =>
      rw [hlast] at hc
      obtain rfl := Option.some.inj hc
      exact Or.inl (hbehind d (List.mem_of_getLast? hlast))

/-- Around the sign that stands once in a text, a part of the text goes as the text does. -/
theorem tail_of_infix (sign : Char → Bool) {first front tail behind : List Char} {e d c : Char} (hd : sign d = true)
    (hfirst : ∀ x ∈ first, sign x = false) (htail : ∀ x ∈ tail, sign x = false)
    (h : front ++ d :: behind ++ [c] <:+: first ++ e :: tail) : ∃ more, tail = behind ++ c :: more := by
  obtain ⟨before, after, hwhole⟩ := h
  have hsplit : before ++ front ++ d :: (behind ++ c :: after) = first ++ e :: tail := by
    rw [← hwhole]
    simp
  rcases List.append_eq_append_iff.mp hsplit with ⟨middle, hleft, hright⟩ | ⟨middle, hleft, hright⟩
  · cases middle with
    | nil => exact ⟨after, (List.cons.inj hright).2.symm⟩
    | cons x middle =>
        obtain ⟨rfl, _⟩ := List.cons.inj hright
        have hfalse := hfirst d (by rw [hleft]; simp)
        rw [hd] at hfalse
        cases hfalse
  · cases middle with
    | nil => exact ⟨after, (List.cons.inj hright).2⟩
    | cons x middle =>
        obtain ⟨_, rfl⟩ := List.cons.inj hright
        have hfalse := htail d (by simp)
        rw [hd] at hfalse
        cases hfalse

theorem url_lawful : urlRule.Lawful IsUrlPrefix '[' "redacted".toList ']' where
  reads part c rest hpart _ := urlPrefix_reads hpart (c :: rest)
  found := by
    intro part c rest hlead _
    obtain ⟨part', rest', htext, hlength, hpart'⟩ := urlPrefix_eq hlead
    rw [(List.append_inj htext hlength.symm).1]
    exact hpart'
  within := by
    intro text kept hlead
    obtain ⟨part, rest, rfl, rfl, _⟩ := urlPrefix_eq hlead
    simp
  nonempty := by
    rintro part ⟨c, run, rfl, _⟩
    exact List.cons_ne_nil _ _
  opening_free part hpart hmem := absurd (hpart.char hmem) (by decide)
  closing_free part hpart hmem := absurd (hpart.char hmem) (by decide)
  outside := by
    rintro part ⟨c, run, rfl, _⟩ hinfix
    have hmem : ':' ∈ "redacted".toList := hinfix.subset (by simp)
    exact absurd hmem (by decide)
  ends := by
    rintro part whole c ⟨d, run, rfl, _⟩ ⟨d', run', rfl, hletter, hrun⟩ _ hinfix
    have hsign : ∀ x ∈ d' :: run', (x == ':') = false := by
      intro x hx
      rw [beq_eq_false_iff_ne]
      rintro rfl
      rcases List.mem_cons.mp hx with rfl | hx
      · exact absurd hletter (by decide)
      · exact absurd (hrun _ hx) (by decide)
    have hcolon : ∀ x ∈ "//".toList, (x == ':') = false := by decide
    have hsplit : (d :: run) ++ ':' :: "//".toList ++ [c] <:+: (d' :: run') ++ ':' :: "//".toList := hinfix
    obtain ⟨more, hmore⟩ := tail_of_infix (· == ':') rfl hsign hcolon hsplit
    have hlength := congrArg List.length hmore
    simp at hlength
  marks := by decide
  closes_head rest rest' hsame := by simp only [urlRule, hsame]
  unbroken := by
    refine Or.inr (fun part c hpart hlast => ?_)
    rw [hpart.last hlast]
    decide

theorem query_lawful : queryRule.Lawful IsQueryPrefix '[' "redacted".toList ']' where
  reads part c rest hpart _ := queryPrefix_reads hpart (c :: rest)
  found := by
    intro part c rest hlead _
    obtain ⟨part', rest', htext, hlength, hpart'⟩ := queryPrefix_eq hlead
    rw [(List.append_inj htext hlength.symm).1]
    exact hpart'
  within := by
    intro text kept hlead
    obtain ⟨part, rest, rfl, rfl, _⟩ := queryPrefix_eq hlead
    simp
  nonempty := by
    rintro part ⟨c, name, rfl, _⟩
    exact List.cons_ne_nil _ _
  opening_free part hpart hmem := absurd (hpart.char hmem) (by decide)
  closing_free part hpart hmem := absurd (hpart.char hmem) (by decide)
  outside := by
    rintro part ⟨c, name, rfl, _⟩ hinfix
    have hmem : '=' ∈ "redacted".toList := hinfix.subset (by simp)
    exact absurd hmem (by decide)
  ends := by
    rintro part whole c ⟨d, name, rfl, _⟩ ⟨d', name', rfl, hopens, known, hknown, hname⟩ _ hinfix
    have hsign : ∀ x ∈ d' :: name', (x == '=') = false := by
      intro x hx
      rw [beq_eq_false_iff_ne]
      rintro rfl
      rcases List.mem_cons.mp hx with rfl | hx
      · exact absurd hopens (by decide)
      · exact absurd (queryName_char hknown hname hx) (by decide)
    have hsplit : (d :: name) ++ '=' :: [] ++ [c] <:+: (d' :: name') ++ '=' :: [] := hinfix
    obtain ⟨more, hmore⟩ := tail_of_infix (· == '=') rfl hsign (by simp) hsplit
    simp at hmore
  marks := by decide
  closes_head _ _ _ := rfl
  unbroken := Or.inl fun _ => rfl

theorem not_space_of_assigned (h : isAssignedChar c = true) : isSpace c = false := by
  simp only [isAssignedChar, Bool.and_eq_true, Bool.not_eq_true'] at h
  exact h.1.1.1.1

theorem assignment_lawful : assignmentRule.Lawful IsAssignmentPrefix '[' "redacted".toList ']' where
  reads := by
    intro part c rest hpart hc
    apply assignmentPrefix_reads hpart
    intro d hd
    obtain rfl := Option.some.inj hd
    exact not_space_of_assigned hc
  found := by
    intro part c rest hlead _
    obtain ⟨part', rest', htext, hlength, hpart'⟩ := assignmentPrefix_eq hlead
    rw [(List.append_inj htext hlength.symm).1]
    exact hpart'
  within := by
    intro text kept hlead
    obtain ⟨part, rest, rfl, rfl, _⟩ := assignmentPrefix_eq hlead
    simp
  nonempty := by
    rintro part ⟨name, gap, sign, behind, rfl, _⟩
    simp
  opening_free part hpart hmem := absurd (hpart.char hmem) (by decide)
  closing_free part hpart hmem := absurd (hpart.char hmem) (by decide)
  outside := by
    rintro part ⟨name, gap, sign, behind, rfl, _, _, _, hsign, _⟩ hinfix
    have hmem : sign ∈ "redacted".toList := hinfix.subset (by simp)
    rcases hsign with rfl | rfl
    · exact absurd hmem (by decide)
    · exact absurd hmem (by decide)
  ends := by
    rintro part whole c ⟨name, gap, sign, behind, rfl, _, _, _, hsign, _⟩
      ⟨name', gap', sign', behind', rfl, _, hname, hgap, _, hbehind⟩ hc hinfix
    have hspace : ∀ x, isSpace x = true → (x == ':' || x == '=') = false := by
      intro x hx
      by_contra htrue
      rw [Bool.not_eq_false, Bool.or_eq_true, beq_iff_eq, beq_iff_eq] at htrue
      rcases htrue with rfl | rfl
      · exact absurd hx (by decide)
      · exact absurd hx (by decide)
    have hfirst : ∀ x ∈ name' ++ gap', (x == ':' || x == '=') = false := by
      intro x hx
      rcases List.mem_append.mp hx with hx | hx
      · by_contra htrue
        rw [Bool.not_eq_false, Bool.or_eq_true, beq_iff_eq, beq_iff_eq] at htrue
        rcases htrue with rfl | rfl
        · exact absurd (hname _ hx) (by decide)
        · exact absurd (hname _ hx) (by decide)
      · exact hspace x (hgap x hx)
    have hsplit : (name ++ gap) ++ sign :: behind ++ [c] <:+: (name' ++ gap') ++ sign' :: behind' := by
      simpa using hinfix
    have hd : (sign == ':' || sign == '=') = true := by simpa using hsign
    obtain ⟨more, rfl⟩ := tail_of_infix (fun x => x == ':' || x == '=') hd hfirst (fun x hx => hspace x (hbehind x hx)) hsplit
    have hfalse := not_space_of_assigned hc
    rw [hbehind c (by simp)] at hfalse
    cases hfalse
  marks := by decide
  closes_head _ _ _ := rfl
  unbroken := Or.inl fun _ => rfl

end AgentArtifacts.Redactor
