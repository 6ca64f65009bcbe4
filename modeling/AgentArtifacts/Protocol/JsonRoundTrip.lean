import AgentArtifacts.Protocol.JsonText

/-!
# What is written is read back

Each production of the writer is read by its production of the reader, with what
follows left over. A value is legible if its integers pass the hook and no object
repeats a key; the text of a legible value is read back as that value.
-/

namespace AgentArtifacts.JsonText

/-! ## Strings -/

theorem hexValue_digitChar : ∀ d < 16, hexValue (Nat.digitChar d) = some d := by
  decide

/-- The text that follows a character is read after it. -/
def prepend (c : Char) (pair : List Char × List Char) : List Char × List Char := (c :: pair.1, pair.2)

theorem readText_simpleEscape {mark c : Char} (h : simpleEscape mark = some c) (rest : List Char) :
    readText ('\\' :: mark :: rest) = (readText rest).map (prepend c) := by
  have hmark : mark ≠ 'u' := by
    rintro rfl
    exact absurd h (by simp [simpleEscape])
  rw [readText]
  · simp only [h]
    cases readText rest <;> rfl
  · intros
    exact hmark ‹_›
  · exact fun heq => hmark heq

variable {c : Char}

theorem readText_control (h : c.toNat < 32) (rest : List Char) :
    readText ('\\' :: 'u' :: '0' :: '0' :: Nat.digitChar (c.toNat / 16) :: Nat.digitChar (c.toNat % 16) :: rest) =
      (readText rest).map (prepend c) := by
  have hcode : hexCode '0' '0' (Nat.digitChar (c.toNat / 16)) (Nat.digitChar (c.toNat % 16)) = some c.toNat := by
    unfold hexCode
    rw [hexValue_digitChar _ (by omega), hexValue_digitChar _ (by omega), show hexValue '0' = some 0 by decide]
    simp only [Option.bind_eq_bind, Option.bind_some, Option.pure_def, Option.some.injEq]
    omega
  have hhigh : isHighSurrogate c.toNat = false := by
    simp [isHighSurrogate]
    omega
  have hlow : isLowSurrogate c.toNat = false := by
    simp [isLowSurrogate]
    omega
  rw [readText]
  simp only [hcode, hhigh, hlow, Bool.false_eq_true, if_false, Char.ofNat_toNat]
  cases readText rest <;> rfl

theorem readText_plain (hquote : c ≠ '"') (hslash : c ≠ '\\') (h : ¬ c.toNat < 32) (rest : List Char) :
    readText (c :: rest) = (readText rest).map (prepend c) := by
  rw [readText]
  · rw [if_neg h]
    cases readText rest <;> rfl
  · exact fun hc => hquote hc
  · intros
    exact hslash ‹_›
  · intros
    exact hslash ‹_›
  · intros
    exact hslash ‹_›

theorem readText_escapeChar (c : Char) (rest : List Char) :
    readText (escapeChar c ++ rest) = (readText rest).map (prepend c) := by
  unfold escapeChar
  split
  · subst_vars
    exact readText_simpleEscape (by decide) rest
  split
  · subst_vars
    exact readText_simpleEscape (by decide) rest
  split
  · subst_vars
    exact readText_simpleEscape (by decide) rest
  split
  · subst_vars
    exact readText_simpleEscape (by decide) rest
  split
  · subst_vars
    exact readText_simpleEscape (by decide) rest
  split
  · subst_vars
    exact readText_simpleEscape (by decide) rest
  split
  · subst_vars
    exact readText_simpleEscape (by decide) rest
  split
  · exact readText_control ‹_› rest
  · exact readText_plain ‹_› ‹_› ‹_› rest

/-! ## Writers -/

/-- A way to write a value: the white space inside brackets and after commas and colons, and
the escape of a character. -/
structure Writer where
  opening : Nat → List Char
  between : Nat → List Char
  closing : Nat → List Char
  colon : List Char
  escape : Char → List Char
  openingSpace : ∀ level, ∀ c ∈ opening level, isSpace c = true
  betweenSpace : ∀ level, ∀ c ∈ between level, isSpace c = true
  closingSpace : ∀ level, ∀ c ∈ closing level, isSpace c = true
  colonSpace : ∀ c ∈ colon, isSpace c = true
  escapeReads : ∀ c rest, readText (escape c ++ rest) = (readText rest).map (prepend c)

def Layout.writer (layout : Layout) : Writer where
  opening := layout.gap
  between := layout.gap
  closing := layout.gap
  colon := layout.colon
  escape := escapeChar
  openingSpace := layout.gapSpace
  betweenSpace := layout.gapSpace
  closingSpace := layout.gapSpace
  colonSpace := layout.colonSpace
  escapeReads := readText_escapeChar

def writeText (writer : Writer) (text : String) : List Char := '"' :: (text.toList.flatMap writer.escape ++ ['"'])

mutual

def write (writer : Writer) (level : Nat) : Json → List Char
  | .null => ['n', 'u', 'l', 'l']
  | .bool true => ['t', 'r', 'u', 'e']
  | .bool false => ['f', 'a', 'l', 's', 'e']
  | .int value => printInt value
  | .str value => writeText writer value
  | .arr [] => ['[', ']']
  | .arr (item :: rest) =>
      '[' :: (writer.opening (level + 1) ++ write writer (level + 1) item ++ writeItems writer (level + 1) rest ++
        writer.closing level ++ [']'])
  | .obj [] => ['{', '}']
  | .obj ((key, item) :: rest) =>
      '{' :: (writer.opening (level + 1) ++ writeText writer key ++
        ':' :: (writer.colon ++ write writer (level + 1) item) ++ writeEntries writer (level + 1) rest ++
        writer.closing level ++ ['}'])

def writeItems (writer : Writer) (level : Nat) : List Json → List Char
  | [] => []
  | item :: rest => ',' :: (writer.between level ++ write writer level item ++ writeItems writer level rest)

def writeEntries (writer : Writer) (level : Nat) : List (String × Json) → List Char
  | [] => []
  | (key, item) :: rest =>
      ',' :: (writer.between level ++ writeText writer key ++ ':' :: (writer.colon ++ write writer level item) ++
        writeEntries writer level rest)

end

mutual

theorem print_eq_write (layout : Layout) : ∀ (level : Nat) (value : Json),
    print layout level value = write layout.writer level value
  | _, .null => by rw [print, write]
  | _, .bool true => by rw [print, write]
  | _, .bool false => by rw [print, write]
  | _, .int _ => by rw [print, write]
  | _, .str _ => by rw [print, write]; rfl
  | _, .arr [] => by rw [print, write]
  | level, .arr (item :: rest) => by
      rw [print, write, print_eq_write layout (level + 1) item, printItems_eq_write layout (level + 1) rest]
      rfl
  | _, .obj [] => by rw [print, write]
  | level, .obj ((key, item) :: rest) => by
      rw [print, write, print_eq_write layout (level + 1) item, printEntries_eq_write layout (level + 1) rest]
      rfl

theorem printItems_eq_write (layout : Layout) : ∀ (level : Nat) (items : List Json),
    printItems layout level items = writeItems layout.writer level items
  | _, [] => by rw [printItems, writeItems]
  | level, item :: rest => by
      rw [printItems, writeItems, print_eq_write layout level item, printItems_eq_write layout level rest]
      rfl

theorem printEntries_eq_write (layout : Layout) : ∀ (level : Nat) (entries : List (String × Json)),
    printEntries layout level entries = writeEntries layout.writer level entries
  | _, [] => by rw [printEntries, writeEntries]
  | level, (key, item) :: rest => by
      rw [printEntries, writeEntries, print_eq_write layout level item, printEntries_eq_write layout level rest]
      rfl

end

theorem readText_escaped (writer : Writer) (text rest : List Char) :
    readText (text.flatMap writer.escape ++ '"' :: rest) = .ok (text, rest) := by
  induction text with
  | nil => rw [List.flatMap_nil, List.nil_append, readText]
  | cons c text ih =>
      rw [List.flatMap_cons, List.append_assoc, writer.escapeReads, ih]
      rfl

/-! ## Numbers -/

/-- What may follow a number of the writer. -/
def Stops : List Char → Prop
  | [] => True
  | c :: _ => isSpace c = true ∨ c = ',' ∨ c = ']' ∨ c = '}'

variable {rest : List Char}

theorem Stops.not_digit (h : Stops (c :: rest)) : c.isDigit = false := by
  rcases h with h | rfl | rfl | rfl
  · simp only [isSpace, Bool.or_eq_true, beq_iff_eq] at h
    rcases h with ((rfl | rfl) | rfl) | rfl <;> decide
  all_goals decide

theorem Stops.readFraction (h : Stops rest) : readFraction rest = [] := by
  cases rest with
  | nil => rfl
  | cons c rest =>
      have hmarks : c ≠ '.' ∧ c ≠ 'e' ∧ c ≠ 'E' := by
        rcases h with h | rfl | rfl | rfl
        · simp only [isSpace, Bool.or_eq_true, beq_iff_eq] at h
          rcases h with ((rfl | rfl) | rfl) | rfl <;> decide
        all_goals decide
      obtain ⟨hdot, hlower, hupper⟩ := hmarks
      simp [JsonText.readFraction, hdot, hlower, hupper]

theorem digitChar_ne_zero : ∀ d < 10, d ≠ 0 → Nat.digitChar d ≠ '0' := by
  decide

theorem toDigits_head {n : Nat} (hn : n ≠ 0) : (Nat.toDigits 10 n).head? ≠ some '0' := by
  induction n using Nat.strongRecOn with
  | _ n ih =>
      by_cases hsmall : n < 10
      · rw [Nat.toDigits_of_lt_base hsmall]
        simpa using digitChar_ne_zero n hsmall hn
      · rw [Nat.toDigits_of_base_le (by decide) (by omega), List.head?_append_of_ne_nil _ Nat.toDigits_ne_nil]
        exact ih (n / 10) (by omega) (by omega)

variable {parseInt : List Char → Result Int}

theorem readNumber_toDigits (sign : List Char) (n : Nat) (hrest : Stops rest) :
    readNumber parseInt sign (Nat.toDigits 10 n ++ rest) =
      (parseInt (sign ++ Nat.toDigits 10 n)).map fun value => (.int value, rest) := by
  have hfinish (raw : List Char) : finishNumber parseInt raw rest =
      (parseInt raw).map fun value => (.int value, rest) := by
    unfold finishNumber
    rw [hrest.readFraction]
    cases parseInt raw <;> rfl
  by_cases hn : n = 0
  · subst hn
    rw [Nat.toDigits_zero]
    exact hfinish _
  · have hdigits (c : Char) (hc : c ∈ Nat.toDigits 10 n) : c.isDigit = true :=
      Nat.isDigit_of_mem_toDigits (by decide) (by decide) hc
    have hhead := toDigits_head hn
    cases hform : Nat.toDigits 10 n with
    | nil => exact absurd hform Nat.toDigits_ne_nil
    | cons c digits =>
        rw [hform] at hdigits hhead
        have hzero : c ≠ '0' := by simpa using hhead
        have hall : ∀ d ∈ digits, d.isDigit = true := fun d hd => hdigits d (List.mem_cons_of_mem _ hd)
        have htake : (digits ++ rest).takeWhile Char.isDigit = digits := by
          cases rest with
          | nil => rw [List.append_nil, List.takeWhile_eq_self_iff.mpr hall]
          | cons d rest => rw [List.takeWhile_append_of_pos hall, List.takeWhile_cons, hrest.not_digit]; simp
        have hdrop : (digits ++ rest).dropWhile Char.isDigit = rest := by
          cases rest with
          | nil => rw [List.append_nil, List.dropWhile_eq_nil_iff.mpr hall]
          | cons d rest => rw [List.dropWhile_append_of_pos hall, List.dropWhile_cons, hrest.not_digit]; simp
        rw [List.cons_append, readNumber]
        · rw [if_pos (hdigits c List.mem_cons_self), htake, hdrop]
          exact hfinish _
        · exact fun hc => hzero hc

theorem readValue_digit (hc : c.isDigit = true) (fuel : Nat) (rest : List Char) :
    readValue parseInt (fuel + 1) (c :: rest) = readNumber parseInt [] (c :: rest) := by
  rw [readValue]
  all_goals
    intros
    rename_i heq
    obtain ⟨rfl, _⟩ := List.cons.inj heq
    exact absurd hc (by decide)

theorem readValue_minus (hc : c.isDigit = true) (fuel : Nat) (rest : List Char) :
    readValue parseInt (fuel + 1) ('-' :: c :: rest) = readNumber parseInt ['-'] (c :: rest) := by
  rw [readValue]
  intro tail heq
  obtain ⟨rfl, _⟩ := List.cons.inj heq
  exact absurd hc (by decide)

variable {value : Int}

theorem readValue_printInt (hvalue : parseInt (printInt value) = .ok value) (fuel : Nat) (hrest : Stops rest) :
    readValue parseInt (fuel + 1) (printInt value ++ rest) = .ok (.int value, rest) := by
  have hnumber (sign : List Char) := @readNumber_toDigits rest parseInt sign value.natAbs hrest
  cases hform : Nat.toDigits 10 value.natAbs with
  | nil => exact absurd hform Nat.toDigits_ne_nil
  | cons c digits =>
      have hc : c.isDigit = true :=
        Nat.isDigit_of_mem_toDigits (by decide) (by decide) (hform ▸ List.mem_cons_self : c ∈ Nat.toDigits 10 value.natAbs)
      unfold printInt at hvalue ⊢
      by_cases hneg : value < 0
      · rw [if_pos hneg] at hvalue ⊢
        rw [List.cons_append, hform, List.cons_append, readValue_minus hc, ← List.cons_append, ← hform, hnumber,
          List.singleton_append, hvalue]
        rfl
      · rw [if_neg hneg] at hvalue ⊢
        rw [hform, List.cons_append, readValue_digit hc, ← List.cons_append, ← hform, hnumber, List.nil_append, hvalue]
        rfl

/-! ## Values -/

mutual

/-- Integers of a set, and objects without a repeated key. -/
def Legible (P : Int → Prop) : Json → Prop
  | .null => True
  | .bool _ => True
  | .int value => P value
  | .str _ => True
  | .arr items => LegibleItems P items
  | .obj entries => (entries.map Prod.fst).Nodup ∧ LegibleEntries P entries

def LegibleItems (P : Int → Prop) : List Json → Prop
  | [] => True
  | item :: rest => Legible P item ∧ LegibleItems P rest

def LegibleEntries (P : Int → Prop) : List (String × Json) → Prop
  | [] => True
  | (_, item) :: rest => Legible P item ∧ LegibleEntries P rest

end

mutual

/-- The calls that reading a value takes. -/
def calls : Json → Nat
  | .arr items => 1 + callsItems items
  | .obj entries => 1 + callsEntries entries
  | _ => 1

def callsItems : List Json → Nat
  | [] => 0
  | item :: rest => 1 + calls item + callsItems rest

def callsEntries : List (String × Json) → Nat
  | [] => 0
  | (_, item) :: rest => 1 + calls item + callsEntries rest

end

theorem skipSpace_append {gap : List Char} (hgap : ∀ c ∈ gap, isSpace c = true) (hc : isSpace c = false)
    (rest : List Char) : skipSpace (gap ++ c :: rest) = c :: rest := by
  unfold skipSpace
  rw [List.dropWhile_append_of_pos hgap, List.dropWhile_cons, hc]
  simp

variable {writer : Writer}

theorem digit_not_space (h : c.isDigit = true) : isSpace c = false ∧ c ≠ ']' ∧ c ≠ '\ufeff' := by
  refine ⟨?_, ?_, ?_⟩
  · cases hspace : isSpace c with
    | false => rfl
    | true =>
        have hstops : Stops [c] := Or.inl hspace
        rw [hstops.not_digit] at h
        exact absurd h (by decide)
  · rintro rfl
    exact absurd h (by decide)
  · rintro rfl
    exact absurd h (by decide)

/-- A value begins with a character that is no white space, no closing bracket and no mark
of a byte order. -/
theorem write_head (writer : Writer) (level : Nat) (value : Json) :
    ∃ c rest, write writer level value = c :: rest ∧ isSpace c = false ∧ c ≠ ']' ∧ c ≠ '\ufeff' := by
  cases value with
  | null => exact ⟨_, _, by rw [write], by decide, by decide, by decide⟩
  | bool value => cases value <;> exact ⟨_, _, by rw [write], by decide, by decide, by decide⟩
  | int value =>
      rw [write]
      unfold printInt
      split
      · exact ⟨_, _, rfl, by decide, by decide, by decide⟩
      · cases hform : Nat.toDigits 10 value.natAbs with
        | nil => exact absurd hform Nat.toDigits_ne_nil
        | cons c digits =>
            exact ⟨c, digits, rfl, digit_not_space (Nat.isDigit_of_mem_toDigits (by decide) (by decide)
              (hform ▸ List.mem_cons_self : c ∈ Nat.toDigits 10 value.natAbs))⟩
  | str value => exact ⟨_, _, by rw [write, writeText], by decide, by decide, by decide⟩
  | arr items => cases items <;> exact ⟨_, _, by rw [write], by decide, by decide, by decide⟩
  | obj entries =>
      cases entries with
      | nil => exact ⟨_, _, by rw [write], by decide, by decide, by decide⟩
      | cons entry rest =>
          obtain ⟨key, item⟩ := entry
          exact ⟨_, _, by rw [write], by decide, by decide, by decide⟩

/-- What stands after an item or an entry: a comma, or white space and the closing bracket. -/
theorem stops_after {gap more : List Char} (hgap : ∀ c ∈ gap, isSpace c = true) {close : Char}
    (hclose : close = ']' ∨ close = '}') (rest : List Char)
    (hmore : more = [] ∨ ∃ tail, more = ',' :: tail) : Stops (more ++ (gap ++ close :: rest)) := by
  rcases hmore with rfl | ⟨tail, rfl⟩
  · cases gap with
    | nil => exact Or.inr (Or.inr hclose)
    | cons c gap => exact Or.inl (hgap c List.mem_cons_self)
  · exact Or.inr (Or.inl rfl)

theorem writeItems_form (level : Nat) (items : List Json) :
    writeItems writer level items = [] ∨ ∃ tail, writeItems writer level items = ',' :: tail := by
  cases items with
  | nil => exact Or.inl (by rw [writeItems])
  | cons item rest => exact Or.inr ⟨_, by rw [writeItems]⟩

theorem writeEntries_form (level : Nat) (entries : List (String × Json)) :
    writeEntries writer level entries = [] ∨ ∃ tail, writeEntries writer level entries = ',' :: tail := by
  cases entries with
  | nil => exact Or.inl (by rw [writeEntries])
  | cons entry rest =>
      obtain ⟨key, item⟩ := entry
      exact Or.inr ⟨_, by rw [writeEntries]⟩

theorem repeatedKey?_eq_none {seen : List String} {entries : List (String × Json)}
    (hnew : ∀ entry ∈ entries, entry.1 ∉ seen) (hkeys : (entries.map Prod.fst).Nodup) :
    repeatedKey? seen entries = none := by
  induction entries generalizing seen with
  | nil => rfl
  | cons entry rest ih =>
      obtain ⟨key, item⟩ := entry
      obtain ⟨hfresh, hrest⟩ := List.nodup_cons.mp hkeys
      rw [repeatedKey?, if_neg (hnew _ List.mem_cons_self)]
      refine ih (fun other hother hmem => ?_) hrest
      rcases List.mem_cons.mp hmem with heq | hmem
      · exact hfresh (List.mem_map.mpr ⟨other, hother, heq⟩)
      · exact hnew other (List.mem_cons_of_mem _ hother) hmem

variable {fuel : Nat} {item : Json}

theorem readItems_last {text rest tail : List Char}
    (hitem : readValue parseInt fuel text = .ok (item, rest)) (hrest : skipSpace rest = ']' :: tail) :
    readItems parseInt (fuel + 1) text = .ok ([item], tail) := by
  simp only [readItems, hitem, hrest, bind, Except.bind, pure, Except.pure]

theorem readItems_more {text rest tail after : List Char} {items : List Json}
    (hitem : readValue parseInt fuel text = .ok (item, rest)) (hrest : skipSpace rest = ',' :: tail)
    (hitems : readItems parseInt fuel (skipSpace tail) = .ok (items, after)) :
    readItems parseInt (fuel + 1) text = .ok (item :: items, after) := by
  simp only [readItems, hitem, hrest, hitems, bind, Except.bind, pure, Except.pure]

theorem readEntries_last {text afterKey value rest tail key : List Char}
    (hkey : readText text = .ok (key, afterKey)) (hcolon : skipSpace afterKey = ':' :: value)
    (hitem : readValue parseInt fuel (skipSpace value) = .ok (item, rest)) (hrest : skipSpace rest = '}' :: tail) :
    readEntries parseInt (fuel + 1) text = .ok ([(String.ofList key, item)], tail) := by
  simp only [readEntries, hkey, hcolon, hitem, hrest, bind, Except.bind, pure, Except.pure]

theorem readEntries_more {text afterKey value rest tail quoted after key : List Char}
    {entries : List (String × Json)}
    (hkey : readText text = .ok (key, afterKey)) (hcolon : skipSpace afterKey = ':' :: value)
    (hitem : readValue parseInt fuel (skipSpace value) = .ok (item, rest)) (hrest : skipSpace rest = ',' :: tail)
    (hquote : skipSpace tail = '"' :: quoted) (hentries : readEntries parseInt fuel quoted = .ok (entries, after)) :
    readEntries parseInt (fuel + 1) text = .ok ((String.ofList key, item) :: entries, after) := by
  simp only [readEntries, hkey, hcolon, hitem, hrest, hquote, hentries, bind, Except.bind, pure, Except.pure]

theorem readValue_array {text tail after : List Char} {items : List Json}
    (hskip : skipSpace text = c :: tail) (hc : c ≠ ']')
    (hitems : readItems parseInt fuel (c :: tail) = .ok (items, after)) :
    readValue parseInt (fuel + 1) ('[' :: text) = .ok (.arr items, after) := by
  rw [readValue, hskip]
  split
  · rename_i heq
    exact absurd (List.cons.inj heq).1 hc
  · simp only [hitems, bind, Except.bind, pure, Except.pure]

theorem readValue_object {text tail after : List Char} {entries : List (String × Json)}
    (hskip : skipSpace text = '"' :: tail) (hentries : readEntries parseInt fuel tail = .ok (entries, after))
    (hkeys : (entries.map Prod.fst).Nodup) :
    readValue parseInt (fuel + 1) ('{' :: text) = .ok (.obj entries, after) := by
  have hpairs : objectPairs entries = .ok (.obj entries) := by
    unfold objectPairs
    rw [repeatedKey?_eq_none (by simp) hkeys]
  simp only [readValue, hskip, hentries, hpairs, bind, Except.bind, pure, Except.pure]

/-- The hook reads the integers of a set as the writer writes them. -/
def Reads (parseInt : List Char → Result Int) (P : Int → Prop) : Prop :=
  ∀ value, P value → parseInt (printInt value) = .ok value

variable {P : Int → Prop}

mutual

theorem readValue_write (hprint : Reads parseInt P) : ∀ (value : Json) (level fuel : Nat) (rest : List Char), Legible P value →
    calls value ≤ fuel → Stops rest →
    readValue parseInt fuel (write writer level value ++ rest) = .ok (value, rest)
  | .null, _, fuel + 1, rest, _, _, _ => by simp [write, readValue]
  | .bool true, _, fuel + 1, rest, _, _, _ => by simp [write, readValue]
  | .bool false, _, fuel + 1, rest, _, _, _ => by simp [write, readValue]
  | .int value, _, fuel + 1, rest, hvalue, _, hrest => by
      rw [Legible] at hvalue
      rw [write]
      exact readValue_printInt (hprint value hvalue) fuel hrest
  | .str value, _, fuel + 1, rest, _, _, _ => by
      rw [write, writeText, List.cons_append, List.append_assoc, readValue, List.singleton_append, readText_escaped]
      simp [bind, Except.bind, pure, Except.pure]
  | .arr [], _, fuel + 1, rest, _, _, _ => by simp [write, readValue, skipSpace, isSpace]
  | .arr (item :: items), level, fuel + 1, rest, hvalue, hfuel, _ => by
      rw [Legible] at hvalue
      rw [calls] at hfuel
      obtain ⟨c, tail, hhead, hspace, hclose, _⟩ := write_head writer (level + 1) item
      have hitems := readItems_write hprint (item :: items) (level + 1) fuel (writer.closing level) rest hvalue (by omega)
        (writer.closingSpace level)
      simp only at hitems
      rw [hhead, List.cons_append] at hitems
      rw [write, hhead]
      simp only [List.cons_append, List.append_assoc, List.nil_append]
      exact readValue_array (skipSpace_append (writer.openingSpace (level + 1)) hspace _) hclose hitems
  | .obj [], _, fuel + 1, rest, _, _, _ => by simp [write, readValue, skipSpace, isSpace]
  | .obj ((key, item) :: entries), level, fuel + 1, rest, hvalue, hfuel, _ => by
      rw [Legible] at hvalue
      rw [calls] at hfuel
      have hentries := readEntries_write hprint ((key, item) :: entries) (level + 1) fuel (writer.closing level) rest hvalue.2
        (by omega) (writer.closingSpace level)
      simp only at hentries
      rw [write, writeText]
      simp only [List.cons_append, List.append_assoc, List.nil_append]
      exact readValue_object (skipSpace_append (writer.openingSpace (level + 1)) (by decide) _) hentries hvalue.1
  | .null, _, 0, _, _, hfuel, _ => by simp [calls] at hfuel
  | .bool _, _, 0, _, _, hfuel, _ => by simp [calls] at hfuel
  | .int _, _, 0, _, _, hfuel, _ => by simp [calls] at hfuel
  | .str _, _, 0, _, _, hfuel, _ => by simp [calls] at hfuel
  | .arr _, _, 0, _, _, hfuel, _ => by simp [calls] at hfuel
  | .obj _, _, 0, _, _, hfuel, _ => by simp [calls] at hfuel

theorem readItems_write (hprint : Reads parseInt P) : ∀ (items : List Json) (level fuel : Nat) (gap rest : List Char),
    LegibleItems P items → callsItems items ≤ fuel → (∀ c ∈ gap, isSpace c = true) →
    match items with
    | [] => True
    | item :: more => readItems parseInt fuel
        (write writer level item ++ (writeItems writer level more ++ (gap ++ ']' :: rest))) = .ok (item :: more, rest)
  | [], _, _, _, _, _, _, _ => trivial
  | item :: more, level, fuel + 1, gap, rest, hvalue, hfuel, hgap => by
      rw [LegibleItems] at hvalue
      rw [callsItems] at hfuel
      have hitem := readValue_write hprint item level fuel (writeItems writer level more ++ (gap ++ ']' :: rest)) hvalue.1
        (by omega) (stops_after hgap (Or.inl rfl) rest (writeItems_form level more))
      cases more with
      | nil =>
          simp only [writeItems, List.nil_append] at hitem ⊢
          exact readItems_last hitem (skipSpace_append hgap (by decide) rest)
      | cons next others =>
          have hmore := readItems_write hprint (next :: others) level fuel gap rest hvalue.2 (by omega) hgap
          simp only at hmore
          obtain ⟨c, tail, hhead, hspace, _, _⟩ := write_head writer level next
          have hcomma : skipSpace (writeItems writer level (next :: others) ++ (gap ++ ']' :: rest)) =
              ',' :: (writer.between level ++ (write writer level next ++
                (writeItems writer level others ++ (gap ++ ']' :: rest)))) := by
            simp [writeItems, skipSpace, isSpace]
          refine readItems_more hitem hcomma ?_
          rw [hhead, List.cons_append] at hmore ⊢
          rw [skipSpace_append (writer.betweenSpace level) hspace]
          exact hmore
  | item :: _, _, 0, _, _, _, hfuel, _ => by simp [callsItems] at hfuel

theorem readEntries_write (hprint : Reads parseInt P) : ∀ (entries : List (String × Json)) (level fuel : Nat) (gap rest : List Char),
    LegibleEntries P entries → callsEntries entries ≤ fuel → (∀ c ∈ gap, isSpace c = true) →
    match entries with
    | [] => True
    | (key, item) :: more => readEntries parseInt fuel
        (key.toList.flatMap writer.escape ++ ('"' :: ':' :: (writer.colon ++ (write writer level item ++
          (writeEntries writer level more ++ (gap ++ '}' :: rest)))))) = .ok ((key, item) :: more, rest)
  | [], _, _, _, _, _, _, _ => trivial
  | (key, item) :: more, level, fuel + 1, gap, rest, hvalue, hfuel, hgap => by
      rw [LegibleEntries] at hvalue
      rw [callsEntries] at hfuel
      obtain ⟨c, tail, hhead, hspace, _, _⟩ := write_head writer level item
      have hitem := readValue_write hprint item level fuel (writeEntries writer level more ++ (gap ++ '}' :: rest)) hvalue.1
        (by omega) (stops_after hgap (Or.inr rfl) rest (writeEntries_form level more))
      have hkey := readText_escaped writer key.toList (':' :: (writer.colon ++ (write writer level item ++
        (writeEntries writer level more ++ (gap ++ '}' :: rest)))))
      have hcolon : skipSpace (':' :: (writer.colon ++ (write writer level item ++
          (writeEntries writer level more ++ (gap ++ '}' :: rest))))) = ':' :: (writer.colon ++
            (write writer level item ++ (writeEntries writer level more ++ (gap ++ '}' :: rest)))) := by
        simp [skipSpace, isSpace]
      have hvalue' : readValue parseInt fuel (skipSpace (writer.colon ++ (write writer level item ++
          (writeEntries writer level more ++ (gap ++ '}' :: rest))))) =
            .ok (item, writeEntries writer level more ++ (gap ++ '}' :: rest)) := by
        rw [hhead, List.cons_append, skipSpace_append writer.colonSpace hspace, ← List.cons_append, ← hhead]
        exact hitem
      cases more with
      | nil =>
          simp only [writeEntries, List.nil_append] at hkey hcolon hvalue' ⊢
          have hlast := readEntries_last hkey hcolon hvalue' (skipSpace_append hgap (by decide) rest)
          rw [String.ofList_toList] at hlast
          exact hlast
      | cons entry others =>
          obtain ⟨nextKey, next⟩ := entry
          have hmore := readEntries_write hprint ((nextKey, next) :: others) level fuel gap rest hvalue.2 (by omega) hgap
          simp only at hmore
          have hcomma : skipSpace (writeEntries writer level ((nextKey, next) :: others) ++ (gap ++ '}' :: rest)) =
              ',' :: (writer.between level ++ '"' :: (nextKey.toList.flatMap writer.escape ++ ('"' :: ':' ::
                (writer.colon ++ (write writer level next ++
                  (writeEntries writer level others ++ (gap ++ '}' :: rest))))))) := by
            simp [writeEntries, writeText, skipSpace, isSpace]
          have hlast := readEntries_more hkey hcolon hvalue' hcomma
            (skipSpace_append (writer.betweenSpace level) (by decide) _) hmore
          rw [String.ofList_toList] at hlast
          exact hlast
  | (_, _) :: _, _, 0, _, _, _, hfuel, _ => by simp [callsEntries] at hfuel

end

mutual

theorem calls_le_length : ∀ (value : Json) (level : Nat), calls value ≤ (write writer level value).length
  | .null, _ => by simp [calls, write]
  | .bool true, _ => by simp [calls, write]
  | .bool false, _ => by simp [calls, write]
  | .int value, level => by
      obtain ⟨c, rest, hform, _⟩ := write_head writer level (.int value)
      simp [calls, hform]
  | .str value, _ => by simp [calls, write, writeText]
  | .arr [], _ => by simp [calls, callsItems, write]
  | .arr (item :: items), level => by
      have hitem := calls_le_length item (level + 1)
      have hitems := callsItems_le_length items (level + 1)
      simp only [calls, callsItems, write, List.length_cons, List.length_append, List.length_nil]
      omega
  | .obj [], _ => by simp [calls, callsEntries, write]
  | .obj ((key, item) :: entries), level => by
      have hitem := calls_le_length item (level + 1)
      have hentries := callsEntries_le_length entries (level + 1)
      simp only [calls, callsEntries, write, List.length_cons, List.length_append, List.length_nil]
      omega

theorem callsItems_le_length : ∀ (items : List Json) (level : Nat),
    callsItems items ≤ (writeItems writer level items).length
  | [], _ => by simp [callsItems]
  | item :: rest, level => by
      have hitem := calls_le_length item level
      have hrest := callsItems_le_length rest level
      simp only [callsItems, writeItems, List.length_cons, List.length_append]
      omega

theorem callsEntries_le_length : ∀ (entries : List (String × Json)) (level : Nat),
    callsEntries entries ≤ (writeEntries writer level entries).length
  | [], _ => by simp [callsEntries]
  | (key, item) :: rest, level => by
      have hitem := calls_le_length item level
      have hrest := callsEntries_le_length rest level
      simp only [callsEntries, writeEntries, List.length_cons, List.length_append]
      omega

end

/-- A document of the writer, with white space after it. -/
theorem readDocument_write (hprint : Reads parseInt P) {value : Json} (hvalue : Legible P value) {tail : List Char}
    (htail : ∀ c ∈ tail, isSpace c = true) :
    readDocument parseInt (write writer 0 value ++ tail) = .ok value := by
  obtain ⟨c, rest, hform, hspace, _⟩ := write_head writer 0 value
  have hstart : skipSpace (write writer 0 value ++ tail) = write writer 0 value ++ tail := by
    rw [hform, List.cons_append]
    have hnil : ∀ d ∈ ([] : List Char), isSpace d = true := by simp
    exact skipSpace_append hnil hspace _
  have hstops : Stops tail := by
    cases tail with
    | nil => trivial
    | cons d tail => exact Or.inl (htail d List.mem_cons_self)
  have hcalls := @calls_le_length writer value 0
  have hread : readValue parseInt ((write writer 0 value ++ tail).length + 1) (write writer 0 value ++ tail) =
      .ok (value, tail) :=
    readValue_write hprint value 0 _ tail hvalue (by rw [List.length_append]; omega) hstops
  have hend : skipSpace tail = [] := List.dropWhile_eq_nil_iff.mpr htail
  unfold readDocument
  simp only [hstart, hread, hend, bind, Except.bind, if_true]

/-- A value begins with a character that is no white space, no closing bracket and no mark
of a byte order, however it is laid out. -/
theorem print_head (layout : Layout) (level : Nat) (value : Json) :
    ∃ c rest, print layout level value = c :: rest ∧ isSpace c = false ∧ c ≠ ']' ∧ c ≠ '\ufeff' := by
  rw [print_eq_write]
  exact write_head layout.writer level value

theorem readDocument_print {layout : Layout} (hprint : Reads parseInt P) {value : Json} (hvalue : Legible P value)
    {tail : List Char} (htail : ∀ c ∈ tail, isSpace c = true) :
    readDocument parseInt (print layout 0 value ++ tail) = .ok value := by
  rw [print_eq_write]
  exact readDocument_write hprint hvalue htail

/-! ## Integers -/

/-- The integers of the protocol. -/
def InRange (value : Int) : Prop := -2 ^ 63 ≤ value ∧ value ≤ 2 ^ 63 - 1

/-- The hook of a reader without a range. -/
def anyInteger : List Char → Result Int
  | '-' :: digits => .ok (-(Nat.ofDigitChars 10 digits 0 : Int))
  | digits => .ok (Nat.ofDigitChars 10 digits 0 : Int)

theorem toDigits_no_sign {n : Nat} : Nat.toDigits 10 n ≠ '-' :: rest := by
  intro h
  have hdigit : Char.isDigit '-' = true := Nat.isDigit_of_mem_toDigits (by decide) (by decide)
    (h ▸ List.mem_cons_self : '-' ∈ Nat.toDigits 10 n)
  exact absurd hdigit (by decide)

theorem anyInteger_printInt (value : Int) : anyInteger (printInt value) = .ok value := by
  unfold printInt
  split
  · rw [anyInteger, Nat.ofDigitChars_ten_toDigits]
    exact congrArg Except.ok (by omega)
  · rw [anyInteger, Nat.ofDigitChars_ten_toDigits]
    · exact congrArg Except.ok (by omega)
    · exact fun rest => toDigits_no_sign

theorem length_toDigits_natAbs (h : InRange value) : (Nat.toDigits 10 value.natAbs).length ≤ 19 := by
  rw [Nat.length_toDigits_le_iff (by decide) (by decide)]
  have hbound : value.natAbs ≤ 2 ^ 63 := by
    unfold InRange at h
    omega
  exact lt_of_le_of_lt hbound (by decide)

theorem parseInteger_printInt (h : InRange value) : parseInteger (printInt value) = .ok value := by
  have hlength := length_toDigits_natAbs h
  have hbounded : boundedInteger (Nat.toDigits 10 value.natAbs) value = .ok value := by
    unfold boundedInteger
    rw [if_neg (by omega)]
    exact if_pos h
  unfold printInt
  split
  · rw [parseInteger, Nat.ofDigitChars_ten_toDigits, show -((value.natAbs : Nat) : Int) = value by omega, hbounded]
  · rw [parseInteger, Nat.ofDigitChars_ten_toDigits, show ((value.natAbs : Nat) : Int) = value by omega, hbounded]
    exact fun rest => toDigits_no_sign

theorem InRange.of_parseInteger {raw : List Char} (h : parseInteger raw = .ok value) : InRange value := by
  have hbounded {digits : List Char} {found : Int} (h : boundedInteger digits found = .ok value) : InRange value := by
    unfold boundedInteger at h
    split at h
    · exact absurd h (by simp [integerRange, error])
    · split at h
      · rename_i hrange
        rw [← Except.ok.inj h]
        exact hrange
      · exact absurd h (by simp [integerRange, error])
  unfold parseInteger at h
  split at h
  · exact hbounded h
  · exact hbounded h

/-! ## What is read is legible -/

section Reading

variable (hparse : ∀ raw value, parseInt raw = .ok value → P value)

include hparse

theorem legible_of_finishNumber {raw rest after : List Char} {value : Json}
    (h : finishNumber parseInt raw rest = .ok (value, after)) : Legible P value := by
  unfold finishNumber at h
  split at h
  · obtain ⟨number, hnumber, h⟩ := Result.of_bind_ok h
    obtain ⟨rfl, rfl⟩ := Prod.mk.inj (Except.ok.inj h)
    rw [Legible]
    exact hparse _ _ hnumber
  · exact absurd h (by simp [error])

theorem legible_of_readNumber {sign text after : List Char} {value : Json}
    (h : readNumber parseInt sign text = .ok (value, after)) : Legible P value := by
  unfold readNumber at h
  split at h
  · exact legible_of_finishNumber hparse h
  · split at h
    · exact legible_of_finishNumber hparse h
    · exact absurd h (by simp [invalidJson, error])
  · exact absurd h (by simp [invalidJson, error])

omit hparse in
theorem nodup_of_repeatedKey? {seen : List String} {entries : List (String × Json)}
    (h : repeatedKey? seen entries = none) :
    (entries.map Prod.fst).Nodup ∧ ∀ entry ∈ entries, entry.1 ∉ seen := by
  induction entries generalizing seen with
  | nil => exact ⟨List.nodup_nil, by simp⟩
  | cons entry rest ih =>
      obtain ⟨key, item⟩ := entry
      rw [repeatedKey?] at h
      split at h
      · exact absurd h (by simp)
      · rename_i hfresh
        obtain ⟨hrest, hnew⟩ := ih h
        constructor
        · refine List.nodup_cons.mpr ⟨fun hmem => ?_, hrest⟩
          obtain ⟨other, hother, heq⟩ := List.mem_map.mp hmem
          exact hnew other hother (by simp [heq])
        · intro other hother
          rcases List.mem_cons.mp hother with rfl | hother
          · exact hfresh
          · exact fun hmem => hnew other hother (List.mem_cons_of_mem _ hmem)

/-- By the fuel, as the three readers call each other with less of it. -/
theorem legible_of_read (fuel : Nat) :
    (∀ text value after, readValue parseInt fuel text = .ok (value, after) → Legible P value) ∧
    (∀ text items after, readItems parseInt fuel text = .ok (items, after) → LegibleItems P items) ∧
    ∀ text entries after, readEntries parseInt fuel text = .ok (entries, after) → LegibleEntries P entries := by
  induction fuel with
  | zero =>
      refine ⟨?_, ?_, ?_⟩
      · intro text value after h
        exact absurd h (by simp [readValue, depthExceeded, error])
      · intro text items after h
        exact absurd h (by simp [readItems, depthExceeded, error])
      · intro text entries after h
        exact absurd h (by simp [readEntries, depthExceeded, error])
  | succ fuel ih =>
      obtain ⟨hvalue, hitems, hentries⟩ := ih
      refine ⟨?_, ?_, ?_⟩
      · intro text value after h
        rw [readValue.eq_def] at h
        dsimp only at h
        split at h
        · obtain ⟨⟨content, rest⟩, _, h⟩ := Result.of_bind_ok h
          obtain ⟨rfl, rfl⟩ := Prod.mk.inj (Except.ok.inj h)
          rw [Legible]
          trivial
        · split at h
          · obtain ⟨rfl, rfl⟩ := Prod.mk.inj (Except.ok.inj h)
            simp [Legible, LegibleEntries]
          · obtain ⟨⟨entries, rest⟩, hread, h⟩ := Result.of_bind_ok h
            obtain ⟨found, hpairs, h⟩ := Result.of_bind_ok h
            obtain ⟨rfl, rfl⟩ := Prod.mk.inj (Except.ok.inj h)
            unfold objectPairs at hpairs
            split at hpairs
            · exact absurd hpairs (by simp [error])
            · rename_i hkeys
              obtain rfl := Except.ok.inj hpairs
              rw [Legible]
              exact ⟨(nodup_of_repeatedKey? hkeys).1, hentries _ _ _ hread⟩
          · exact absurd h (by simp [invalidJson, error])
        · split at h
          · obtain ⟨rfl, rfl⟩ := Prod.mk.inj (Except.ok.inj h)
            simp [Legible, LegibleItems]
          · obtain ⟨⟨items, rest⟩, hread, h⟩ := Result.of_bind_ok h
            obtain ⟨rfl, rfl⟩ := Prod.mk.inj (Except.ok.inj h)
            rw [Legible]
            exact hitems _ _ _ hread
        · obtain ⟨rfl, rfl⟩ := Prod.mk.inj (Except.ok.inj h)
          rw [Legible]
          trivial
        · obtain ⟨rfl, rfl⟩ := Prod.mk.inj (Except.ok.inj h)
          rw [Legible]
          trivial
        · obtain ⟨rfl, rfl⟩ := Prod.mk.inj (Except.ok.inj h)
          rw [Legible]
          trivial
        · exact absurd h (by simp [rejectConstant, error])
        · exact absurd h (by simp [rejectConstant, error])
        · exact absurd h (by simp [rejectConstant, error])
        · exact legible_of_readNumber hparse h
        · exact legible_of_readNumber hparse h
      · intro text items after h
        rw [readItems] at h
        obtain ⟨⟨item, rest⟩, hitem, h⟩ := Result.of_bind_ok h
        dsimp only at h
        split at h
        · obtain ⟨⟨others, last⟩, hothers, h⟩ := Result.of_bind_ok h
          obtain ⟨rfl, rfl⟩ := Prod.mk.inj (Except.ok.inj h)
          rw [LegibleItems]
          exact ⟨hvalue _ _ _ hitem, hitems _ _ _ hothers⟩
        · obtain ⟨rfl, rfl⟩ := Prod.mk.inj (Except.ok.inj h)
          simp only [LegibleItems, and_true]
          exact hvalue _ _ _ hitem
        · exact absurd h (by simp [invalidJson, error])
      · intro text entries after h
        rw [readEntries] at h
        obtain ⟨⟨key, afterKey⟩, _, h⟩ := Result.of_bind_ok h
        dsimp only at h
        split at h
        · obtain ⟨⟨item, rest⟩, hitem, h⟩ := Result.of_bind_ok h
          dsimp only at h
          split at h
          · split at h
            · obtain ⟨⟨others, last⟩, hothers, h⟩ := Result.of_bind_ok h
              obtain ⟨rfl, rfl⟩ := Prod.mk.inj (Except.ok.inj h)
              rw [LegibleEntries]
              exact ⟨hvalue _ _ _ hitem, hentries _ _ _ hothers⟩
            · exact absurd h (by simp [invalidJson, error])
          · obtain ⟨rfl, rfl⟩ := Prod.mk.inj (Except.ok.inj h)
            simp only [LegibleEntries, and_true]
            exact hvalue _ _ _ hitem
          · exact absurd h (by simp [invalidJson, error])
        · exact absurd h (by simp [invalidJson, error])

end Reading

/-! ## A hook that takes more -/

section Hooks

variable {strict loose : List Char → Result Int}
  (hlooser : ∀ raw value, strict raw = .ok value → loose raw = .ok value)

include hlooser

theorem finishNumber_looser {raw rest : List Char} {found : Json × List Char}
    (h : finishNumber strict raw rest = .ok found) : finishNumber loose raw rest = .ok found := by
  unfold finishNumber at h ⊢
  split at h
  · obtain ⟨number, hnumber, h⟩ := Result.of_bind_ok h
    rw [hlooser raw number hnumber]
    exact h
  · exact absurd h (by simp [error])

theorem readNumber_looser {sign text : List Char} {found : Json × List Char}
    (h : readNumber strict sign text = .ok found) : readNumber loose sign text = .ok found := by
  unfold readNumber at h ⊢
  split at h
  · exact finishNumber_looser hlooser h
  · split at h
    · rename_i hdigit
      rw [if_pos hdigit]
      exact finishNumber_looser hlooser h
    · exact absurd h (by simp [invalidJson, error])
  · exact absurd h (by simp [invalidJson, error])

/-- A reader with a hook that takes more reads what it read before. -/
theorem read_looser (fuel : Nat) :
    (∀ text found, readValue strict fuel text = .ok found → readValue loose fuel text = .ok found) ∧
    (∀ text found, readItems strict fuel text = .ok found → readItems loose fuel text = .ok found) ∧
    ∀ text found, readEntries strict fuel text = .ok found → readEntries loose fuel text = .ok found := by
  induction fuel with
  | zero =>
      refine ⟨?_, ?_, ?_⟩
      · intro text found h
        exact absurd h (by simp [readValue, depthExceeded, error])
      · intro text found h
        exact absurd h (by simp [readItems, depthExceeded, error])
      · intro text found h
        exact absurd h (by simp [readEntries, depthExceeded, error])
  | succ fuel ih =>
      obtain ⟨hvalue, hitems, hentries⟩ := ih
      refine ⟨?_, ?_, ?_⟩
      · intro text found h
        rw [readValue.eq_def] at h ⊢
        dsimp only at h ⊢
        split at h
        · exact h
        · split at h
          · exact h
          · obtain ⟨⟨entries, rest⟩, hread, h⟩ := Result.of_bind_ok h
            rw [hentries _ _ hread]
            exact h
          · exact absurd h (by simp [invalidJson, error])
        · split at h
          · exact h
          · obtain ⟨⟨items, rest⟩, hread, h⟩ := Result.of_bind_ok h
            rw [hitems _ _ hread]
            exact h
        · exact h
        · exact h
        · exact h
        · exact h
        · exact h
        · exact h
        · exact readNumber_looser hlooser h
        · exact readNumber_looser hlooser h
      · intro text found h
        rw [readItems] at h ⊢
        obtain ⟨⟨item, rest⟩, hitem, h⟩ := Result.of_bind_ok h
        rw [hvalue _ _ hitem]
        dsimp only [bind, Except.bind] at h ⊢
        split at h
        · obtain ⟨⟨others, last⟩, hothers, h⟩ := Result.of_bind_ok h
          rw [hitems _ _ hothers]
          exact h
        · exact h
        · exact absurd h (by simp [invalidJson, error])
      · intro text found h
        rw [readEntries] at h ⊢
        obtain ⟨⟨key, afterKey⟩, hkey, h⟩ := Result.of_bind_ok h
        rw [hkey]
        dsimp only [bind, Except.bind] at h ⊢
        split at h
        · obtain ⟨⟨item, rest⟩, hitem, h⟩ := Result.of_bind_ok h
          rw [hvalue _ _ hitem]
          dsimp only at h ⊢
          split at h
          · split at h
            · obtain ⟨⟨others, last⟩, hothers, h⟩ := Result.of_bind_ok h
              rw [hentries _ _ hothers]
              exact h
            · exact absurd h (by simp [invalidJson, error])
          · exact h
          · exact absurd h (by simp [invalidJson, error])
        · exact absurd h (by simp [invalidJson, error])

theorem readDocument_looser {text : List Char} {value : Json} (h : readDocument strict text = .ok value) :
    readDocument loose text = .ok value := by
  unfold readDocument at h ⊢
  dsimp only at h ⊢
  obtain ⟨⟨found, rest⟩, hread, h⟩ := Result.of_bind_ok h
  rw [(read_looser hlooser _).1 _ _ hread]
  exact h

end Hooks

theorem anyInteger_of_parseInteger {raw : List Char} (h : parseInteger raw = .ok value) :
    anyInteger raw = .ok value := by
  have hbounded {digits : List Char} {found : Int} (h : boundedInteger digits found = .ok value) : found = value := by
    unfold boundedInteger at h
    split at h
    · exact absurd h (by simp [integerRange, error])
    · split at h
      · exact Except.ok.inj h
      · exact absurd h (by simp [integerRange, error])
  by_cases hsigned : ∃ digits, raw = '-' :: digits
  · obtain ⟨digits, rfl⟩ := hsigned
    exact congrArg Except.ok (hbounded h)
  · have hunsigned : ∀ digits, raw ≠ '-' :: digits := fun digits heq => hsigned ⟨digits, heq⟩
    rw [parseInteger.eq_2 _ hunsigned] at h
    rw [anyInteger.eq_2 _ hunsigned]
    exact congrArg Except.ok (hbounded h)

end AgentArtifacts.JsonText
