import AgentArtifacts.Installation.MemoryBlock
import AgentArtifacts.Library.Blocks
import AgentArtifacts.Setup.StateFile

/-!
# Managed blocks of setup

A step of setup owns the lines between two markers of a file. The block is found by a regular
expression over the lines of the file; it is put in its place, and taken out again, by a
substitution that reads its replacement as a template.
-/

namespace AgentArtifacts.Setup

open Blocks (Delimiters Found)

/-! ## Replacement templates -/

section Template

def isOctal (c : Char) : Bool := '0' ≤ c && c ≤ '7'

def octalValue (digits : Chars) : Nat := digits.foldl (fun value c => 8 * value + (c.toNat - '0'.toNat)) 0

/-- The escapes of a template that stand for one character. -/
def templateEscape : Char → Option Char
  | 'a' => some '\x07'
  | 'b' => some '\x08'
  | 'f' => some '\x0c'
  | 'n' => some '\n'
  | 'r' => some '\r'
  | 't' => some '\t'
  | 'v' => some '\x0b'
  | '\\' => some '\\'
  | _ => none

variable [PlainJson]

/-- What `\g<name>` stands for in a pattern with one group and no names. -/
def groupNamed (whole group name : Chars) : Option Chars :=
  if '\\' ∈ name then none
  else match PlainJson.intOfText (String.ofList name) with
  | some 0 => some whole
  | some 1 => some group
  | _ => none

/-- `\1`: the group of one digit. -/
def groupOfDigit (group : Chars) (c : Char) : Option (Chars × Nat) := if c = '1' then some (group, 1) else none

/-- What a digit other than zero and the text after it stand for. -/
def expandDigits (group : Chars) (c : Char) : Chars → Option (Chars × Nat)
  | [] => groupOfDigit group c
  | [d] => if d.isDigit then none else groupOfDigit group c
  | d :: e :: _ =>
      if isOctal c && isOctal d && isOctal e then
        if octalValue [c, d, e] ≤ 0o377 then some ([Char.ofNat (octalValue [c, d, e])], 3) else none
      -- Two digits are the number of a group, and there is only one.
      else if d.isDigit then none
      else groupOfDigit group c

/-- What the text after a backslash stands for, and how many of its characters belong to it;
nothing where the template is an error. -/
def expandEscape (whole group : Chars) : Chars → Option (Chars × Nat)
  | [] => none
  | 'g' :: '<' :: rest =>
      let name := rest.takeWhile (· != '>')
      if name.length < rest.length then (groupNamed whole group name).map fun text => (text, name.length + 3)
      else none
  | 'g' :: _ => none
  | '0' :: rest =>
      let digits := (rest.take 2).takeWhile isOctal
      some ([Char.ofNat (octalValue digits % 0x100)], digits.length + 1)
  | c :: rest =>
      if c.isDigit then expandDigits group c rest
      else
        match templateEscape c with
        | some escaped => some ([escaped], 1)
        | none => if c.isAlpha then none else some (['\\', c], 1)

/-- The text of a template, of which `skip` characters are already read. -/
def expandFrom (whole group : Chars) : Nat → Chars → Option Chars
  | _, [] => some []
  | skip + 1, _ :: rest => expandFrom whole group skip rest
  | 0, c :: rest =>
      if c = '\\' then
        match expandEscape whole group rest with
        | none => none
        | some (text, used) => (expandFrom whole group used rest).map (text ++ ·)
      else (expandFrom whole group 0 rest).map (c :: ·)

/-- The replacement that `pattern.sub` makes of a template. -/
def expandTemplate (whole group template : Chars) : Option Chars := expandFrom whole group 0 template

end Template

/-! ## Blocks -/

inductive BlockError where
  /-- `multiple managed blocks for {marker}`. -/
  | multiple (marker : Chars)
  /-- The replacement is no template. -/
  | template
deriving DecidableEq

def setupMarkers (marker : Chars) : Delimiters Char where
  sep := '\n'
  opening := "# >>> aart setup: ".toList ++ marker ++ " >>>".toList
  closing := "# <<< aart setup: ".toList ++ marker ++ " <<<".toList

/-- `$`: what is left begins with the end of a line. -/
def endsLine : Chars → Bool
  | [] => true
  | c :: _ => c == '\n'

/-- The pattern of `managed_block`. -/
def findManaged (marker : Chars) (atLine : Bool) (text : Chars) : Option (Found Char) :=
  (setupMarkers marker).find endsLine atLine text

/-- The pattern of `rollback_managed_block`: its closing marker need not end a line. -/
def findOwned (marker text : Chars) : Option (Found Char) := (setupMarkers marker).find (fun _ => true) true text

/-- The block of a marker with its content. -/
def setupBlock (marker content : Chars) : Chars := (setupMarkers marker).block (Text.stripRight isSpace content)

/-- What separates a new block from the text before it. -/
def blockSeparator (existing : Chars) : Chars :=
  if existing = [] then []
  else if ['\n', '\n'] <:+ existing then []
  else if ['\n'] <:+ existing then ['\n']
  else ['\n', '\n']

/-- The newline that a text begins with. -/
def firstNewline : Chars → Chars
  | '\n' :: _ => ['\n']
  | _ => []

section Managed

variable [PlainJson]

/-- `managed_block`. -/
def managedBlock (existing marker content : Chars) : Except BlockError (Chars × Bool × Option Chars) :=
  let block := setupBlock marker content
  match findManaged marker true existing with
  | none => .ok (existing ++ blockSeparator existing ++ block ++ ['\n'], true, none)
  | some found =>
      -- The search for a second block goes on after the first one.
      if (findManaged marker false found.after).isSome then .error (.multiple marker)
      else if found.block = block then .ok (existing, false, some found.block)
      else match expandTemplate found.block found.block block with
      | none => .error .template
      | some replacement => .ok (found.before ++ replacement ++ found.after, true, some found.block)

/-- `rollback_managed_block`. -/
def rollbackManagedBlock (current marker installedBlock : Chars) (priorBlock : Option Chars) :
    Except BlockError (Option Chars) :=
  match findOwned marker current with
  | none => .ok none
  | some found =>
      if found.block ≠ installedBlock then .ok none
      else match expandTemplate (found.block ++ firstNewline found.after) found.block
          ((priorBlock.map (· ++ ['\n'])).getD []) with
      | none => .error .template
      | some replacement => .ok (some (found.before ++ replacement ++ dropNewline found.after))

end Managed

/-! ## Reading templates -/

/-- Every backslash stands before a character that makes no escape of it. -/
def inert : Chars → Bool
  | [] => true
  | c :: rest => (c != '\\' || rest.head?.any fun next => !next.isAlphanum && next != '\\') && inert rest

section Reading

variable [PlainJson] {whole group text : Chars}

variable {c : Char}

omit [PlainJson] in
theorem templateEscape_eq_none (halnum : c.isAlphanum = false) (hslash : c ≠ '\\') :
    templateEscape c = none := by
  unfold templateEscape
  split
  all_goals first
    | exact absurd halnum (by decide)
    | exact absurd rfl hslash
    | rfl

theorem expandEscape_of_plain (halnum : c.isAlphanum = false) (hslash : c ≠ '\\') (rest : Chars) :
    expandEscape whole group (c :: rest) = some (['\\', c], 1) := by
  have hdigit : c.isDigit = false := by
    unfold Char.isAlphanum at halnum
    exact (Bool.or_eq_false_iff.mp halnum).2
  have halpha : c.isAlpha = false := by
    unfold Char.isAlphanum at halnum
    exact (Bool.or_eq_false_iff.mp halnum).1
  unfold expandEscape
  split
  · rename_i hsame
    cases hsame
  · rename_i hsame
    obtain ⟨rfl, -⟩ := List.cons.inj hsame
    exact absurd halnum (by decide)
  · rename_i hsame
    obtain ⟨rfl, -⟩ := List.cons.inj hsame
    exact absurd halnum (by decide)
  · rename_i hsame
    obtain ⟨rfl, -⟩ := List.cons.inj hsame
    exact absurd halnum (by decide)
  · rename_i hsame
    obtain ⟨rfl, rfl⟩ := List.cons.inj hsame
    rw [if_neg (by rw [hdigit]; exact Bool.false_ne_true), templateEscape_eq_none halnum hslash]
    dsimp only
    rw [if_neg (by rw [halpha]; exact Bool.false_ne_true)]

/-- A template without escapes stands for itself. -/
theorem expandTemplate_of_inert (h : inert text = true) : expandTemplate whole group text = some text := by
  unfold expandTemplate
  induction text with
  | nil => rfl
  | cons c rest ih =>
      rw [inert, Bool.and_eq_true] at h
      have hrest := ih h.2
      rw [expandFrom]
      split
      · rename_i hslash
        have hhead := h.1
        rw [hslash] at hhead ⊢
        cases rest with
        | nil => cases hhead
        | cons next more =>
            have hplain : next.isAlphanum = false ∧ next ≠ '\\' := by simpa using hhead
            rw [expandEscape_of_plain hplain.1 hplain.2]
            rw [expandFrom, if_neg hplain.2] at hrest
            obtain ⟨tail, htail, hsame⟩ := Option.map_eq_some_iff.mp hrest
            rw [(List.cons.inj hsame).2] at htail
            dsimp only
            rw [expandFrom, htail]
            rfl
      · rw [hrest]
        rfl

omit [PlainJson] in
/-- The name of a group ends before the end of the line of a closing marker. -/
theorem takeWhile_lt_of_closing
    (h : ((text ++ ['<', '\n']).takeWhile (· != '>')).length < (text ++ ['<', '\n']).length) :
    ((text ++ ['<', '\n']).takeWhile (· != '>')).length < text.length := by
  rw [List.takeWhile_append] at h ⊢
  split
  · rename_i hall
    rw [if_pos hall, List.length_append, List.length_append] at h
    exact absurd h (by simp)
  · rename_i hnot
    exact Nat.lt_of_le_of_ne (List.takeWhile_sublist _).length_le hnot

omit [PlainJson] in
theorem takeWhile_octal_le (text : Chars) :
    (((text ++ ['<', '\n']).take 2).takeWhile isOctal).length ≤ text.length := by
  cases text with
  | nil => exact Nat.le_of_eq (by decide)
  | cons c rest =>
      cases rest with
      | nil =>
          rw [List.cons_append, List.nil_append, List.take_succ_cons, List.take_succ_cons, List.take_zero,
            List.takeWhile_cons]
          have hstop : ['<'].takeWhile isOctal = [] := by decide
          rw [hstop]
          split
          · exact Nat.le_refl _
          · exact Nat.zero_le _
      | cons d more =>
          have hle := (List.takeWhile_sublist isOctal (l := (c :: d :: more ++ ['<', '\n']).take 2)).length_le
          rw [List.length_take] at hle
          rw [List.length_cons, List.length_cons]
          omega

omit [PlainJson] in
theorem used_of_groupOfDigit {taken : Chars} {used : Nat} (h : groupOfDigit group c = some (taken, used)) :
    used = 1 := by
  unfold groupOfDigit at h
  split at h
  · cases h
    rfl
  · cases h

omit [PlainJson] in
theorem expandDigits_used {taken : Chars} {used : Nat}
    (h : expandDigits group c (text ++ ['<', '\n']) = some (taken, used)) : used ≤ text.length + 1 := by
  have hone {c : Char} (hgroup : groupOfDigit group c = some (taken, used)) : used ≤ text.length + 1 := by
    rw [used_of_groupOfDigit hgroup]
    exact Nat.succ_le_succ (Nat.zero_le _)
  have hstop : isOctal '<' = false := by decide
  cases text with
  | nil =>
      rw [List.nil_append, expandDigits, hstop, Bool.and_false, Bool.false_and, if_neg Bool.false_ne_true] at h
      split at h
      · cases h
      · exact hone h
  | cons d rest =>
      cases rest with
      | nil =>
          rw [List.cons_append, List.nil_append, expandDigits, hstop, Bool.and_false, if_neg Bool.false_ne_true] at h
          split at h
          · cases h
          · exact hone h
      | cons e more =>
          rw [List.cons_append, List.cons_append, expandDigits] at h
          split at h
          · split at h
            · cases h
              rw [List.length_cons, List.length_cons]
              omega
            · cases h
          · split at h
            · cases h
            · exact hone h

/-- What an escape takes of a text that ends as a closing marker and its line do stays before this end. -/
theorem expandEscape_used {used : Nat} {taken : Chars}
    (h : expandEscape whole group (text ++ ['<', '\n']) = some (taken, used)) :
    used ≤ text.length ∨ (text = [] ∧ taken = ['\\', '<'] ∧ used = 1) := by
  cases text with
  | nil =>
      rw [List.nil_append, expandEscape_of_plain (by decide) (by decide)] at h
      cases h
      exact Or.inr ⟨rfl, rfl, rfl⟩
  | cons c rest =>
      refine Or.inl ?_
      rw [List.length_cons]
      rw [List.cons_append] at h
      unfold expandEscape at h
      split at h
      · cases h
      · rename_i tail hsame
        obtain ⟨rfl, htail⟩ := List.cons.inj hsame
        dsimp only at h
        split at h
        · rename_i hlt
          obtain ⟨_, _, hused⟩ := Option.map_eq_some_iff.mp h
          cases hused
          cases rest with
          | nil =>
              cases htail
              exact absurd hlt (by decide)
          | cons d more =>
              rw [List.cons_append] at htail
              obtain ⟨rfl, rfl⟩ := List.cons.inj htail
              have hname := takeWhile_lt_of_closing hlt
              rw [List.length_cons]
              omega
        · cases h
      · cases h
      · rename_i tail hsame
        obtain ⟨rfl, rfl⟩ := List.cons.inj hsame
        cases h
        have hdigits := takeWhile_octal_le rest
        omega
      · rename_i hsame
        obtain ⟨rfl, rfl⟩ := List.cons.inj hsame
        split at h
        · exact expandDigits_used h
        · split at h
          · cases h
            exact Nat.succ_le_succ (Nat.zero_le _)
          · split at h
            · cases h
            · cases h
              exact Nat.succ_le_succ (Nat.zero_le _)

/-- What a template makes of a text that ends as a line of a closing marker ends like it. -/
theorem expandFrom_closing {skip : Nat} {expanded : Chars} (hskip : skip ≤ text.length)
    (h : expandFrom whole group skip (text ++ ['<', '\n']) = some expanded) :
    ∃ init, expanded = init ++ ['<', '\n'] := by
  induction text generalizing skip expanded with
  | nil =>
      obtain rfl := Nat.le_zero.mp hskip
      cases h
      exact ⟨[], rfl⟩
  | cons c rest ih =>
      cases skip with
      | succ skip =>
          rw [List.cons_append, expandFrom] at h
          exact ih (Nat.le_of_succ_le_succ hskip) h
      | zero =>
          rw [List.cons_append, expandFrom] at h
          split at h
          · split at h
            · cases h
            · rename_i taken used hescape
              obtain ⟨more, hmore, rfl⟩ := Option.map_eq_some_iff.mp h
              rcases expandEscape_used hescape with hused | ⟨rfl, rfl, rfl⟩
              · obtain ⟨init, rfl⟩ := ih hused hmore
                exact ⟨taken ++ init, (List.append_assoc _ _ _).symm⟩
              · cases hmore
                exact ⟨['\\'], rfl⟩
          · obtain ⟨more, hmore, rfl⟩ := Option.map_eq_some_iff.mp h
            obtain ⟨init, rfl⟩ := ih (Nat.zero_le _) hmore
            exact ⟨c :: init, rfl⟩

theorem expandTemplate_closing {expanded : Chars}
    (h : expandTemplate whole group (text ++ ['<', '\n']) = some expanded) : ∃ init, expanded = init ++ ['<', '\n'] :=
  expandFrom_closing (Nat.zero_le _) h

end Reading

end AgentArtifacts.Setup
