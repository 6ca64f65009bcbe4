import AgentArtifacts.Protocol.Paths
import AgentArtifacts.Protocol.SemVer

/-!
# The text of semantic versions

The reader of versions. It accepts canonical numbers only, so a version that was
read has the text it was read from, and the text of such a version determines it.
-/

namespace AgentArtifacts

/-! ## Reading -/

def semverInvalid : DiagnosticCode := ⟨"protocol-semver-invalid"⟩

def isIdentifierChar (c : Char) : Bool := c.isAlphanum || c == '-'

def isNumber (text : List Char) : Bool :=
  text == ['0'] || (text != [] && text.head? != some '0' && text.all Char.isDigit)

def isIdentifier (text : List Char) : Bool := text != [] && text.all isIdentifierChar

/-- The part before a character and, if it occurs, the part after it. -/
def cutAt (c : Char) (text : List Char) : List Char × Option (List Char) :=
  match text.dropWhile (· != c) with
  | [] => (text, none)
  | _ :: rest => (text.takeWhile (· != c), some rest)

def numberOutside {α : Type} : Result α :=
  error semverInvalid "SemVer numeric identifier is outside signed 64-bit range"

def boundedNumber (text : List Char) : Result Nat :=
  if text.length > 19 then numberOutside
  else if Nat.ofDigitChars 10 text 0 ≤ 2 ^ 63 - 1 then .ok (Nat.ofDigitChars 10 text 0)
  else numberOutside

def prereleaseIdentifier (text : List Char) : Result PrereleaseIdentifier :=
  if text.all Char.isDigit then
    if text.length > 1 ∧ text.head? = some '0' then
      error semverInvalid ("numeric prerelease identifier has a leading zero: " ++ pyRepr (String.ofList text))
    else (boundedNumber text).map .number
  else .ok (.text (String.ofList text))

/-- The dotted identifiers of an optional part. -/
def identifierParts : Option (List Char) → List (List Char)
  | none => []
  | some text => text.splitOn '.'

def parseSemver (raw : String) : Result SemVer :=
  let (front, build) := cutAt '+' raw.toList
  let (core, prerelease) := cutAt '-' front
  match core.splitOn '.' with
  | [major, minor, patch] =>
      if isNumber major && isNumber minor && isNumber patch && (identifierParts prerelease).all isIdentifier &&
          (identifierParts build).all isIdentifier then do
        let major ← boundedNumber major
        let minor ← boundedNumber minor
        let patch ← boundedNumber patch
        let prerelease ← (identifierParts prerelease).mapM prereleaseIdentifier
        return ⟨major, minor, patch, prerelease, (identifierParts build).map String.ofList⟩
      else error semverInvalid ("invalid SemVer: " ++ pyRepr raw)
  | _ => error semverInvalid ("invalid SemVer: " ++ pyRepr raw)

/-! ## A version has the text it was read from -/

variable {c : Char}

theorem cutAt_eq {text front : List Char} {rest : Option (List Char)} (h : cutAt c text = (front, rest)) :
    text = front ++ (rest.map (c :: ·)).getD [] := by
  unfold cutAt at h
  split at h
  · obtain ⟨rfl, rfl⟩ := Prod.mk.inj h
    simp
  · rename_i d tail hdrop
    obtain ⟨rfl, rfl⟩ := Prod.mk.inj h
    have hd : d = c := by
      have hhead := List.head?_dropWhile_not (· != c) text
      rw [hdrop] at hhead
      simpa using hhead
    have hsplit := List.takeWhile_append_dropWhile (p := (· != c)) (l := text)
    rw [hdrop, hd] at hsplit
    exact hsplit.symm

theorem digitChar_of_isDigit (h : c.isDigit = true) :
    c.toNat - 48 < 10 ∧ Nat.digitChar (c.toNat - 48) = c := by
  obtain ⟨hlow, hhigh⟩ : 48 ≤ c.toNat ∧ c.toNat ≤ 57 := Char.isDigit_iff_toNat.mp h
  refine ⟨by omega, Char.toNat_inj.mp ?_⟩
  rw [Nat.toNat_digitChar_of_lt_ten (by omega)]
  omega

variable {text : List Char}

/-- By the last digit: the digits before it are a number without a leading zero. -/
theorem toDigits_ofDigitChars_pos (hne : text ≠ []) (hhead : text.head? ≠ some '0')
    (hdigits : ∀ c ∈ text, c.isDigit = true) :
    0 < Nat.ofDigitChars 10 text 0 ∧ Nat.toDigits 10 (Nat.ofDigitChars 10 text 0) = text := by
  induction text using List.reverseRecOn with
  | nil => exact absurd rfl hne
  | append_singleton front last ih =>
      obtain ⟨hsmall, hlast⟩ := digitChar_of_isDigit (hdigits last (by simp))
      have hvalue : Nat.ofDigitChars 10 (front ++ [last]) 0 =
          10 * Nat.ofDigitChars 10 front 0 + (last.toNat - 48) := by
        rw [Nat.ofDigitChars_append, Nat.ofDigitChars_cons, Nat.ofDigitChars_nil]
        rfl
      rw [hvalue]
      by_cases hfront : front = []
      · subst hfront
        have hzero : last.toNat - 48 ≠ 0 := by
          intro h
          rw [h] at hlast
          exact hhead (by rw [← hlast]; rfl)
        rw [Nat.ofDigitChars_nil, Nat.mul_zero, Nat.zero_add, Nat.toDigits_of_lt_base hsmall, hlast]
        exact ⟨by omega, rfl⟩
      · rw [List.head?_append_of_ne_nil _ hfront] at hhead
        obtain ⟨hpos, hform⟩ := ih hfront hhead fun c hc => hdigits c (List.mem_append_left _ hc)
        rw [← Nat.toDigits_append_toDigits (by decide) hpos hsmall, hform, Nat.toDigits_of_lt_base hsmall, hlast]
        exact ⟨by omega, rfl⟩

/-- A canonical number is what its value is written as. -/
theorem toDigits_ofDigitChars (h : isNumber text = true) :
    Nat.toDigits 10 (Nat.ofDigitChars 10 text 0) = text := by
  simp only [isNumber, Bool.or_eq_true, beq_iff_eq, Bool.and_eq_true, bne_iff_ne, ne_eq, List.all_eq_true] at h
  rcases h with rfl | ⟨⟨hne, hhead⟩, hdigits⟩
  · decide
  · exact (toDigits_ofDigitChars_pos hne hhead hdigits).2

theorem toString_of_boundedNumber {value : Nat} (hnumber : isNumber text = true)
    (h : boundedNumber text = .ok value) : (toString value).toList = text := by
  have hvalue : value = Nat.ofDigitChars 10 text 0 := by
    unfold boundedNumber at h
    split at h
    · exact absurd h (by simp [numberOutside, error])
    · split at h
      · exact (Except.ok.inj h).symm
      · exact absurd h (by simp [numberOutside, error])
  rw [hvalue, Nat.toString_eq_ofList_toDigits, String.toList_ofList, toDigits_ofDigitChars hnumber]

theorem str_of_prereleaseIdentifier {identifier : PrereleaseIdentifier}
    (hvalid : isIdentifier text = true) (h : prereleaseIdentifier text = .ok identifier) :
    identifier.str.toList = text := by
  unfold prereleaseIdentifier at h
  split at h
  · rename_i hdigits
    split at h
    · exact absurd h (by simp [error])
    · rename_i hzero
      obtain ⟨value, hvalue, rfl⟩ := Result.of_map_ok h
      refine toString_of_boundedNumber ?_ hvalue
      have hne : text ≠ [] := by
        rintro rfl
        exact absurd hvalid (by decide)
      simp only [isNumber, Bool.or_eq_true, beq_iff_eq, Bool.and_eq_true, bne_iff_ne, ne_eq]
      by_cases hhead : text.head? = some '0'
      · left
        cases text with
        | nil => exact absurd rfl hne
        | cons c rest =>
            obtain rfl : c = '0' := by simpa using hhead
            have hshort : ¬ (1 < ('0' :: rest).length) := fun hlong => hzero ⟨hlong, hhead⟩
            cases rest with
            | nil => rfl
            | cons d rest => exact absurd (by simp) hshort
      · exact Or.inr ⟨⟨hne, hhead⟩, hdigits⟩
  · obtain rfl := Except.ok.inj h
    simp [PrereleaseIdentifier.str]

theorem texts_ofList (parts : List (List Char)) : (parts.map String.ofList).map String.toList = parts := by
  simp [Function.comp_def]

theorem identifierTexts {parts : List (List Char)} {identifiers : List PrereleaseIdentifier}
    (hvalid : ∀ text ∈ parts, isIdentifier text = true) (h : parts.mapM prereleaseIdentifier = .ok identifiers) :
    (identifiers.map (·.str)).map String.toList = parts := by
  have hall := Result.forall₂_of_mapM_ok h
  clear h
  induction hall with
  | nil => rfl
  | cons hfirst _ ih =>
      rw [List.map_cons, List.map_cons, ih fun text hmem => hvalid text (List.mem_cons_of_mem _ hmem),
        str_of_prereleaseIdentifier (hvalid _ List.mem_cons_self) hfirst]

/-- The text of an optional part, from its identifiers. -/
theorem identifierParts_text (mark : Char) {part : Option (List Char)} {texts : List String}
    (h : texts.map String.toList = identifierParts part) :
    (if texts = [] then "" else String.singleton mark ++ String.intercalate "." texts).toList =
      (part.map (mark :: ·)).getD [] := by
  cases part with
  | none =>
      have hnil : texts = [] := by simpa [identifierParts] using h
      rw [if_pos hnil]
      rfl
  | some text =>
      have hsome : texts ≠ [] := by
        rintro rfl
        exact absurd h.symm (List.splitOn_ne_nil '.' text)
      rw [if_neg hsome]
      simp only [String.toList_append, String.toList_intercalate, h, identifierParts]
      simp [List.intercalate_splitOn]

/-- A version that was read is written as the text it was read from. -/
theorem str_of_parseSemver {raw : String} {version : SemVer} (h : parseSemver raw = .ok version) :
    version.str = raw := by
  unfold parseSemver at h
  cases hfront : cutAt '+' raw.toList with
  | mk front build =>
      cases hcore : cutAt '-' front with
      | mk core prerelease =>
          simp only [hfront, hcore] at h
          split at h
          · rename_i major minor patch hparts
            split at h
            · rename_i hvalid
              simp only [Bool.and_eq_true, List.all_eq_true] at hvalid
              obtain ⟨⟨⟨⟨hmajor, hminor⟩, hpatch⟩, hprerelease⟩, hbuild⟩ := hvalid
              obtain ⟨majorValue, hmajorValue, h⟩ := Result.of_bind_ok h
              obtain ⟨minorValue, hminorValue, h⟩ := Result.of_bind_ok h
              obtain ⟨patchValue, hpatchValue, h⟩ := Result.of_bind_ok h
              obtain ⟨identifiers, hidentifiers, h⟩ := Result.of_bind_ok h
              obtain rfl := Except.ok.inj h
              have hcoreText : core = major ++ '.' :: (minor ++ '.' :: patch) := by
                have hjoined : ['.'].intercalate (core.splitOn '.') = core := List.intercalate_splitOn '.'
                rw [← hjoined, hparts]
                simp [List.intercalate]
              have hidentifierTexts : (identifiers.map (·.str)).map String.toList = identifierParts prerelease :=
                identifierTexts hprerelease hidentifiers
              have hprereleaseText := identifierParts_text '-' hidentifierTexts
              have hbuildText := identifierParts_text '+' (texts_ofList (identifierParts build))
              refine String.toList_inj.mp ?_
              rw [cutAt_eq hfront, cutAt_eq hcore, ← hprereleaseText, ← hbuildText, hcoreText,
                ← toString_of_boundedNumber hmajor hmajorValue, ← toString_of_boundedNumber hminor hminorValue,
                ← toString_of_boundedNumber hpatch hpatchValue]
              simp [SemVer.str, String.toList_append, apply_ite String.toList]
            · exact absurd h (by simp [error])
          · exact absurd h (by simp [error])

/-! ## Characters of a version -/

theorem mem_intercalate {mark c : Char} {parts : List (List Char)} (h : c ∈ [mark].intercalate parts) :
    c = mark ∨ ∃ part ∈ parts, c ∈ part := by
  induction parts with
  | nil => exact absurd h (by simp)
  | cons part rest ih =>
      cases rest with
      | nil => exact Or.inr ⟨part, by simp, by simpa using h⟩
      | cons next rest =>
          rw [List.intercalate_cons_cons] at h
          simp only [List.mem_append, List.mem_singleton] at h
          rcases h with (hc | rfl) | hc
          · exact Or.inr ⟨part, List.mem_cons_self, hc⟩
          · exact Or.inl rfl
          · exact (ih hc).imp_right fun ⟨other, hother, hmem⟩ => ⟨other, List.mem_cons_of_mem _ hother, hmem⟩

/-- The characters that occur in a version. -/
def isVersionChar (c : Char) : Bool := isIdentifierChar c || c == '.' || c == '+'

theorem isNumber_char (h : isNumber text = true) (hc : c ∈ text) :
    isIdentifierChar c = true := by
  simp only [isNumber, Bool.or_eq_true, beq_iff_eq, Bool.and_eq_true, List.all_eq_true] at h
  rcases h with rfl | ⟨_, hdigits⟩
  · obtain rfl := List.mem_singleton.mp hc
    decide
  · simp [isIdentifierChar, Char.isAlphanum, hdigits c hc]

/-- The characters of a dotted part, when every identifier in it is made of identifier characters. -/
theorem isVersionChar_of_splitOn
    (h : ∀ part ∈ text.splitOn '.', ∀ c ∈ part, isIdentifierChar c = true) (hc : c ∈ text) :
    isVersionChar c = true := by
  have hjoined : ['.'].intercalate (text.splitOn '.') = text := List.intercalate_splitOn '.'
  rw [← hjoined] at hc
  rcases mem_intercalate hc with rfl | ⟨part, hpart, hmem⟩
  · decide
  · simp [isVersionChar, h part hpart c hmem]

theorem isVersionChar_of_part {mark : Char} (hmark : isVersionChar mark = true) {part : Option (List Char)}
    (h : ∀ text ∈ identifierParts part, isIdentifier text = true)
    (hc : c ∈ (part.map (mark :: ·)).getD []) : isVersionChar c = true := by
  cases part with
  | none => exact absurd hc (by simp)
  | some text =>
      rcases List.mem_cons.mp hc with rfl | hc
      · exact hmark
      · refine isVersionChar_of_splitOn (fun part hpart d hd => ?_) hc
        have hvalid := h part hpart
        simp only [isIdentifier, Bool.and_eq_true, List.all_eq_true] at hvalid
        exact hvalid.2 d hd

theorem isVersionChar_of_parseSemver {raw : String} {version : SemVer} (h : parseSemver raw = .ok version)
    (hc : c ∈ raw.toList) : isVersionChar c = true := by
  unfold parseSemver at h
  cases hfront : cutAt '+' raw.toList with
  | mk front build =>
      cases hcore : cutAt '-' front with
      | mk core prerelease =>
          simp only [hfront, hcore] at h
          split at h
          · rename_i major minor patch hparts
            split at h
            · rename_i hvalid
              simp only [Bool.and_eq_true, List.all_eq_true] at hvalid
              obtain ⟨⟨⟨⟨hmajor, hminor⟩, hpatch⟩, hprerelease⟩, hbuild⟩ := hvalid
              rw [cutAt_eq hfront, cutAt_eq hcore] at hc
              rcases List.mem_append.mp hc with hc | hc
              · rcases List.mem_append.mp hc with hc | hc
                · refine isVersionChar_of_splitOn (fun part hpart d hd => ?_) hc
                  rw [hparts] at hpart
                  simp only [List.mem_cons, List.not_mem_nil, or_false] at hpart
                  rcases hpart with rfl | rfl | rfl
                  · exact isNumber_char hmajor hd
                  · exact isNumber_char hminor hd
                  · exact isNumber_char hpatch hd
                · exact isVersionChar_of_part (by decide) hprerelease hc
              · exact isVersionChar_of_part (by decide) hbuild hc
            · exact absurd h (by simp [error])
          · exact absurd h (by simp [error])

end AgentArtifacts
