import AgentArtifacts.Protocol.SemVerText

/-!
# The grammar of versions

The reader accepts the texts that the grammar of Semantic Versioning 2.0 derives, as long
as the numbers that count in them fit a signed 64-bit integer. A version that was read is
written as the text it came from, and is read back from it.
-/

namespace AgentArtifacts

/-! ## The grammar -/

/-- `<numeric identifier>`: zero, or digits that begin with another one. -/
inductive NumericIdentifier : List Char → Prop
  | zero : NumericIdentifier ['0']
  | positive {first : Char} {rest : List Char} (hfirst : first.isDigit = true) (hnonzero : first ≠ '0')
      (hrest : ∀ c ∈ rest, c.isDigit = true) : NumericIdentifier (first :: rest)

/-- A letter, a digit or a hyphen, of ASCII. -/
def IdentifierCharacter (c : Char) : Prop := c.isAlpha = true ∨ c.isDigit = true ∨ c = '-'

/-- `<build identifier>`. -/
structure BuildIdentifier (text : List Char) : Prop where
  nonempty : text ≠ []
  characters : ∀ c ∈ text, IdentifierCharacter c

/-- `<pre-release identifier>`: a number, or a text that some character keeps from being one. -/
inductive PrereleaseText (text : List Char) : Prop
  | numeric (h : NumericIdentifier text)
  | alphanumeric (hcharacters : ∀ c ∈ text, IdentifierCharacter c) (hnondigit : ∃ c ∈ text, c.isDigit = false)

/-- A part behind its mark, with dots between the identifiers. -/
def dotted (mark : Char) : List (List Char) → List Char
  | [] => []
  | parts => mark :: ['.'].intercalate parts

/-- `<valid semver>`, cut into its identifiers. -/
structure VersionGrammar (major minor patch : List Char) (prerelease build : List (List Char)) : Prop where
  numbers : ∀ text ∈ [major, minor, patch], NumericIdentifier text
  identifiers : ∀ text ∈ prerelease, PrereleaseText text
  metadata : ∀ text ∈ build, BuildIdentifier text

/-- Every numeric identifier but those of the build metadata is at most `2^63 - 1`. -/
def Within64 (texts : List (List Char)) : Prop :=
  ∀ text ∈ texts, NumericIdentifier text → Nat.ofDigitChars 10 text 0 ≤ 2 ^ 63 - 1

def versionText (major minor patch : List Char) (prerelease build : List (List Char)) : List Char :=
  ['.'].intercalate [major, minor, patch] ++ dotted '-' prerelease ++ dotted '+' build

/-- A version of the grammar with numbers of 64 bits. -/
def IsVersion (raw : String) : Prop :=
  ∃ major minor patch prerelease build, VersionGrammar major minor patch prerelease build ∧
    Within64 ([major, minor, patch] ++ prerelease) ∧ raw.toList = versionText major minor patch prerelease build

/-! ## Identifiers -/

variable {text : List Char}

theorem isNumber_iff : isNumber text = true ↔ NumericIdentifier text := by
  simp only [isNumber, Bool.or_eq_true, beq_iff_eq, Bool.and_eq_true, bne_iff_ne, ne_eq, List.all_eq_true]
  constructor
  · intro h
    rcases h with rfl | ⟨⟨hne, hhead⟩, hdigits⟩
    · exact .zero
    · cases text with
      | nil => exact absurd rfl hne
      | cons first rest =>
          obtain ⟨hfirst, hrest⟩ := List.forall_mem_cons.mp hdigits
          exact .positive hfirst (by simpa using hhead) hrest
  · intro h
    cases h with
    | zero => exact Or.inl rfl
    | positive hfirst hnonzero hrest =>
        exact Or.inr ⟨⟨by simp, by simpa using hnonzero⟩, List.forall_mem_cons.mpr ⟨hfirst, hrest⟩⟩

variable {c : Char}

theorem isIdentifierChar_iff : isIdentifierChar c = true ↔ IdentifierCharacter c := by
  simp [isIdentifierChar, IdentifierCharacter, Char.isAlphanum, or_assoc]

theorem isIdentifier_iff : isIdentifier text = true ↔ BuildIdentifier text := by
  simp only [isIdentifier, Bool.and_eq_true, bne_iff_ne, ne_eq, List.all_eq_true, isIdentifierChar_iff]
  constructor
  · intro h
    exact ⟨h.1, h.2⟩
  · intro h
    exact ⟨h.nonempty, h.characters⟩

theorem NumericIdentifier.digits (h : NumericIdentifier text) : ∀ c ∈ text, c.isDigit = true := by
  cases h with
  | zero => simp
  | positive hfirst _ hrest => exact List.forall_mem_cons.mpr ⟨hfirst, hrest⟩

theorem NumericIdentifier.nonempty (h : NumericIdentifier text) : text ≠ [] := by
  cases h <;> simp

theorem PrereleaseText.identifier (h : PrereleaseText text) : BuildIdentifier text := by
  cases h with
  | numeric h => exact ⟨h.nonempty, fun c hc => Or.inr (Or.inl (h.digits c hc))⟩
  | alphanumeric hcharacters hnondigit =>
      obtain ⟨c, hc, _⟩ := hnondigit
      exact ⟨List.ne_nil_of_mem hc, hcharacters⟩

/-- A numeric identifier that fits 64 bits has at most nineteen digits. -/
theorem NumericIdentifier.length_le (h : NumericIdentifier text)
    (hvalue : Nat.ofDigitChars 10 text 0 ≤ 2 ^ 63 - 1) : text.length ≤ 19 := by
  rw [← toDigits_ofDigitChars (isNumber_iff.mpr h)]
  exact (Nat.length_toDigits_le_iff (by omega) (by omega)).mpr (by omega)

theorem boundedNumber_ok_iff (h : NumericIdentifier text) :
    (∃ value, boundedNumber text = .ok value) ↔ Nat.ofDigitChars 10 text 0 ≤ 2 ^ 63 - 1 := by
  unfold boundedNumber
  constructor
  · rintro ⟨value, hvalue⟩
    split at hvalue
    · exact absurd hvalue (by simp [numberOutside, error])
    · split at hvalue
      · assumption
      · exact absurd hvalue (by simp [numberOutside, error])
  · intro hvalue
    have hshort := h.length_le hvalue
    exact ⟨_, by rw [if_neg (by omega), if_pos hvalue]⟩

theorem prereleaseIdentifier_ok_iff (h : BuildIdentifier text) :
    (∃ identifier, prereleaseIdentifier text = .ok identifier) ↔ PrereleaseText text ∧ Within64 [text] := by
  simp only [Within64, List.forall_mem_singleton]
  by_cases hdigits : ∀ c ∈ text, c.isDigit = true
  · have hall : text.all Char.isDigit = true := List.all_eq_true.mpr hdigits
    have hnumeric : PrereleaseText text ↔ NumericIdentifier text := by
      constructor
      · intro htext
        cases htext with
        | numeric h => exact h
        | alphanumeric _ hnondigit =>
            obtain ⟨c, hc, hnot⟩ := hnondigit
            exact absurd (hdigits c hc) (by simp [hnot])
      · exact .numeric
    rw [hnumeric]
    unfold prereleaseIdentifier
    rw [if_pos hall]
    by_cases hzero : text.length > 1 ∧ text.head? = some '0'
    · rw [if_pos hzero]
      refine iff_of_false (by simp [error]) fun hboth => ?_
      cases hboth.1 with
      | zero => exact absurd hzero.1 (by simp)
      | positive _ hnonzero _ => exact hnonzero (by simpa using hzero.2)
    · rw [if_neg hzero]
      have htext : NumericIdentifier text := by
        cases text with
        | nil => exact absurd rfl h.nonempty
        | cons first rest =>
            obtain ⟨hfirst, hrest⟩ := List.forall_mem_cons.mp hdigits
            by_cases hfirstZero : first = '0'
            · subst hfirstZero
              cases rest with
              | nil => exact .zero
              | cons next rest => exact absurd ⟨by simp, rfl⟩ hzero
            · exact .positive hfirst hfirstZero hrest
      rw [← boundedNumber_ok_iff htext]
      constructor
      · rintro ⟨identifier, hidentifier⟩
        obtain ⟨value, hvalue, _⟩ := Result.of_map_ok hidentifier
        exact ⟨htext, fun _ => ⟨value, hvalue⟩⟩
      · intro hboth
        obtain ⟨value, hvalue⟩ := hboth.2 htext
        exact ⟨.number value, by rw [hvalue]; rfl⟩
  · have hall : ¬ text.all Char.isDigit = true := by rwa [List.all_eq_true]
    have hnot : ¬ NumericIdentifier text := fun hnumeric => hdigits hnumeric.digits
    unfold prereleaseIdentifier
    rw [if_neg hall]
    refine iff_of_true ⟨_, rfl⟩ ⟨.alphanumeric h.characters ?_, fun hnumeric => absurd hnumeric hnot⟩
    simpa using hdigits

/-! ## The parts of a text -/

/-- What stands behind the mark of a dotted part. -/
def dottedPart : List (List Char) → Option (List Char)
  | [] => none
  | parts => some (['.'].intercalate parts)

theorem dotted_eq (mark : Char) (parts : List (List Char)) :
    dotted mark parts = ((dottedPart parts).map (mark :: ·)).getD [] := by
  cases parts <;> rfl

theorem dotted_identifierParts (mark : Char) (part : Option (List Char)) :
    dotted mark (identifierParts part) = (part.map (mark :: ·)).getD [] := by
  cases part with
  | none => rfl
  | some text =>
      obtain ⟨first, rest, hparts⟩ := List.exists_cons_of_ne_nil (List.splitOn_ne_nil '.' text)
      have hjoined : ['.'].intercalate (text.splitOn '.') = text := List.intercalate_splitOn '.'
      rw [hparts] at hjoined
      rw [identifierParts, hparts]
      show mark :: ['.'].intercalate (first :: rest) = mark :: text
      rw [hjoined]

theorem identifierParts_dottedPart {parts : List (List Char)} (h : ∀ text ∈ parts, '.' ∉ text) :
    identifierParts (dottedPart parts) = parts := by
  cases parts with
  | nil => rfl
  | cons first rest => exact List.splitOn_intercalate '.' h (List.cons_ne_nil first rest)

theorem cutAt_of_not_mem (h : c ∉ text) : cutAt c text = (text, none) := by
  have hnone : text.dropWhile (· != c) = [] := by
    rw [List.dropWhile_eq_nil_iff]
    intro d hd
    exact bne_iff_ne.mpr fun heq => h (heq ▸ hd)
  rw [cutAt, hnone]

theorem cutAt_append {front rest : List Char} (h : c ∉ front) :
    cutAt c (front ++ c :: rest) = (front, some rest) := by
  have hkept : ∀ d ∈ front, (d != c) = true := fun d hd => bne_iff_ne.mpr fun heq => h (heq ▸ hd)
  rw [cutAt, List.dropWhile_append_of_pos hkept, List.takeWhile_append_of_pos hkept]
  simp

theorem cutAt_dotted {mark : Char} {front : List Char} (parts : List (List Char)) (h : mark ∉ front) :
    cutAt mark (front ++ dotted mark parts) = (front, dottedPart parts) := by
  cases parts with
  | nil => rw [dotted, List.append_nil, cutAt_of_not_mem h, dottedPart]
  | cons first rest => exact cutAt_append h

theorem BuildIdentifier.not_mem (h : BuildIdentifier text)
    (hc : ¬ IdentifierCharacter c) : c ∉ text := fun hmem => hc (h.characters c hmem)

theorem not_mem_dotted {mark c : Char} {parts : List (List Char)} (hparts : ∀ text ∈ parts, BuildIdentifier text)
    (hmark : c ≠ mark) (hdot : c ≠ '.') (hc : ¬ IdentifierCharacter c) : c ∉ dotted mark parts := by
  intro hmem
  rw [dotted_eq] at hmem
  cases parts with
  | nil => simp [dottedPart] at hmem
  | cons first rest =>
      rcases List.mem_cons.mp hmem with hmem | hmem
      · exact hmark hmem
      · rcases mem_intercalate hmem with hmem | ⟨part, hpart, hmem⟩
        · exact hdot hmem
        · exact (hparts part hpart).not_mem hc hmem

/-- A core holds digits and dots. -/
theorem not_mem_core {parts : List (List Char)} (hparts : ∀ text ∈ parts, NumericIdentifier text)
    (hdot : c ≠ '.') (hc : c.isDigit = false) : c ∉ ['.'].intercalate parts := by
  intro hmem
  rcases mem_intercalate hmem with hmem | ⟨part, hpart, hmem⟩
  · exact hdot hmem
  · exact absurd ((hparts part hpart).digits c hmem) (by simp [hc])

/-! ## What is accepted -/

theorem IsVersion.of_parseSemver {raw : String} {version : SemVer} (h : parseSemver raw = .ok version) :
    IsVersion raw := by
  unfold parseSemver at h
  cases hfront : cutAt '+' raw.toList with
  | mk front build =>
      cases hcore : cutAt '-' front with
      | mk core prerelease =>
          simp only [hfront, hcore] at h
          split at h
          · rename_i major minor patch hparts
            split at h
            · rename_i hvalid
              simp only [Bool.and_eq_true, List.all_eq_true] at hvalid
              obtain ⟨⟨⟨⟨hmajor, hminor⟩, hpatch⟩, hprerelease⟩, hbuild⟩ := hvalid
              obtain ⟨majorValue, hmajorValue, h⟩ := Result.of_bind_ok h
              obtain ⟨minorValue, hminorValue, h⟩ := Result.of_bind_ok h
              obtain ⟨patchValue, hpatchValue, h⟩ := Result.of_bind_ok h
              obtain ⟨identifiers, hidentifiers, _⟩ := Result.of_bind_ok h
              rw [isNumber_iff] at hmajor hminor hpatch
              have hidentifier (text : List Char) (htext : text ∈ identifierParts prerelease) :
                  PrereleaseText text ∧ Within64 [text] := by
                obtain ⟨identifier, _, hidentifier⟩ := Result.ok_of_mapM_ok hidentifiers htext
                exact (prereleaseIdentifier_ok_iff (isIdentifier_iff.mp (hprerelease text htext))).mp
                  ⟨identifier, hidentifier⟩
              refine ⟨major, minor, patch, identifierParts prerelease, identifierParts build, ⟨?_, ?_, ?_⟩, ?_, ?_⟩
              · simp only [List.forall_mem_cons, List.not_mem_nil, false_implies, implies_true, and_true]
                exact ⟨hmajor, hminor, hpatch⟩
              · exact fun text htext => (hidentifier text htext).1
              · exact fun text htext => isIdentifier_iff.mp (hbuild text htext)
              · intro text htext
                simp only [List.mem_append, List.mem_cons, List.not_mem_nil, or_false] at htext
                rcases htext with (rfl | rfl | rfl) | htext
                · exact fun _ => (boundedNumber_ok_iff hmajor).mp ⟨_, hmajorValue⟩
                · exact fun _ => (boundedNumber_ok_iff hminor).mp ⟨_, hminorValue⟩
                · exact fun _ => (boundedNumber_ok_iff hpatch).mp ⟨_, hpatchValue⟩
                · exact (hidentifier text htext).2 text List.mem_cons_self
              · have hjoined : ['.'].intercalate (core.splitOn '.') = core := List.intercalate_splitOn '.'
                rw [hparts] at hjoined
                rw [versionText, dotted_identifierParts, dotted_identifierParts, hjoined, ← cutAt_eq hcore,
                  ← cutAt_eq hfront]
            · exact absurd h (by simp [error])
          · exact absurd h (by simp [error])

theorem parseSemver_of_isVersion {raw : String} (h : IsVersion raw) : ∃ version, parseSemver raw = .ok version := by
  obtain ⟨major, minor, patch, prerelease, build, hgrammar, hrange, hraw⟩ := h
  have hprerelease : ∀ text ∈ prerelease, BuildIdentifier text :=
    fun text htext => (hgrammar.identifiers text htext).identifier
  have hnumbers := hgrammar.numbers
  simp only [List.forall_mem_cons, List.not_mem_nil, false_implies, implies_true, and_true] at hnumbers
  obtain ⟨hmajor, hminor, hpatch⟩ := hnumbers
  have hfront : cutAt '+' raw.toList =
      (['.'].intercalate [major, minor, patch] ++ dotted '-' prerelease, dottedPart build) := by
    rw [hraw, versionText]
    refine cutAt_dotted build fun hmem => ?_
    rcases List.mem_append.mp hmem with hmem | hmem
    · exact not_mem_core hgrammar.numbers (by decide) (by decide) hmem
    · exact not_mem_dotted hprerelease (by decide) (by decide) (by unfold IdentifierCharacter; decide) hmem
  have hcore : cutAt '-' (['.'].intercalate [major, minor, patch] ++ dotted '-' prerelease) =
      (['.'].intercalate [major, minor, patch], dottedPart prerelease) :=
    cutAt_dotted prerelease (not_mem_core hgrammar.numbers (by decide) (by decide))
  have hsplit : (['.'].intercalate [major, minor, patch]).splitOn '.' = [major, minor, patch] := by
    refine List.splitOn_intercalate '.' (fun text htext hmem => ?_) (by simp)
    exact absurd ((hgrammar.numbers text htext).digits '.' hmem) (by decide)
  have hdots (parts : List (List Char)) (hparts : ∀ text ∈ parts, BuildIdentifier text) :
      identifierParts (dottedPart parts) = parts :=
    identifierParts_dottedPart fun text htext => (hparts text htext).not_mem (by unfold IdentifierCharacter; decide)
  obtain ⟨majorValue, hmajorValue⟩ := (boundedNumber_ok_iff hmajor).mpr (hrange major (by simp) hmajor)
  obtain ⟨minorValue, hminorValue⟩ := (boundedNumber_ok_iff hminor).mpr (hrange minor (by simp) hminor)
  obtain ⟨patchValue, hpatchValue⟩ := (boundedNumber_ok_iff hpatch).mpr (hrange patch (by simp) hpatch)
  obtain ⟨identifiers, hidentifiers⟩ : ∃ identifiers, prerelease.mapM prereleaseIdentifier = .ok identifiers := by
    refine Result.exists_mapM_ok fun text htext => ?_
    refine (prereleaseIdentifier_ok_iff (hprerelease text htext)).mpr ⟨hgrammar.identifiers text htext, ?_⟩
    exact List.forall_mem_singleton.mpr (hrange text (List.mem_append_right _ htext))
  have hvalid : (isNumber major && isNumber minor && isNumber patch && prerelease.all isIdentifier &&
      build.all isIdentifier) = true := by
    simp only [Bool.and_eq_true, List.all_eq_true, isNumber_iff, isIdentifier_iff]
    exact ⟨⟨⟨⟨hmajor, hminor⟩, hpatch⟩, hprerelease⟩, hgrammar.metadata⟩
  refine ⟨⟨majorValue, minorValue, patchValue, identifiers, build.map String.ofList⟩, ?_⟩
  unfold parseSemver
  simp only [hfront, hcore, hsplit, hdots prerelease hprerelease, hdots build hgrammar.metadata]
  rw [if_pos hvalid, hmajorValue, hminorValue, hpatchValue, hidentifiers]
  rfl

/-- The reader accepts the grammar with numbers of 64 bits, a version is written as the text it was
read from, and reading that text gives the version back, build metadata included. -/
theorem parseSemver_reads_versions :
    (∀ raw, (∃ version, parseSemver raw = .ok version) ↔ IsVersion raw) ∧
      (∀ raw version, parseSemver raw = .ok version → version.str = raw) ∧
      ∀ raw version, parseSemver raw = .ok version → parseSemver version.str = .ok version := by
  refine ⟨fun raw => ⟨?_, parseSemver_of_isVersion⟩, fun raw version => str_of_parseSemver, fun raw version h => ?_⟩
  · rintro ⟨version, hversion⟩
    exact .of_parseSemver hversion
  · rw [str_of_parseSemver h]
    exact h

end AgentArtifacts
