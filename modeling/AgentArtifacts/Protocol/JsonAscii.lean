import AgentArtifacts.Protocol.JsonDocuments

/-!
# The default text of a value

`json.dumps` without hooks writes a text in ASCII: what is not printable there is escaped,
and a character outside the basic plane is escaped as a pair of surrogates.
-/

namespace AgentArtifacts.JsonText

/-! ## Escapes -/

def hexFour (code : Nat) : List Char :=
  [Nat.digitChar (code / 4096), Nat.digitChar (code / 256 % 16), Nat.digitChar (code / 16 % 16),
    Nat.digitChar (code % 16)]

def unicodeEscape (code : Nat) : List Char := '\\' :: 'u' :: hexFour code

/-- `ensure_ascii`. -/
def asciiEscape (c : Char) : List Char :=
  if c = '"' then ['\\', '"']
  else if c = '\\' then ['\\', '\\']
  else if c = '\n' then ['\\', 'n']
  else if c = '\r' then ['\\', 'r']
  else if c = '\t' then ['\\', 't']
  else if c = '\x0c' then ['\\', 'f']
  else if c = '\x08' then ['\\', 'b']
  else if ' ' ≤ c ∧ c ≤ '~' then [c]
  else if c.toNat < 0x10000 then unicodeEscape c.toNat
  else
    unicodeEscape (0xD800 + (c.toNat - 0x10000) / 0x400) ++ unicodeEscape (0xDC00 + (c.toNat - 0x10000) % 0x400)

theorem hexCode_hexFour {code : Nat} (h : code < 0x10000) :
    hexCode (Nat.digitChar (code / 4096)) (Nat.digitChar (code / 256 % 16)) (Nat.digitChar (code / 16 % 16))
      (Nat.digitChar (code % 16)) = some code := by
  unfold hexCode
  rw [hexValue_digitChar _ (by omega), hexValue_digitChar _ (by omega), hexValue_digitChar _ (by omega),
    hexValue_digitChar _ (by omega)]
  simp only [Option.bind_eq_bind, Option.bind_some, Option.pure_def, Option.some.injEq]
  omega

/-- No character is a surrogate. -/
theorem Char.not_surrogate (c : Char) : c.toNat < 0xD800 ∨ 0xDFFF < c.toNat := by
  have hvalid := c.valid
  unfold UInt32.isValidChar Nat.isValidChar at hvalid
  change c.val.toNat < 0xD800 ∨ 0xDFFF < c.val.toNat
  omega

theorem readText_unicodeEscape {c : Char} (h : c.toNat < 0x10000) (rest : List Char) :
    readText (unicodeEscape c.toNat ++ rest) = (readText rest).map (prepend c) := by
  have hplain := Char.not_surrogate c
  have hhigh : isHighSurrogate c.toNat = false := by
    simp [isHighSurrogate]
    omega
  have hlow : isLowSurrogate c.toNat = false := by
    simp [isLowSurrogate]
    omega
  unfold unicodeEscape hexFour
  simp only [List.cons_append, List.nil_append]
  rw [readText]
  simp only [hexCode_hexFour h, hhigh, hlow, Bool.false_eq_true, if_false, Char.ofNat_toNat]
  cases readText rest <;> rfl

theorem readText_surrogates {c : Char} (h : ¬ c.toNat < 0x10000) (rest : List Char) :
    readText (unicodeEscape (0xD800 + (c.toNat - 0x10000) / 0x400) ++
        unicodeEscape (0xDC00 + (c.toNat - 0x10000) % 0x400) ++ rest) = (readText rest).map (prepend c) := by
  have hbound : c.toNat < 0x110000 := by
    have hvalid := c.valid
    unfold UInt32.isValidChar Nat.isValidChar at hvalid
    change c.val.toNat < 0x110000
    omega
  have hhigh : isHighSurrogate (0xD800 + (c.toNat - 0x10000) / 0x400) = true := by
    simp [isHighSurrogate]
    omega
  have hlow : isLowSurrogate (0xDC00 + (c.toNat - 0x10000) % 0x400) = true := by
    simp [isLowSurrogate]
    omega
  have hcode : 0x10000 + (0xD800 + (c.toNat - 0x10000) / 0x400 - 0xD800) * 0x400 +
      (0xDC00 + (c.toNat - 0x10000) % 0x400 - 0xDC00) = c.toNat := by omega
  unfold unicodeEscape hexFour
  simp only [List.cons_append, List.nil_append]
  rw [readText]
  simp only [hexCode_hexFour (show 0xD800 + (c.toNat - 0x10000) / 0x400 < 0x10000 by omega),
    hexCode_hexFour (show 0xDC00 + (c.toNat - 0x10000) % 0x400 < 0x10000 by omega), hhigh, hlow, hcode, if_true,
    Char.ofNat_toNat]
  cases readText rest <;> rfl

theorem readText_asciiEscape (c : Char) (rest : List Char) :
    readText (asciiEscape c ++ rest) = (readText rest).map (prepend c) := by
  by_cases hsimple : ∃ mark, simpleEscape mark = some c ∧ asciiEscape c = ['\\', mark]
  · obtain ⟨mark, hmark, hescape⟩ := hsimple
    rw [hescape]
    exact readText_simpleEscape hmark rest
  · have hother (mark : Char) {d : Char} (hmark : simpleEscape mark = some d) (hescape : asciiEscape d = ['\\', mark]) :
        c ≠ d := by
      rintro rfl
      exact hsimple ⟨mark, hmark, hescape⟩
    have hquote : c ≠ '"' := hother '"' (by decide) (by decide)
    have hslash : c ≠ '\\' := hother '\\' (by decide) (by decide)
    unfold asciiEscape
    rw [if_neg hquote, if_neg hslash, if_neg (hother 'n' (by decide) (by decide)),
      if_neg (hother 'r' (by decide) (by decide)), if_neg (hother 't' (by decide) (by decide)),
      if_neg (hother 'f' (by decide) (by decide)), if_neg (hother 'b' (by decide) (by decide))]
    split
    · rename_i hprintable
      have hfrom : ' '.toNat ≤ c.toNat := hprintable.1
      exact readText_plain hquote hslash (by simpa using hfrom) rest
    · split
      · exact readText_unicodeEscape ‹_› rest
      · exact readText_surrogates ‹_› rest

/-! ## Texts -/

/-- The separators of `json.dumps`. -/
def plainWriter : Writer where
  opening _ := []
  between _ := [' ']
  closing _ := []
  colon := [' ']
  escape := asciiEscape
  openingSpace := compact.gapSpace
  betweenSpace := by simp [isSpace]
  closingSpace := compact.gapSpace
  colonSpace := indented.colonSpace
  escapeReads := readText_asciiEscape

def dumps (value : Json) : String := String.ofList (write plainWriter 0 value)

/-- The strict reader reads what `json.dumps` writes. -/
theorem loads_dumps {value : Json} (h : Legible InRange value) : loads (dumps value) = .ok value := by
  obtain ⟨c, rest, hform, _, _, hmark⟩ := write_head plainWriter 0 value
  unfold loads dumps
  rw [String.toList_ofList]
  split
  · rename_i htext
    rw [hform] at htext
    exact absurd (List.cons.inj htext).1 hmark
  · have hread : readDocument parseInteger (write plainWriter 0 value ++ []) = .ok value :=
      readDocument_write (fun number hnumber => parseInteger_printInt hnumber) h (by simp)
    rw [List.append_nil] at hread
    exact hread

/-- What the strict reader makes of such a text is the value, where it takes its integers. -/
theorem eq_of_loads_dumps {value found : Json} (hkeys : Legible (fun _ => True) value)
    (h : loads (dumps value) = .ok found) : found = value := by
  obtain ⟨c, rest, hform, _, _, hmark⟩ := write_head plainWriter 0 value
  unfold loads dumps at h
  rw [String.toList_ofList] at h
  split at h
  · rename_i htext
    rw [hform] at htext
    exact absurd (List.cons.inj htext).1 hmark
  · have hread : readDocument anyInteger (write plainWriter 0 value ++ []) = .ok value :=
      readDocument_write (fun number _ => anyInteger_printInt number) hkeys (by simp)
    rw [List.append_nil] at hread
    have hloose := readDocument_looser (fun _ _ => anyInteger_of_parseInteger) h
    exact Except.ok.inj (hloose.symm.trans hread)

mutual

/-- Freezing sorts the keys and changes nothing else. -/
theorem eq_sortKeys_of_freeze : ∀ {depth : Nat} {value frozen : Json}, freeze depth value = .ok frozen →
    frozen = sortKeys value
  | depth, .null, frozen, h => by
      rw [freeze] at h
      split at h
      · exact absurd h (by simp [depthExceeded, error])
      · rw [sortKeys]
        · exact (Except.ok.inj h).symm
        all_goals simp
  | depth, .bool value, frozen, h => by
      rw [freeze] at h
      split at h
      · exact absurd h (by simp [depthExceeded, error])
      · rw [sortKeys]
        · exact (Except.ok.inj h).symm
        all_goals simp
  | depth, .int value, frozen, h => by
      rw [freeze] at h
      split at h
      · exact absurd h (by simp [depthExceeded, error])
      · rw [sortKeys]
        · exact (Except.ok.inj h).symm
        all_goals simp
  | depth, .str value, frozen, h => by
      rw [freeze] at h
      split at h
      · exact absurd h (by simp [depthExceeded, error])
      · obtain ⟨text, htext, rfl⟩ := Result.of_map_ok h
        unfold validatedText at htext
        split at htext
        · exact absurd htext (by simp [error])
        · obtain rfl := Except.ok.inj htext
          rw [sortKeys] <;> simp
  | depth, .arr items, frozen, h => by
      rw [freeze] at h
      split at h
      · exact absurd h (by simp [depthExceeded, error])
      · obtain ⟨frozenItems, hitems, rfl⟩ := Result.of_map_ok h
        rw [sortKeys, eq_sortKeysItems_of_freeze hitems]
  | depth, .obj entries, frozen, h => by
      rw [freeze] at h
      split at h
      · exact absurd h (by simp [depthExceeded, error])
      · obtain ⟨frozenEntries, hentries, rfl⟩ := Result.of_map_ok h
        rw [sortKeys, eq_sortKeysEntries_of_freeze hentries]

theorem eq_sortKeysItems_of_freeze : ∀ {depth : Nat} {items frozen : List Json}, freezeItems depth items = .ok frozen →
    frozen = sortKeysItems items
  | _, [], frozen, h => by
      rw [freezeItems] at h
      rw [sortKeysItems]
      exact (Except.ok.inj h).symm
  | depth, item :: rest, frozen, h => by
      rw [freezeItems] at h
      obtain ⟨head, hhead, h⟩ := Result.of_bind_ok h
      obtain ⟨tail, htail, h⟩ := Result.of_bind_ok h
      obtain rfl := Except.ok.inj h
      rw [sortKeysItems, eq_sortKeys_of_freeze hhead, eq_sortKeysItems_of_freeze htail]

theorem eq_sortKeysEntries_of_freeze : ∀ {depth : Nat} {entries frozen : List (String × Json)},
    freezeEntries depth entries = .ok frozen → frozen = sortKeysEntries entries
  | _, [], frozen, h => by
      rw [freezeEntries] at h
      rw [sortKeysEntries]
      exact (Except.ok.inj h).symm
  | depth, (key, item) :: rest, frozen, h => by
      rw [freezeEntries] at h
      obtain ⟨validKey, hkey, h⟩ := Result.of_bind_ok h
      obtain ⟨head, hhead, h⟩ := Result.of_bind_ok h
      obtain ⟨tail, htail, h⟩ := Result.of_bind_ok h
      obtain rfl := Except.ok.inj h
      unfold validatedText at hkey
      split at hkey
      · exact absurd hkey (by simp [error])
      · obtain rfl := Except.ok.inj hkey
        rw [sortKeysEntries, eq_sortKeys_of_freeze hhead, eq_sortKeysEntries_of_freeze htail]

end

/-- The strict parser makes of the default text of a value its canonical form. -/
theorem eq_sortKeys_of_parseJson_dumps [StandardLibrary] [JsonRuntime] {value parsed : Json}
    (hkeys : Legible (fun _ => True) value) (h : parseJson (encodeUtf8 (dumps value)) = .ok parsed) :
    parsed = sortKeys value := by
  unfold parseJson at h
  rw [decodeUtf8_encodeUtf8] at h
  obtain ⟨read, hread, h⟩ := Result.of_bind_ok h
  rw [JsonRuntime.loads_eq] at hread
  rw [← eq_of_loads_dumps hkeys hread]
  exact eq_sortKeys_of_freeze h

/-- The default text of a value within the bounds is parsed to its canonical form. -/
theorem parseJson_dumps [StandardLibrary] [JsonRuntime] {value frozen : Json} (hintegers : Legible InRange value)
    (hfrozen : freeze 0 value = .ok frozen) : parseJson (encodeUtf8 (dumps value)) = .ok frozen := by
  unfold parseJson
  rw [decodeUtf8_encodeUtf8]
  change StandardLibrary.jsonLoads (dumps value) >>= freeze 0 = .ok frozen
  rw [JsonRuntime.loads_eq, loads_dumps hintegers]
  exact hfrozen

/-- The strict parser makes of the canonical bytes of a value that value, or refuses them. -/
theorem eq_of_parseJson_canonicalJsonBytes [StandardLibrary] [JsonRuntime] {value parsed : Json} (hfrozen : Frozen value)
    (h : parseJson (canonicalJsonBytes value) = .ok parsed) : parsed = value := by
  have hread : readDocument anyInteger (print compact 0 value ++ ['\n']) = .ok value :=
    readDocument_print (fun number _ => anyInteger_printInt number) (legible_of_frozen hfrozen) (by simp [isSpace])
  obtain ⟨c, rest, hform, _, _, hmark⟩ := print_head compact 0 value
  unfold parseJson at h
  rw [canonicalJsonBytes_eq hfrozen, decodeUtf8_encodeUtf8] at h
  obtain ⟨found, hfound, hfreeze⟩ := Result.of_bind_ok h
  rw [JsonRuntime.loads_eq] at hfound
  unfold loads at hfound
  rw [String.toList_ofList] at hfound
  split at hfound
  · rename_i htext
    rw [hform, List.cons_append] at htext
    exact absurd (List.cons.inj htext).1 hmark
  · have hloose := readDocument_looser (fun _ _ => anyInteger_of_parseInteger) hfound
    obtain rfl := Except.ok.inj (hloose.symm.trans hread)
    rw [eq_sortKeys_of_freeze hfreeze, sortKeys_of_frozen hfrozen]

end AgentArtifacts.JsonText
