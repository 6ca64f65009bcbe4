import AgentArtifacts.Store.EnvelopeReading
import AgentArtifacts.Store.PathTexts
import AgentArtifacts.Store.References

/-!
# The document of object references

The index is written as canonical JSON and read back only from these bytes. Nothing in it is
escaped, so its size is a sum over the references.
-/

namespace AgentArtifacts

open Manifest (Fields jsonObject present validDigest parseSha256 get?_field mapM_written frozen_str frozen_array choiceOf
  fits_jsonObject_iff)
open JsonText (print printItems printText printInt compact escapeChar)

def referenceInvalid : DiagnosticCode := ⟨"store-reference-invalid"⟩

def referenceError {α : Type} (message : String) : Result α := error referenceInvalid message

/-! ## References -/

def isOwnerChar (c : Char) : Bool := c.isAlphanum || "._:/@+-".toList.contains c

/-- `[A-Za-z0-9][A-Za-z0-9._:/@+-]{0,511}`. -/
def isReferenceOwner (owner : String) : Bool :=
  match owner.toList with
  | [] => false
  | first :: rest => first.isAlphanum && rest.all isOwnerChar && decide (rest.length ≤ 511)

/-- The check of the constructor. -/
def ObjectReference.valid (reference : ObjectReference) : Bool :=
  isReferenceOwner reference.owner && validDigest reference.digest

def ReferenceKind.all : List ReferenceKind :=
  [.installed, .setup, .sourceCurrent, .retained, .rollback, .transaction]

theorem ReferenceKind.choiceOf_value (kind : ReferenceKind) : choiceOf ReferenceKind.all ReferenceKind.value kind.value = some kind := by
  cases kind <;> decide

/-! ## Writing and reading -/

def referenceTable (reference : ObjectReference) : Fields :=
  [("digest", some (.str reference.digest.str)), ("kind", some (.str reference.kind.value)),
    ("owner", some (.str reference.owner))]

def referenceIndexTable (index : ReferenceIndex) : Fields :=
  [("references", some (.arr (index.references.map fun reference => jsonObject (referenceTable reference)))),
    ("schema_version", some (.int 1))]

def parseReference : Json → Result ObjectReference
  | .obj item =>
      if !sameNames item ["kind", "owner", "digest"] then referenceError "object reference fields are invalid"
      else
        match Dict.get? item "kind", Dict.get? item "owner" with
        | some (.str rawKind), some (.str owner) =>
            match Dict.get? item "digest" with
            | some (.str rawDigest) =>
                match parseSha256 rawDigest with
                | .error _ => referenceError "object reference digest is invalid"
                | .ok digest =>
                    match choiceOf ReferenceKind.all ReferenceKind.value rawKind with
                    | none => referenceError "object reference identity is invalid"
                    | some kind =>
                        if (⟨kind, owner, digest⟩ : ObjectReference).valid then .ok ⟨kind, owner, digest⟩
                        else referenceError "object reference identity is invalid"
            | _ => referenceError "object reference digest must be a string"
        | _, _ => referenceError "object reference identity types are invalid"
  | _ => referenceError "object reference must be an object"

section Documents

variable [StandardLibrary]

def referenceIndexBytes (index : ReferenceIndex) : Bytes := canonicalJsonBytes (jsonObject (referenceIndexTable index))

def parseReferenceIndex (data : Bytes) : Result ReferenceIndex :=
  match parseJson data with
  | .ok (.obj fields) =>
      if !sameNames fields ["schema_version", "references"] then referenceError "object reference index fields are invalid"
      else if Dict.get? fields "schema_version" ≠ some (.int 1) then
        referenceError "object reference index schema version is unsupported"
      else
        match Dict.get? fields "references" with
        | some (.arr items) => do
            let references ← items.mapM parseReference
            match ReferenceIndex.make references with
            | none => referenceError "object reference index contains duplicates"
            | some index =>
                if referenceIndexBytes index ≠ data then referenceError "object reference index is not canonical"
                else return index
        | _ => referenceError "object references must be an array"
  | _ => referenceError "object reference index is not strict JSON"

end Documents

/-! ## What is written is read back -/

theorem nodup_referenceTable (reference : ObjectReference) : ((referenceTable reference).map Prod.fst).Nodup :=
  (by decide : ["digest", "kind", "owner"].Nodup)

theorem nodup_referenceIndexTable (index : ReferenceIndex) : ((referenceIndexTable index).map Prod.fst).Nodup :=
  (by decide : ["references", "schema_version"].Nodup)

variable {index : ReferenceIndex}

theorem ReferenceIndex.make_of_sorted (h : index.references.length ≤ maxReferences) :
    ReferenceIndex.make index.references = some index := by
  have hsorted : sortReferences index.references = index.references :=
    (index.sorted.imp fun hlt => le_of_lt hlt).insertionSort_eq
  unfold ReferenceIndex.make
  simp only [hsorted]
  rw [dif_pos ⟨h, index.sorted⟩]

theorem length_owner {owner : String} (h : isReferenceOwner owner = true) : owner.length ≤ 512 := by
  unfold isReferenceOwner at h
  split at h
  · cases h
  · rename_i first rest hchars
    simp only [Bool.and_eq_true, decide_eq_true_eq] at h
    rw [← String.length_toList, hchars, List.length_cons]
    omega

theorem length_digestText {digest : ObjectDigest} (h : validDigest digest = true) : digest.str.length = 71 := by
  have hlength : digest.value.length = 64 := by
    rw [validDigest, Bool.and_eq_true, beq_iff_eq] at h
    rw [← String.length_toList, h.1]
  rw [ObjectDigest.str, String.length_append, hlength]
  rfl

variable {reference : ObjectReference}

theorem parseReference_written (h : reference.valid = true) :
    parseReference (jsonObject (referenceTable reference)) = .ok reference := by
  have hvalid := h
  rw [ObjectReference.valid, Bool.and_eq_true] at hvalid
  have hnames : sameNames (sortEntries (present (referenceTable reference))) ["kind", "owner", "digest"] = true := by
    refine sameNames_jsonObject ?_ fun name value hmem => ?_
    · simp [referenceTable]
    · simp only [referenceTable, List.mem_cons, Prod.mk.injEq, List.not_mem_nil, or_false] at hmem
      rcases hmem with ⟨rfl, _⟩ | ⟨rfl, _⟩ | ⟨rfl, _⟩ <;> decide
  have hfield {name : String} {content : Option Json} (hmem : (name, content) ∈ referenceTable reference) :=
    get?_field (nodup_referenceTable reference) hmem
  have hkind := hfield (by simp [referenceTable] : ("kind", some (.str reference.kind.value)) ∈ referenceTable reference)
  have howner := hfield (by simp [referenceTable] : ("owner", some (.str reference.owner)) ∈ referenceTable reference)
  have hdigest := hfield (by simp [referenceTable] : ("digest", some (.str reference.digest.str)) ∈ referenceTable reference)
  have hparsed : parseSha256 reference.digest.str = .ok reference.digest := by
    have hstarts : startsWith "sha256:" reference.digest.str = true := startsWith_iff.mpr ⟨_, rfl⟩
    have hremoved : removePrefix "sha256:" reference.digest.str = reference.digest.value :=
      append_left_text ((Manifest.append_removePrefix hstarts).trans rfl)
    simp only [parseSha256, hremoved, hstarts, hvalid.2, Bool.and_self, if_true]
  unfold jsonObject parseReference
  simp only [hnames, hkind, howner, hdigest, hparsed, ReferenceKind.choiceOf_value, Bool.not_true, Bool.false_eq_true,
    if_false, h, if_true]

theorem fits_referenceTable (h : reference.valid = true) :
    Fits 2 (jsonObject (referenceTable reference)) := by
  rw [ObjectReference.valid, Bool.and_eq_true] at h
  rw [fits_jsonObject_iff (nodup_referenceTable reference)]
  refine ⟨by decide, fun name value hmem => ?_⟩
  simp only [referenceTable, List.mem_cons, Prod.mk.injEq, Option.some.injEq, List.not_mem_nil, or_false] at hmem
  rcases hmem with ⟨rfl, rfl⟩ | ⟨rfl, rfl⟩ | ⟨rfl, rfl⟩
  · refine ⟨by decide, ?_⟩
    rw [Fits, length_digestText h.2]
    exact ⟨by decide, by decide⟩
  · refine ⟨by decide, ?_⟩
    rw [Fits]
    exact ⟨by decide, by cases reference.kind <;> decide⟩
  · refine ⟨by decide, ?_⟩
    rw [Fits]
    exact ⟨by decide, le_trans (length_owner h.1) (by decide)⟩

theorem fits_referenceIndexTable (h : ∀ reference ∈ index.references, reference.valid = true) :
    Fits 0 (jsonObject (referenceIndexTable index)) := by
  rw [fits_jsonObject_iff (nodup_referenceIndexTable index)]
  refine ⟨by decide, fun name value hmem => ?_⟩
  simp only [referenceIndexTable, List.mem_cons, Prod.mk.injEq, Option.some.injEq, List.not_mem_nil, or_false] at hmem
  rcases hmem with ⟨rfl, rfl⟩ | ⟨rfl, rfl⟩
  · refine ⟨by decide, ?_⟩
    rw [Fits, fitsItems_iff]
    refine ⟨by decide, fun item hitem => ?_⟩
    obtain ⟨reference, hreference, rfl⟩ := List.mem_map.mp hitem
    exact fits_referenceTable (h reference hreference)
  · refine ⟨by decide, ?_⟩
    rw [Fits]
    exact ⟨by decide, by decide, by decide⟩

section RoundTrip

variable [StandardLibrary] [JsonRuntime]

/-- An index is read back from what is written of it. -/
theorem parseReferenceIndex_written {index : ReferenceIndex} (h : ∀ reference ∈ index.references, reference.valid = true)
    (hcount : index.references.length ≤ maxReferences) : parseReferenceIndex (referenceIndexBytes index) = .ok index := by
  have hread : parseJson (referenceIndexBytes index) = .ok (jsonObject (referenceIndexTable index)) :=
    parseJson_canonicalJsonBytes (fits_referenceIndexTable h)
  have hnames : sameNames (sortEntries (present (referenceIndexTable index)))
      ["schema_version", "references"] = true := by
    refine sameNames_jsonObject ?_ fun name value hmem => ?_
    · simp [referenceIndexTable]
    · simp only [referenceIndexTable, List.mem_cons, Prod.mk.injEq, List.not_mem_nil, or_false] at hmem
      rcases hmem with ⟨rfl, _⟩ | ⟨rfl, _⟩ <;> decide
  have hfield {name : String} {content : Option Json} (hmem : (name, content) ∈ referenceIndexTable index) :=
    get?_field (nodup_referenceIndexTable index) hmem
  have hversion := hfield (by simp [referenceIndexTable] :
    ("schema_version", some (.int 1)) ∈ referenceIndexTable index)
  have hitems := hfield (by simp [referenceIndexTable] : ("references",
    some (.arr (index.references.map fun reference => jsonObject (referenceTable reference)))) ∈
      referenceIndexTable index)
  have hmapped : (index.references.map fun reference => jsonObject (referenceTable reference)).mapM parseReference =
      .ok index.references := mapM_written fun reference hreference => parseReference_written (h reference hreference)
  unfold parseReferenceIndex
  rw [hread]
  unfold jsonObject
  simp only [hnames, hversion, hitems, hmapped, Bool.not_true, Bool.false_eq_true, if_false, ne_eq, not_true_eq_false,
    bind, Except.bind, ReferenceIndex.make_of_sorted hcount]
  rfl

end RoundTrip

/-! ## The size of the document -/

/-- The octets of one reference between the braces of its object. -/
def ObjectReference.size (reference : ObjectReference) : Nat :=
  105 + reference.kind.value.length + reference.owner.length

/-- The octets of the whole document: the references with the commas between them, and what stands around. -/
def documentSize (references : List ObjectReference) : Nat :=
  37 + ((references.map fun reference => reference.size + 1).sum - 1)

theorem documentSize_perm {left right : List ObjectReference} (h : left.Perm right) :
    documentSize left = documentSize right := by
  rw [documentSize, documentSize, (h.map _).sum_nat]

/-- Characters that are written as they stand, in one octet each. -/
def Unescaped (c : Char) : Prop := 32 ≤ c.toNat ∧ c.toNat < 127 ∧ c ≠ '"' ∧ c ≠ '\\'

theorem escapeChar_unescaped {c : Char} (h : Unescaped c) : escapeChar c = [c] := by
  obtain ⟨hlow, _, hquote, hslash⟩ := h
  have hcontrol : ∀ d : Char, d.toNat < 32 → c ≠ d := by
    rintro d hd rfl
    omega
  unfold escapeChar
  rw [if_neg hquote, if_neg hslash, if_neg (hcontrol _ (by decide)), if_neg (hcontrol _ (by decide)),
    if_neg (hcontrol _ (by decide)), if_neg (hcontrol _ (by decide)), if_neg (hcontrol _ (by decide)),
    if_neg (by omega)]

theorem printText_unescaped {text : String} (h : ∀ c ∈ text.toList, Unescaped c) :
    printText text = '"' :: (text.toList ++ ['"']) := by
  have hchars : ∀ chars : List Char, (∀ c ∈ chars, Unescaped c) → chars.flatMap escapeChar = chars := by
    intro chars hchars
    induction chars with
    | nil => rfl
    | cons c rest ih =>
        obtain ⟨hc, hrest⟩ := List.forall_mem_cons.mp hchars
        rw [List.flatMap_cons, escapeChar_unescaped hc, ih hrest]
        rfl
  rw [printText, hchars _ h]

theorem unescaped_of_range {c : Char} (hlow : 48 ≤ c.toNat) (hhigh : c.toNat ≤ 122) (hslash : c.toNat ≠ 92) :
    Unescaped c := by
  refine ⟨by omega, by omega, ?_, ?_⟩
  · rintro rfl
    exact absurd hlow (by decide)
  · rintro rfl
    exact hslash rfl

theorem unescaped_of_ownerChar {c : Char} (h : isOwnerChar c = true) : Unescaped c := by
  have hother : ∀ d ∈ "._:/@+-".toList, Unescaped d := by
    unfold Unescaped
    decide
  rw [isOwnerChar, Bool.or_eq_true] at h
  rcases h with h | h
  · simp only [Char.isAlphanum, isAlpha_eq, isUpper_eq, isLower_eq, Bool.or_eq_true, Bool.and_eq_true,
      decide_eq_true_eq] at h
    rcases h with (⟨hlow, hhigh⟩ | ⟨hlow, hhigh⟩) | hdigit
    · have hlow : 65 ≤ c.toNat := hlow
      have hhigh : c.toNat ≤ 90 := hhigh
      exact unescaped_of_range (by omega) (by omega) (by omega)
    · have hlow : 97 ≤ c.toNat := hlow
      have hhigh : c.toNat ≤ 122 := hhigh
      exact unescaped_of_range (by omega) (by omega) (by omega)
    · obtain ⟨hlow, hhigh⟩ : 48 ≤ c.toNat ∧ c.toNat ≤ 57 := Char.isDigit_iff_toNat.mp hdigit
      exact unescaped_of_range (by omega) (by omega) (by omega)
  · exact hother c (by simpa using h)

theorem unescaped_owner {owner : String} (h : isReferenceOwner owner = true) : ∀ c ∈ owner.toList, Unescaped c := by
  unfold isReferenceOwner at h
  split at h
  · cases h
  · rename_i first rest hchars
    simp only [Bool.and_eq_true, List.all_eq_true] at h
    rw [hchars]
    refine List.forall_mem_cons.mpr ⟨unescaped_of_ownerChar ?_, fun c hc => unescaped_of_ownerChar (h.1.2 c hc)⟩
    rw [isOwnerChar, h.1.1, Bool.true_or]

theorem unescaped_digest {digest : ObjectDigest} (h : validDigest digest = true) : ∀ c ∈ digest.str.toList, Unescaped c := by
  have hlead : ∀ c ∈ "sha256:".toList, Unescaped c := by
    unfold Unescaped
    decide
  rw [validDigest, Bool.and_eq_true, List.all_eq_true] at h
  intro c hc
  rw [ObjectDigest.str, String.toList_append, List.mem_append] at hc
  rcases hc with hc | hc
  · exact hlead c hc
  · have hhex := h.2 c hc
    rw [isLowerHex, Bool.or_eq_true, Bool.and_eq_true, Bool.and_eq_true] at hhex
    simp only [decide_eq_true_eq] at hhex
    rcases hhex with ⟨hlow, hhigh⟩ | ⟨hlow, hhigh⟩
    · have hlow : 48 ≤ c.toNat := hlow
      have hhigh : c.toNat ≤ 57 := hhigh
      exact unescaped_of_range (by omega) (by omega) (by omega)
    · have hlow : 97 ≤ c.toNat := hlow
      have hhigh : c.toNat ≤ 102 := hhigh
      exact unescaped_of_range (by omega) (by omega) (by omega)

/-! ### The printed text -/

def printedReference (reference : ObjectReference) : List Char :=
  "\x7b\"digest\":\"".toList ++ reference.digest.str.toList ++ "\",\"kind\":\"".toList ++ reference.kind.value.toList ++
    "\",\"owner\":\"".toList ++ reference.owner.toList ++ "\"\x7d".toList

def printedReferences : List ObjectReference → List Char
  | [] => []
  | reference :: rest => printedReference reference ++ rest.flatMap fun other => ',' :: printedReference other

theorem print_reference (h : reference.valid = true) (level : Nat) :
    print compact level (jsonObject (referenceTable reference)) = printedReference reference := by
  rw [ObjectReference.valid, Bool.and_eq_true] at h
  have hobject : jsonObject (referenceTable reference) = .obj [("digest", .str reference.digest.str),
      ("kind", .str reference.kind.value), ("owner", .str reference.owner)] :=
    congrArg Json.obj (sortEntries_eq (by decide : ["digest", "kind", "owner"].Pairwise (· < ·)))
  have hkind : printText reference.kind.value = '"' :: (reference.kind.value.toList ++ ['"']) := by
    cases reference.kind <;> rfl
  have hdigest := printText_unescaped (unescaped_digest h.2)
  have howner := printText_unescaped (unescaped_owner h.1)
  have hnames : printText "digest" = "\"digest\"".toList ∧ printText "kind" = "\"kind\"".toList ∧
      printText "owner" = "\"owner\"".toList := by decide
  obtain ⟨hdigestName, hkindName, hownerName⟩ := hnames
  rw [hobject]
  unfold printedReference
  simp only [print, JsonText.printEntries, hdigest, howner, hkind, hdigestName, hkindName, hownerName]
  generalize reference.digest.str.toList = digest
  generalize reference.kind.value.toList = kind
  generalize reference.owner.toList = owner
  simp [compact]

theorem printItems_references {references : List ObjectReference} (h : ∀ reference ∈ references, reference.valid = true)
    (level : Nat) : printItems compact level (references.map fun reference => jsonObject (referenceTable reference)) =
      references.flatMap fun reference => ',' :: printedReference reference := by
  induction references with
  | nil => rfl
  | cons reference rest ih =>
      obtain ⟨hfirst, hrest⟩ := List.forall_mem_cons.mp h
      rw [List.map_cons, printItems, print_reference hfirst, ih hrest, List.flatMap_cons]
      rfl

theorem print_referenceIndex (h : ∀ reference ∈ index.references, reference.valid = true) :
    print compact 0 (jsonObject (referenceIndexTable index)) =
      "\x7b\"references\":[".toList ++ printedReferences index.references ++ "],\"schema_version\":1\x7d".toList := by
  have hobject : jsonObject (referenceIndexTable index) =
      .obj [("references", .arr (index.references.map fun reference => jsonObject (referenceTable reference))),
        ("schema_version", .int 1)] :=
    congrArg Json.obj (sortEntries_eq (by decide : ["references", "schema_version"].Pairwise (· < ·)))
  have hone : printInt 1 = ['1'] := by decide
  rw [hobject]
  generalize index.references = references at h
  cases references with
  | nil => simp [print, JsonText.printEntries, compact, hone, printText, escapeChar, printedReferences]
  | cons reference rest =>
      obtain ⟨hfirst, hrest⟩ := List.forall_mem_cons.mp h
      have hitems := printItems_references hrest 2
      have hreference := print_reference hfirst 2
      simp only [List.map_cons, print, JsonText.printEntries, hone, hitems, hreference, printedReferences]
      simp [printText, escapeChar, compact]

theorem length_printedReference (h : reference.valid = true) :
    (printedReference reference).length = reference.size := by
  rw [ObjectReference.valid, Bool.and_eq_true] at h
  have hdigest := length_digestText h.2
  have hopening : "\x7b\"digest\":\"".toList.length = 11 := by decide
  have hkind : "\",\"kind\":\"".toList.length = 10 := by decide
  have howner : "\",\"owner\":\"".toList.length = 11 := by decide
  have hclosing : "\"\x7d".toList.length = 2 := by decide
  unfold printedReference ObjectReference.size
  rw [List.length_append, List.length_append, List.length_append, List.length_append, List.length_append,
    List.length_append, hopening, hkind, howner, hclosing, String.length_toList, String.length_toList,
    String.length_toList, hdigest]
  omega

theorem length_printedReferences {references : List ObjectReference}
    (h : ∀ reference ∈ references, reference.valid = true) :
    (printedReferences references).length = (references.map fun reference => reference.size + 1).sum - 1 := by
  have hrest : ∀ rest : List ObjectReference, (∀ reference ∈ rest, reference.valid = true) →
      (rest.flatMap fun other => ',' :: printedReference other).length =
        (rest.map fun reference => reference.size + 1).sum := by
    intro rest hvalid
    induction rest with
    | nil => rfl
    | cons reference rest ih =>
        obtain ⟨hfirst, hothers⟩ := List.forall_mem_cons.mp hvalid
        rw [List.flatMap_cons, List.length_append, List.length_cons, length_printedReference hfirst, ih hothers,
          List.map_cons, List.sum_cons]
  cases references with
  | nil => rfl
  | cons reference rest =>
      obtain ⟨hfirst, hothers⟩ := List.forall_mem_cons.mp h
      rw [printedReferences, List.length_append, length_printedReference hfirst, hrest rest hothers, List.map_cons,
        List.sum_cons]
      omega

/-- The texts that stand between the parts of a reference. -/
theorem ascii_referenceFrame :
    (∀ c ∈ "\x7b\"digest\":\"".toList, c.toNat < 128) ∧ (∀ c ∈ "\",\"kind\":\"".toList, c.toNat < 128) ∧
      (∀ c ∈ "\",\"owner\":\"".toList, c.toNat < 128) ∧ ∀ c ∈ "\"\x7d".toList, c.toNat < 128 := by
  decide +kernel

theorem ascii_printedReference (h : reference.valid = true) :
    ∀ c ∈ printedReference reference, c.toNat < 128 := by
  rw [ObjectReference.valid, Bool.and_eq_true] at h
  obtain ⟨hopening, hkindName, hownerName, hclosing⟩ := ascii_referenceFrame
  have hkind : ∀ c ∈ reference.kind.value.toList, c.toNat < 128 := by
    cases reference.kind <;> decide
  intro c hc
  unfold printedReference at hc
  rw [List.mem_append, List.mem_append, List.mem_append, List.mem_append, List.mem_append, List.mem_append] at hc
  rcases hc with (((((hc | hc) | hc) | hc) | hc) | hc) | hc
  · exact hopening c hc
  · exact lt_trans (unescaped_digest h.2 c hc).2.1 (by decide)
  · exact hkindName c hc
  · exact hkind c hc
  · exact hownerName c hc
  · exact lt_trans (unescaped_owner h.1 c hc).2.1 (by decide)
  · exact hclosing c hc

theorem ascii_printedReferences {references : List ObjectReference}
    (h : ∀ reference ∈ references, reference.valid = true) : ∀ c ∈ printedReferences references, c.toNat < 128 := by
  cases references with
  | nil => simp [printedReferences]
  | cons reference rest =>
      obtain ⟨hfirst, hothers⟩ := List.forall_mem_cons.mp h
      intro c hc
      rcases List.mem_append.mp hc with hc | hc
      · exact ascii_printedReference hfirst c hc
      · obtain ⟨other, hother, hc⟩ := List.mem_flatMap.mp hc
        rcases List.mem_cons.mp hc with rfl | hc
        · decide
        · exact ascii_printedReference (hothers other hother) c hc

/-- The document of an index has the size of its references. -/
theorem length_referenceIndexBytes [StandardLibrary] [JsonRuntime]
    (h : ∀ reference ∈ index.references, reference.valid = true) :
    (referenceIndexBytes index).length = documentSize index.references := by
  have hopening : "\x7b\"references\":[".toList.length = 15 ∧ ∀ c ∈ "\x7b\"references\":[".toList, c.toNat < 128 := by decide
  have hclosing : "],\"schema_version\":1\x7d".toList.length = 21 ∧
      ∀ c ∈ "],\"schema_version\":1\x7d".toList, c.toNat < 128 := by decide
  rw [referenceIndexBytes, canonicalJsonBytes_eq (frozen_of_fits (fits_referenceIndexTable h)), print_referenceIndex h,
    length_encodeUtf8_ascii]
  · rw [List.length_append, List.length_append, List.length_append, hopening.1, hclosing.1, length_printedReferences h,
      documentSize, List.length_singleton]
    omega
  · intro c hc
    simp only [List.mem_append, List.mem_singleton] at hc
    rcases hc with ((hc | hc) | hc) | rfl
    · exact hopening.2 c hc
    · exact ascii_printedReferences h c hc
    · exact hclosing.2 c hc
    · decide

end AgentArtifacts
