import AgentArtifacts.InstallState.ManifestFields
import AgentArtifacts.Protocol.Schema

/-!
# Reading back what was read

A reader and a writer fit together when every value the reader finds is written
to something that it reads as the same value, no deeper and with no longer texts
than what was read. Kinds of fields compose to objects and objects to documents.
-/

namespace AgentArtifacts.Schema

open Manifest (Fields present jsonObject requiredField optionalField parseSha256 validDigest mem_present nodup_present
  parseSha256_eq_ok fits_of_get? mapM_written get?_field fits_jsonObject_iff)
open Registry (Capability sortedBy sortedSet perm_sortedBy)

/-- Whatever is read is written to something that is read as the same. -/
def ReadsBack {α : Type} (parse : Json → Result α) (write : α → Json) : Prop :=
  ∀ ⦃depth : Nat⦄ ⦃value : Json⦄ ⦃x : α⦄, Fits depth value → parse value = .ok x →
    parse (write x) = .ok x ∧ Fits depth (write x)

section General

variable {α β : Type} {parse : Json → Result α} {write : α → Json}

/-- A reader that only takes what the writer writes. -/
theorem ReadsBack.of_exact (h : ∀ value x, parse value = .ok x → value = write x) : ReadsBack parse write := by
  intro depth value x hfits hread
  have hvalue := h value x hread
  subst hvalue
  exact ⟨hread, hfits⟩

/-- A check of what was read is passed again. -/
theorem ReadsBack.checked (h : ReadsBack parse write) (check : α → Result Unit) :
    ReadsBack (fun value => do
      let x ← parse value
      check x
      return x) write := by
  intro depth value x hfits hread
  obtain ⟨found, hfound, hread⟩ := Result.of_bind_ok hread
  obtain ⟨done, hdone, hread⟩ := Result.of_bind_ok hread
  obtain rfl := Except.ok.inj hread
  obtain ⟨hagain, hwritten⟩ := h hfits hfound
  refine ⟨?_, hwritten⟩
  simp only [hagain, hdone, bind, Except.bind]
  rfl

/-- A check that does not look at the value comes before it again. -/
theorem ReadsBack.guarded (h : ReadsBack parse write) (check : Result Unit) :
    ReadsBack (fun value => do
      check
      parse value) write := by
  intro depth value x hfits hread
  obtain ⟨done, hdone, hread⟩ := Result.of_bind_ok hread
  obtain ⟨hagain, hwritten⟩ := h hfits hread
  refine ⟨?_, hwritten⟩
  simp only [hdone, hagain, bind, Except.bind]

end General

/-! ## Sorted lists -/

section Sorted

variable {α κ : Type} [LinearOrder κ] {key : α → κ}

theorem pairwise_sortedBy (key : α → κ) (items : List α) :
    (sortedBy key items).Pairwise fun a b => key a ≤ key b := by
  have : Std.Total fun a b : α => key a ≤ key b := ⟨fun a b => le_total (key a) (key b)⟩
  have : IsTrans α fun a b => key a ≤ key b := ⟨fun a b c hab hbc => le_trans hab hbc⟩
  exact List.pairwise_insertionSort _ items

theorem sortedBy_eq_self {items : List α} (h : items.Pairwise fun a b => key a ≤ key b) : sortedBy key items = items :=
  h.insertionSort_eq

theorem sortedBy_sortedBy (key : α → κ) (items : List α) : sortedBy key (sortedBy key items) = sortedBy key items :=
  sortedBy_eq_self (pairwise_sortedBy key items)

/-- Sorting by a key that tells items apart forgets the order they came in. -/
theorem sortedBy_eq_of_perm (hkey : Function.Injective key) {left right : List α} (h : left.Perm right) :
    sortedBy key left = sortedBy key right := by
  refine List.Perm.eq_of_pairwise ?_ (pairwise_sortedBy key left) (pairwise_sortedBy key right)
    ((perm_sortedBy key left).trans (h.trans (perm_sortedBy key right).symm))
  intro a b _ _ hab hba
  exact hkey (le_antisymm hab hba)

end Sorted

theorem sortedSet_eq_of_perm {left right : List String} (h : left.Perm right) : sortedSet left = sortedSet right :=
  sortedBy_eq_of_perm Function.injective_id h.dedup

theorem nodup_sortedSet (items : List String) : (sortedSet items).Nodup :=
  (perm_sortedBy id items.dedup).nodup_iff.mpr (List.nodup_dedup items)

theorem mem_sortedSet {items : List String} {item : String} : item ∈ sortedSet items ↔ item ∈ items :=
  (perm_sortedBy id items.dedup).mem_iff.trans List.mem_dedup

theorem sortedSet_sortedSet (items : List String) : sortedSet (sortedSet items) = sortedSet items := by
  calc sortedSet (sortedSet items) = sortedBy id (sortedSet items) := by
        rw [sortedSet, (nodup_sortedSet items).dedup]
    _ = sortedSet items := sortedBy_sortedBy id items.dedup

/-! ## Texts -/

variable {code : DiagnosticCode} {value : Json} {label : String}

theorem stringField_eq_ok {singleLine : Bool} {text : String}
    (h : stringField code label singleLine value = .ok text) : value = .str text := by
  unfold stringField at h
  split at h
  · obtain ⟨_, h⟩ := Result.of_check_ok h
    obtain ⟨_, h⟩ := Result.of_check_ok h
    rw [Except.ok.inj h]
  · cases h

theorem readsBack_string (code : DiagnosticCode) (label : String) (singleLine : Bool) :
    ReadsBack (stringField code label singleLine) .str :=
  .of_exact fun _ _ => stringField_eq_ok

theorem readsBack_integer (code : DiagnosticCode) (label : String) : ReadsBack (integerField code label) .int := by
  refine .of_exact fun value x h => ?_
  cases value <;> simp_all [integerField, error]

theorem readsBack_schemaVersion (code : DiagnosticCode) : ReadsBack (schemaVersion code) .int :=
  (readsBack_integer code "schema_version").checked _

theorem readsBack_protocolVersion (code : DiagnosticCode) : ReadsBack (protocolVersion code) .int :=
  (readsBack_integer code "protocol_version").checked _

/-- A reader of texts finds the value that has the text. -/
def TextOf {α : Type} (read : String → Result α) (text : α → String) : Prop := ∀ raw x, read raw = .ok x → text x = raw

theorem readsBack_text {α : Type} {read : String → Result α} {text : α → String} (h : TextOf read text)
    (code : DiagnosticCode) (label : String) (singleLine : Bool) :
    ReadsBack (textOf code label singleLine read) fun x => .str (text x) := by
  refine .of_exact fun value x hread => ?_
  obtain ⟨raw, hraw, hread⟩ := Result.of_bind_ok hread
  rw [stringField_eq_ok hraw, h raw x hread]

theorem TextOf.insteadOf {α : Type} {read : String → Result α} {text : α → String} (h : TextOf read text)
    (code : DiagnosticCode) (message : String) : TextOf (fun raw => insteadOf (read raw) code message) text := by
  intro raw x hread
  dsimp only [Schema.insteadOf] at hread
  cases hfound : read raw with
  | error diagnostics => simp [hfound, error] at hread
  | ok value =>
      rw [hfound] at hread
      rw [← Except.ok.inj hread]
      exact h raw value hfound

theorem textOf_slug (code : DiagnosticCode) (message : String) : TextOf (slug code message) Slug.value := by
  intro raw x h
  unfold slug Manifest.slugOf at h
  split at h
  · rename_i value hvalue
    obtain rfl := Except.ok.inj h
    split at hvalue
    · rw [← Option.some.inj hvalue]
    · cases hvalue
  · cases h

theorem textOf_capability : TextOf parseCapability Capability.value := by
  intro raw x h
  unfold parseCapability at h
  split at h
  · rw [← Except.ok.inj h]
  · cases h

theorem textOf_semver : TextOf parseSemver SemVer.str := fun _ _ => str_of_parseSemver

theorem textOf_digest : TextOf parseSha256 ObjectDigest.str := fun _ _ h => (parseSha256_eq_ok.mp h).1.symm

/-! ## Sets of texts -/

theorem asArray_eq_ok {message : String} {items : List Json}
    (h : asArray code message value = .ok items) : value = .arr items := by
  cases value <;> simp_all [asArray, error]

theorem asObject_eq_ok {entries : Dict}
    (h : asObject code label value = .ok entries) : value = .obj entries := by
  cases value <;> simp_all [asObject, error]

theorem refuse_eq_ok {condition : Bool} {message : String} {done : Unit} :
    refuse condition code message = .ok done ↔ condition = false := by
  unfold refuse
  cases condition <;> simp [error]

theorem fits_arr {depth : Nat} {items : List Json} :
    Fits depth (.arr items) ↔ depth ≤ maxDepth ∧ ∀ item ∈ items, Fits (depth + 1) item := by
  rw [Fits, fitsItems_iff]

/-- The names of a set are read back in any order. -/
theorem stringsField_again {allowEmpty : Bool} {depth : Nat}
    {names other : List String} (hfits : Fits depth value) (h : stringsField code label allowEmpty value = .ok names)
    (hperm : other.Perm names) :
    stringsField code label allowEmpty (stringArray other) = .ok names ∧ Fits depth (stringArray other) := by
  obtain ⟨items, hitems, h⟩ := Result.of_bind_ok h
  obtain ⟨done, hdone, h⟩ := Result.of_bind_ok h
  obtain ⟨texts, htexts, h⟩ := Result.of_bind_ok h
  obtain rfl := Except.ok.inj h
  obtain rfl := asArray_eq_ok hitems
  have hread := Result.forall₂_of_mapM_ok htexts
  have hmem (name : String) (hname : name ∈ other) :
      stringField code (label ++ " item") true (.str name) = .ok name ∧ Fits (depth + 1) (.str name) := by
    have htext := mem_sortedSet.mp (hperm.mem_iff.mp hname)
    obtain ⟨item, hitem, hstring⟩ := exists_of_forall₂_mem hread htext
    have hvalue := stringField_eq_ok hstring
    subst hvalue
    exact ⟨hstring, (fits_arr.mp hfits).2 _ hitem⟩
  have hempty : (!allowEmpty && (other.map Json.str).isEmpty) = false := by
    have hsome := refuse_eq_ok.mp hdone
    have hlength := hread.length_eq
    cases other with
    | cons name rest => simp
    | nil =>
        have htexts : texts = [] := List.eq_nil_iff_forall_not_mem.mpr fun text htext =>
          absurd (hperm.mem_iff.mpr (mem_sortedSet.mpr htext)) (by simp)
        rw [htexts, List.length_nil] at hlength
        rw [List.length_eq_zero_iff.mp hlength] at hsome
        simpa using hsome
  refine ⟨?_, fits_arr.mpr ⟨(fits_arr.mp hfits).1, ?_⟩⟩
  · have hagain : (other.map Json.str).mapM (stringField code (label ++ " item") true) = .ok other :=
      mapM_written fun name hname => (hmem name hname).1
    have hset : sortedSet other = sortedSet texts :=
      (sortedSet_eq_of_perm hperm).trans (sortedSet_sortedSet texts)
    unfold stringsField stringArray
    simp only [asArray, refuse, hempty, hagain, hset, bind, Except.bind]
    rfl
  · intro item hitem
    obtain ⟨name, hname, rfl⟩ := List.mem_map.mp hitem
    exact (hmem name hname).2

theorem nodup_of_stringsField {allowEmpty : Bool}
    {names : List String} (h : stringsField code label allowEmpty value = .ok names) : names.Nodup := by
  obtain ⟨_, _, h⟩ := Result.of_bind_ok h
  obtain ⟨_, _, h⟩ := Result.of_bind_ok h
  obtain ⟨texts, _, h⟩ := Result.of_bind_ok h
  rw [← Except.ok.inj h]
  exact nodup_sortedSet texts

theorem pairwise_of_stringsField {allowEmpty : Bool}
    {names : List String} (h : stringsField code label allowEmpty value = .ok names) : names.Pairwise (· ≤ ·) := by
  obtain ⟨_, _, h⟩ := Result.of_bind_ok h
  obtain ⟨_, _, h⟩ := Result.of_bind_ok h
  obtain ⟨texts, _, h⟩ := Result.of_bind_ok h
  rw [← Except.ok.inj h]
  exact pairwise_sortedBy id texts.dedup

theorem readsBack_strings (code : DiagnosticCode) (label : String) (allowEmpty : Bool) :
    ReadsBack (stringsField code label allowEmpty) stringArray :=
  fun _ _ _ hfits h => stringsField_again hfits h (.refl _)

/-- What is found item by item has the items' own names. -/
theorem map_eq_of_forall₂ {α β γ : Type} {related : α → β → Prop} {name : α → γ} {found : β → γ}
    (h : ∀ a b, related a b → found b = name a) {items : List α} {results : List β}
    (hall : List.Forall₂ related items results) : results.map found = items.map name := by
  induction hall with
  | nil => rfl
  | cons hfirst _ ih => rw [List.map_cons, List.map_cons, h _ _ hfirst, ih]

theorem mapM_of_forall₂_ok {α β : Type} {read : α → Result β} {items : List α} {results : List β}
    (hall : List.Forall₂ (fun item result => read item = .ok result) items results) : items.mapM read = .ok results := by
  induction hall with
  | nil => rfl
  | cons hfirst _ ih =>
      rw [List.mapM_cons, hfirst, ih]
      rfl

theorem map_text_of_mapM {α : Type} {read : String → Result α} {text : α → String} (h : TextOf read text)
    {names : List String} {values : List α} (hread : names.mapM read = .ok values) : values.map text = names := by
  rw [map_eq_of_forall₂ h (Result.forall₂_of_mapM_ok hread), List.map_id']

theorem readsBack_namedValues {α : Type} {read : String → Result α} {text : α → String} (h : TextOf read text)
    (code : DiagnosticCode) (label : String) (allowEmpty : Bool) :
    ReadsBack (namedValues code label allowEmpty read) fun values => stringArray (values.map text) := by
  intro depth value values hfits hread
  obtain ⟨names, hnames, hread⟩ := Result.of_bind_ok hread
  have htexts := map_text_of_mapM h hread
  obtain ⟨hagain, hwritten⟩ := stringsField_again hfits hnames (List.Perm.of_eq htexts)
  refine ⟨?_, hwritten⟩
  unfold namedValues
  simp only [hagain, bind, Except.bind]
  exact hread

/-- Values that are sorted by a key of their own are found in another order than their texts. -/
theorem readsBack_sortedValues {α κ : Type} [DecidableEq α] [LinearOrder κ] (key : α → κ)
    {read : String → Result α} {text : α → String} (h : TextOf read text) (code : DiagnosticCode) (label : String)
    (allowEmpty : Bool) :
    ReadsBack (fun value => do
      let names ← stringsField code label allowEmpty value
      let values ← names.mapM read
      return sortedBy key values.dedup) fun values => stringArray (values.map text) := by
  intro depth value sorted hfits hread
  obtain ⟨names, hnames, hread⟩ := Result.of_bind_ok hread
  obtain ⟨values, hvalues, hread⟩ := Result.of_bind_ok hread
  obtain rfl := Except.ok.inj hread
  have htexts := map_text_of_mapM h hvalues
  have hperm : ((sortedBy key values.dedup).map text).Perm names := by
    have hvaluesNodup : values.Nodup := List.Nodup.of_map text (htexts ▸ nodup_of_stringsField hnames)
    rw [hvaluesNodup.dedup]
    exact htexts ▸ (perm_sortedBy key values).map text
  obtain ⟨hagain, hwritten⟩ := stringsField_again hfits hnames hperm
  refine ⟨?_, hwritten⟩
  simp only [hagain, hvalues, bind, Except.bind]
  rfl

theorem readsBack_capabilities (code : DiagnosticCode) (label : String) :
    ReadsBack (capabilitiesField code label) fun values => stringArray (values.map Capability.value) :=
  readsBack_sortedValues Capability.value textOf_capability code label true

/-! ## Items and entries -/

/-- Items that are read one by one, checked together and then sorted. -/
theorem readsBack_sortedItems {α κ : Type} [LinearOrder κ] {key : α → κ} {parse : Json → Result α} {write : α → Json}
    (h : ReadsBack parse write) (code : DiagnosticCode) (message : String) {check : List α → Result Unit}
    (hcheck : ∀ left right : List α, left.Perm right → check left = check right) :
    ReadsBack (fun value => do
      let items ← asArray code message value
      let values ← items.mapM parse
      check values
      return sortedBy key values) fun values => .arr (values.map write) := by
  intro depth value sorted hfits hread
  obtain ⟨items, hitems, hread⟩ := Result.of_bind_ok hread
  obtain ⟨values, hvalues, hread⟩ := Result.of_bind_ok hread
  obtain ⟨done, hdone, hread⟩ := Result.of_bind_ok hread
  obtain rfl := Except.ok.inj hread
  obtain rfl := asArray_eq_ok hitems
  have hmem (x : α) (hx : x ∈ sortedBy key values) : parse (write x) = .ok x ∧ Fits (depth + 1) (write x) := by
    obtain ⟨item, hitem, hparse⟩ := exists_of_forall₂_mem (Result.forall₂_of_mapM_ok hvalues)
      ((perm_sortedBy key values).mem_iff.mp hx)
    exact h ((fits_arr.mp hfits).2 item hitem) hparse
  have hagain : ((sortedBy key values).map write).mapM parse = .ok (sortedBy key values) :=
    mapM_written fun x hx => (hmem x hx).1
  refine ⟨?_, fits_arr.mpr ⟨(fits_arr.mp hfits).1, ?_⟩⟩
  · simp only [asArray, hagain, hcheck _ _ (perm_sortedBy key values), hdone, sortedBy_sortedBy, bind, Except.bind]
    rfl
  · intro item hitem
    obtain ⟨x, hx, rfl⟩ := List.mem_map.mp hitem
    exact (hmem x hx).2

/-- The members of an object that fits, and its names. -/
theorem fits_obj {depth : Nat} {entries : Dict} :
    Fits depth (.obj entries) ↔ depth ≤ maxDepth ∧ (entries.map Prod.fst).Pairwise (· < ·) ∧
      ∀ entry ∈ entries, entry.1.length ≤ maxStringLength ∧ Fits (depth + 1) entry.2 := by
  rw [Fits, fitsEntries_iff]

/-- Members whose names are part of what they are read as come sorted already. -/
theorem readsBack_members {α : Type} {name : α → String} {parse : String → Json → Result α} {write : α → Json}
    (hname : ∀ raw value x, parse raw value = .ok x → name x = raw) (h : ∀ raw, ReadsBack (parse raw) write)
    (code : DiagnosticCode) (label : String) :
    ReadsBack (fun value => do
      let entries ← asObject code label value
      let values ← entries.mapM fun entry => parse entry.1 entry.2
      return sortedBy name values) fun values => .obj (sortEntries (values.map fun x => (name x, write x))) := by
  intro depth value sorted hfits hread
  obtain ⟨entries, hentries, hread⟩ := Result.of_bind_ok hread
  obtain ⟨values, hvalues, hread⟩ := Result.of_bind_ok hread
  obtain rfl := Except.ok.inj hread
  obtain rfl := asObject_eq_ok hentries
  obtain ⟨hdepth, hsorted, hmembers⟩ := fits_obj.mp hfits
  have hall := Result.forall₂_of_mapM_ok hvalues
  have hnames : values.map name = entries.map Prod.fst :=
    map_eq_of_forall₂ (fun entry x hparse => hname entry.1 entry.2 x hparse) hall
  have hmem (x : α) (hx : x ∈ values) :
      parse (name x) (write x) = .ok x ∧ (name x).length ≤ maxStringLength ∧ Fits (depth + 1) (write x) := by
    obtain ⟨entry, hentry, hparse⟩ := exists_of_forall₂_mem hall hx
    obtain ⟨hshort, hvalue⟩ := hmembers entry hentry
    rw [hname _ _ _ hparse]
    obtain ⟨hagain, hwritten⟩ := h entry.1 hvalue hparse
    exact ⟨hagain, hshort, hwritten⟩
  have hkeys : ((values.map fun x => (name x, write x)).map Prod.fst) = entries.map Prod.fst := by
    rw [List.map_map]
    exact hnames
  have hself : sortedBy name values = values := by
    refine sortedBy_eq_self (List.pairwise_map.mp ?_)
    rw [hnames]
    exact hsorted.imp le_of_lt
  have hwritten : sortEntries (values.map fun x => (name x, write x)) = values.map fun x => (name x, write x) := by
    refine sortedBy_eq_self (List.pairwise_map.mp ?_)
    rw [hkeys]
    exact hsorted.imp le_of_lt
  have hagain : (values.map fun x => (name x, write x)).mapM (fun entry => parse entry.1 entry.2) = .ok values :=
    mapM_written fun x hx => (hmem x hx).1
  refine ⟨?_, fits_obj.mpr ⟨hdepth, ?_, ?_⟩⟩
  · simp only [hself, hwritten, asObject, hagain, bind, Except.bind]
    rfl
  · rw [hself, hwritten, hkeys]
    exact hsorted
  · rw [hself, hwritten]
    intro entry hentry
    obtain ⟨x, hx, rfl⟩ := List.mem_map.mp hentry
    exact (hmem x hx).2

/-! ## Objects -/

theorem validateObjectFields_eq_ok {extensions : Bool} {required optional : List String} {entries fields : Dict} :
    validateObjectFields extensions required optional entries = .ok fields ↔
      fields = entries ∧ (∀ name ∈ required, name ∈ entries.map Prod.fst) ∧
        ∀ name ∈ entries.map Prod.fst, name ∈ required ++ optional ∨
          (extensions = true ∧ isNamespacedExtension name = true) := by
  have hmissing : (required.insertionSort (· ≤ ·)).filter (· ∉ entries.map Prod.fst) = [] ↔
      ∀ name ∈ required, name ∈ entries.map Prod.fst := by
    simp only [List.filter_eq_nil_iff, List.mem_insertionSort, decide_eq_true_eq, not_not]
  have hunknown : ((entries.map Prod.fst).insertionSort (· ≤ ·)).filter (fun name =>
      decide (name ∉ required ++ optional) && !(extensions && isNamespacedExtension name)) = [] ↔
      ∀ name ∈ entries.map Prod.fst, name ∈ required ++ optional ∨
        (extensions = true ∧ isNamespacedExtension name = true) := by
    simp only [List.filter_eq_nil_iff, List.mem_insertionSort, Bool.and_eq_true, decide_eq_true_eq,
      Bool.not_eq_true', not_and, Bool.not_eq_false, Decidable.imp_iff_not_or, not_not]
  unfold validateObjectFields
  dsimp only
  rw [← hmissing, ← hunknown]
  split
  · rename_i hnone
    obtain ⟨hfirst, hsecond⟩ := List.append_eq_nil_iff.mp hnone
    rw [List.map_eq_nil_iff] at hfirst hsecond
    constructor
    · intro h
      exact ⟨(Except.ok.inj h).symm, hfirst, hsecond⟩
    · rintro ⟨rfl, _⟩
      rfl
  · rename_i hsome
    refine iff_of_false (by simp) ?_
    rintro ⟨_, hfirst, hsecond⟩
    exact hsome (by rw [hfirst, hsecond]; rfl)

/-- The tables of the values of a type have the fields of their object. -/
structure Shape {α : Type} (required optional : List String) (table : α → Fields) : Prop where
  names : ∀ x, (table x).map Prod.fst ⊆ required ++ optional
  nodup : ∀ x, ((table x).map Prod.fst).Nodup
  found : ∀ x, ∀ name ∈ required, ∃ value, (name, some value) ∈ table x
  short : ∀ name ∈ required ++ optional, name.length ≤ maxStringLength

/-- A field that was read, and what it is written to. -/
structure Kept {β : Type} (depth : Nat) (name : String) (content : Option Json) (read : Dict → Result β) (x : β) :
    Prop where
  fits : ∀ value, content = some value → Fits (depth + 1) value
  again : ∀ written : Dict, written.get? name = content → read written = .ok x

/-- What a body makes of the fields it was given is made again of the fields that are written. -/
structure Rereads {α : Type} (known : List String) (body : Dict → Result α) (depth : Nat) (table : Fields)
    (extensions : Dict) (x : α) : Prop where
  fits : ∀ field ∈ table, ∀ value, field.2 = some value → Fits (depth + 1) value
  again : ∀ written : Dict, (∀ field ∈ table, written.get? field.1 = field.2) →
    extensionsOf known written = extensions → body written = .ok x

section Fields

variable {β : Type} {parse : Json → Result β} {write : β → Json} {depth : Nat} {fields : Dict} {name : String} {x : β}

theorem kept_required (h : ReadsBack parse write) (hfits : Fits depth (.obj fields))
    (hfound : ∃ value, Dict.get? fields name = some value) (hread : requiredField fields name parse = .ok x) :
    Kept depth name (some (write x)) (fun written => requiredField written name parse) x := by
  obtain ⟨value, hvalue⟩ := hfound
  rw [requiredField, hvalue] at hread
  obtain ⟨hagain, hwritten⟩ := h (fits_of_get? hfits hvalue).2 hread
  refine ⟨?_, ?_⟩
  · intro other hother
    rw [← Option.some.inj hother]
    exact hwritten
  · intro written hget
    rw [requiredField, hget]
    exact hagain

theorem kept_optional (h : ReadsBack parse write) (hfits : Fits depth (.obj fields)) {found : Option β}
    (hread : optionalField fields name parse = .ok found) :
    Kept depth name (found.map write) (fun written => optionalField written name parse) found := by
  unfold optionalField at hread
  cases hvalue : Dict.get? fields name with
  | none =>
      rw [hvalue] at hread
      obtain rfl := Except.ok.inj hread
      refine ⟨by simp, ?_⟩
      intro written hget
      rw [optionalField, hget]
      rfl
  | some value =>
      rw [hvalue] at hread
      obtain ⟨x, hx, rfl⟩ := Result.of_map_ok hread
      obtain ⟨hagain, hwritten⟩ := h (fits_of_get? hfits hvalue).2 hx
      refine ⟨?_, ?_⟩
      · intro other hother
        rw [← Option.some.inj hother]
        exact hwritten
      · intro written hget
        rw [optionalField, hget]
        simp only [Option.map_some, hagain]
        rfl

/-- A field with a default is left out exactly where it has the default. -/
theorem kept_defaulted (h : ReadsBack parse write) (hfits : Fits depth (.obj fields)) {default : β}
    {content : Option Json} (hread : defaultedField fields name default parse = .ok x)
    (hcontent : content = none ∧ x = default ∨ content = some (write x) ∧ x ≠ default) :
    Kept depth name content (fun written => defaultedField written name default parse) x := by
  rcases hcontent with ⟨rfl, rfl⟩ | ⟨rfl, hother⟩
  · refine ⟨by simp, ?_⟩
    intro written hget
    rw [defaultedField, hget]
  · unfold defaultedField at hread
    cases hvalue : Dict.get? fields name with
    | none =>
        rw [hvalue] at hread
        exact absurd (Except.ok.inj hread).symm hother
    | some value =>
        rw [hvalue] at hread
        obtain ⟨hagain, hwritten⟩ := h (fits_of_get? hfits hvalue).2 hread
        refine ⟨?_, ?_⟩
        · intro other hsome
          rw [← Option.some.inj hsome]
          exact hwritten
        · intro written hget
          rw [defaultedField, hget]
          exact hagain

/-- A field with a default may be written where it has the default too. -/
theorem kept_written (h : ReadsBack parse write) (hfits : Fits depth (.obj fields)) {default : β}
    (hread : defaultedField fields name default parse = .ok x) (hdefault : Fits (depth + 1) (write default))
    (hagain : parse (write default) = .ok default) :
    Kept depth name (some (write x)) (fun written => defaultedField written name default parse) x := by
  have hkept : parse (write x) = .ok x ∧ Fits (depth + 1) (write x) := by
    unfold defaultedField at hread
    cases hvalue : Dict.get? fields name with
    | none =>
        rw [hvalue] at hread
        obtain rfl := Except.ok.inj hread
        exact ⟨hagain, hdefault⟩
    | some value =>
        rw [hvalue] at hread
        exact h (fits_of_get? hfits hvalue).2 hread
  refine ⟨?_, ?_⟩
  · intro other hother
    rw [← Option.some.inj hother]
    exact hkept.2
  · intro written hget
    rw [defaultedField, hget]
    exact hkept.1

end Fields

section Documents

variable {α : Type} {required optional : List String} {body : Dict → Result α} {table : α → Fields}

variable {extensions : Dict}

theorem mem_documentJson {fields : Fields} {entry : String × Json} :
    entry ∈ sortEntries (present fields ++ extensions) ↔ (entry.1, some entry.2) ∈ fields ∨ entry ∈ extensions := by
  rw [mem_sortEntries, List.mem_append]
  refine or_congr_left ?_
  exact mem_present

theorem nodup_document {fields : Fields} {known : List String}
    (hnodup : (fields.map Prod.fst).Nodup) (hknown : fields.map Prod.fst ⊆ known)
    (hextensions : (extensions.map Prod.fst).Nodup) (hfresh : ∀ entry ∈ extensions, entry.1 ∉ known) :
    ((present fields ++ extensions).map Prod.fst).Nodup := by
  rw [List.map_append]
  refine List.Nodup.append (nodup_present hnodup) hextensions ?_
  intro name hname hextra
  obtain ⟨entry, hentry, rfl⟩ := List.mem_map.mp hextra
  exact hfresh entry hentry (hknown ((Manifest.present_keys_sublist fields).subset hname))

/-- A field of the table is found with what the table has for it. -/
theorem get?_documentJson {fields : Fields}
    (hkeys : ((present fields ++ extensions).map Prod.fst).Nodup) (hnodup : (fields.map Prod.fst).Nodup)
    {field : String × Option Json} (hfield : field ∈ fields) (hfresh : ∀ entry ∈ extensions, entry.1 ≠ field.1) :
    Dict.get? (sortEntries (present fields ++ extensions)) field.1 = field.2 := by
  rw [Dict.get?_sortEntries hkeys]
  cases hcontent : field.2 with
  | some value =>
      refine (Dict.get?_eq_some_iff hkeys).mpr (List.mem_append_left _ (mem_present.mpr ?_))
      rw [← hcontent]
      exact hfield
  | none =>
      cases hfound : Dict.get? (present fields ++ extensions) field.1 with
      | none => rfl
      | some value =>
          rcases List.mem_append.mp ((Dict.get?_eq_some_iff hkeys).mp hfound) with hmem | hmem
          · have hsame := List.inj_on_of_nodup_map hnodup hfield (mem_present.mp hmem) rfl
            rw [hsame] at hcontent
            cases hcontent
          · exact absurd rfl (hfresh _ hmem)

theorem nodup_of_sorted_keys {entries : Dict} (h : entries.Pairwise fun a b => a.1 < b.1) : entries.Nodup := by
  refine h.imp ?_
  rintro a b hlt rfl
  exact absurd hlt (lt_irrefl _)

theorem extensionsOf_documentJson {fields : Fields} {known : List String}
    (hknown : fields.map Prod.fst ⊆ known)
    (hsorted : ((sortEntries (present fields ++ extensions)).map Prod.fst).Pairwise (· < ·))
    (hextensions : (extensions.map Prod.fst).Pairwise (· < ·)) (hfresh : ∀ entry ∈ extensions, entry.1 ∉ known) :
    extensionsOf known (sortEntries (present fields ++ extensions)) = extensions := by
  have hleft := (List.pairwise_map.mp hsorted).filter fun entry : String × Json => decide (entry.1 ∉ known)
  have hright := List.pairwise_map.mp hextensions
  refine List.Perm.eq_of_pairwise ?_ hleft hright ((List.perm_ext_iff_of_nodup ?_ ?_).mpr ?_)
  · intro a b _ _ hab hba
    exact absurd hba (lt_asymm hab)
  · exact nodup_of_sorted_keys hleft
  · exact nodup_of_sorted_keys hright
  · intro entry
    rw [extensionsOf, List.mem_filter, mem_documentJson, decide_eq_true_eq]
    constructor
    · rintro ⟨hfield | hmem, hunknown⟩
      · exact absurd (hknown (List.mem_map.mpr ⟨_, hfield, rfl⟩)) hunknown
      · exact hmem
    · intro hmem
      exact ⟨Or.inr hmem, hfresh entry hmem⟩

/-- Objects that are read in two steps, the members later. -/
theorem members_of_object {α : Type} {required optional : List String} {table : α → Fields}
    (hshape : Shape required optional table) (code : DiagnosticCode) (label : String) (x : α) :
    ∃ written : Dict, asObject code label (jsonObject (table x)) = .ok written ∧
      validateObjectFields false required optional written = .ok written ∧
      ∀ field ∈ table x, Dict.get? written field.1 = field.2 := by
  refine ⟨_, rfl, ?_, fun field hfield => get?_field (hshape.nodup x) hfield⟩
  refine validateObjectFields_eq_ok.mpr ⟨rfl, fun name hname => ?_, fun name hname => Or.inl ?_⟩
  · obtain ⟨value, hvalue⟩ := hshape.found x name hname
    exact List.mem_map.mpr ⟨(name, value), mem_sortEntries.mpr (Manifest.mem_present.mpr hvalue), rfl⟩
  · obtain ⟨entry, hentry, rfl⟩ := List.mem_map.mp hname
    exact hshape.names x (List.mem_map.mpr ⟨_, Manifest.mem_present.mp (mem_sortEntries.mp hentry), rfl⟩)

variable {code : DiagnosticCode} {label : String}

/-- An object as it was written is read by its body, from the fields of its table. -/
theorem objectOf_written {α β : Type} {required optional : List String} {table : α → Fields} {x : α}
    {body : Dict → Result β} {result : Result β} (hshape : Shape required optional table)
    (h : ∀ written : Dict, (∀ field ∈ table x, written.get? field.1 = field.2) → body written = result) :
    objectOf code label false required optional body (jsonObject (table x)) = result := by
  obtain ⟨written, hobject, hvalid, hfields⟩ := members_of_object hshape code label x
  simp only [objectOf, hobject, hvalid, bind, Except.bind]
  exact h written hfields

/-- What an object as it was written is read as, its body makes of the fields of its table. -/
theorem body_of_objectOf {α β : Type} {required optional : List String} {table : α → Fields} {x : α}
    {body : Dict → Result β} {found : β} (hshape : Shape required optional table)
    (h : objectOf code label false required optional body (jsonObject (table x)) = .ok found) :
    ∃ written : Dict, (∀ field ∈ table x, written.get? field.1 = field.2) ∧ body written = .ok found := by
  obtain ⟨written, hobject, hvalid, hfields⟩ := members_of_object hshape code label x
  refine ⟨written, hfields, ?_⟩
  simpa only [objectOf, hobject, hvalid, bind, Except.bind] using h

theorem fits_written {α : Type} {required optional : List String} {table : α → Fields}
    (hshape : Shape required optional table) {x : α} {depth : Nat} (hdepth : depth ≤ maxDepth)
    (h : ∀ field ∈ table x, ∀ value, field.2 = some value → Fits (depth + 1) value) : Fits depth (jsonObject (table x)) :=
  (fits_jsonObject_iff (hshape.nodup x)).mpr ⟨hdepth, fun name value hmem =>
    ⟨hshape.short name (hshape.names x (List.mem_map.mpr ⟨_, hmem, rfl⟩)), h _ hmem value rfl⟩⟩

/-- A document that was read is read back from its fields and its extensions. -/
theorem readsBack_document {extensions : Bool} {extra : α → Dict}
    (hshape : Shape required optional table)
    (hbody : ∀ depth fields x, Fits depth (.obj fields) →
      (∀ name ∈ required, ∃ value, Dict.get? fields name = some value) →
      (∀ name ∈ fields.map Prod.fst, name ∈ required ++ optional ∨
        (extensions = true ∧ isNamespacedExtension name = true)) →
      body fields = .ok x → extra x = extensionsOf (required ++ optional) fields ∧
        Rereads (required ++ optional) body depth (table x) (extra x) x) :
    ReadsBack (objectOf code label extensions required optional body) fun x => documentJson (table x) (extra x) := by
  intro depth value x hfits hread
  obtain ⟨entries, hentries, hvalidated⟩ := Result.of_bind_ok hread
  obtain ⟨fields, hfields, hx⟩ := Result.of_bind_ok hvalidated
  obtain rfl := asObject_eq_ok hentries
  obtain ⟨rfl, hrequired, hnames⟩ := validateObjectFields_eq_ok.mp hfields
  obtain ⟨hdepth, hsorted, hmembers⟩ := fits_obj.mp hfits
  have hfound (name : String) (hname : name ∈ required) : ∃ value, Dict.get? fields name = some value := by
    obtain ⟨entry, hentry, rfl⟩ := List.mem_map.mp (hrequired name hname)
    exact ⟨entry.2, (Dict.get?_eq_some_iff (nodup_of_pairwise_lt hsorted)).mpr hentry⟩
  obtain ⟨hextra, hrereads⟩ := hbody depth fields x hfits hfound hnames hx
  have hfresh : ∀ entry ∈ extra x, entry ∈ fields ∧ entry.1 ∉ required ++ optional := by
    intro entry hentry
    rw [hextra] at hentry
    simpa only [decide_eq_true_eq] using List.mem_filter.mp hentry
  have hextraSorted : ((extra x).map Prod.fst).Pairwise (· < ·) := by
    rw [hextra]
    exact hsorted.sublist (List.Sublist.map _ List.filter_sublist)
  have hnodup := nodup_document (hshape.nodup x) (hshape.names x) (nodup_of_pairwise_lt hextraSorted)
    fun entry hentry => (hfresh entry hentry).2
  have hwritten := sortEntries_pairwise hnodup
  have hknown {field : String × Option Json} (hfield : field ∈ table x) : field.1 ∈ required ++ optional :=
    hshape.names x (List.mem_map.mpr ⟨_, hfield, rfl⟩)
  refine ⟨?_, fits_obj.mpr ⟨hdepth, hwritten, ?_⟩⟩
  · have hget (field : String × Option Json) (hfield : field ∈ table x) :
        Dict.get? (sortEntries (present (table x) ++ extra x)) field.1 = field.2 :=
      get?_documentJson hnodup (hshape.nodup x) hfield fun entry hentry heq =>
        (hfresh entry hentry).2 (heq ▸ hknown hfield)
    have hextensions : extensionsOf (required ++ optional) (sortEntries (present (table x) ++ extra x)) = extra x :=
      extensionsOf_documentJson (hshape.names x) hwritten hextraSorted fun entry hentry => (hfresh entry hentry).2
    have hvalid : validateObjectFields extensions required optional (sortEntries (present (table x) ++ extra x)) =
        .ok (sortEntries (present (table x) ++ extra x)) := by
      refine validateObjectFields_eq_ok.mpr ⟨rfl, fun name hname => ?_, fun name hname => ?_⟩
      · obtain ⟨value, hvalue⟩ := hshape.found x name hname
        exact List.mem_map.mpr ⟨(name, value), mem_documentJson.mpr (Or.inl hvalue), rfl⟩
      · obtain ⟨entry, hentry, rfl⟩ := List.mem_map.mp hname
        rcases mem_documentJson.mp hentry with hfield | hmore
        · exact Or.inl (hknown hfield)
        · exact hnames entry.1 (List.mem_map.mpr ⟨entry, (hfresh entry hmore).1, rfl⟩)
    simp only [objectOf, documentJson, asObject, hvalid, bind, Except.bind]
    exact hrereads.again _ hget hextensions
  · intro entry hentry
    rcases mem_documentJson.mp hentry with hfield | hmore
    · exact ⟨hshape.short entry.1 (hknown hfield), hrereads.fits _ hfield _ rfl⟩
    · exact hmembers entry (hfresh entry hmore).1

/-- An object without extensions that was read is read back from its fields. -/
theorem readsBack_object (hshape : Shape required optional table)
    (hbody : ∀ depth fields x, Fits depth (.obj fields) → (∀ name ∈ required, ∃ value, Dict.get? fields name = some value) →
      body fields = .ok x → Rereads (required ++ optional) body depth (table x) [] x) :
    ReadsBack (objectOf code label false required optional body) fun x => jsonObject (table x) := by
  have hdocument : ReadsBack (objectOf code label false required optional body) fun x => documentJson (table x) [] := by
    refine readsBack_document hshape ?_
    intro depth fields x hfits hfound hnames h
    refine ⟨?_, hbody depth fields x hfits hfound h⟩
    refine (List.filter_eq_nil_iff.mpr fun entry hentry => ?_).symm
    have hknown := (hnames entry.1 (List.mem_map.mpr ⟨entry, hentry, rfl⟩)).resolve_right (by simp)
    simpa only [decide_eq_true_eq, not_not] using hknown
  simpa only [documentJson, jsonObject, List.append_nil] using hdocument

end Documents

/-! ## Bounds and selectors -/

theorem content_optionalArray {α : Type} (write : α → Json) (values : List α) :
    optionalArray write values = none ∧ values = [] ∨
      optionalArray write values = some (.arr (values.map write)) ∧ values ≠ [] := by
  cases values with
  | nil => exact Or.inl ⟨rfl, rfl⟩
  | cons first rest => exact Or.inr ⟨rfl, by simp⟩

theorem content_optionalBounds (bounds : VersionBounds) :
    optionalBounds bounds = none ∧ bounds = {} ∨
      optionalBounds bounds = some (boundsToJson bounds) ∧ bounds ≠ {} := by
  obtain ⟨least, bound⟩ := bounds
  cases least with
  | some least => exact Or.inr ⟨rfl, by simp⟩
  | none =>
      cases bound with
      | some bound => exact Or.inr ⟨rfl, by simp⟩
      | none => exact Or.inl ⟨rfl, rfl⟩

theorem stringArray_map {α : Type} (text : α → String) (values : List α) :
    stringArray (values.map text) = .arr (values.map fun x => .str (text x)) := by
  rw [stringArray, List.map_map]
  rfl

theorem shape_bounds : Shape [] boundsFields boundsTable where
  names bounds := by simp [boundsTable, boundsFields]
  nodup bounds := by simp [boundsTable]
  found := by simp
  short := by decide

theorem readsBack_bounds (code : DiagnosticCode) (singleLine : Bool) :
    ReadsBack (boundsField code singleLine) boundsToJson := by
  refine readsBack_object shape_bounds ?_
  intro depth fields bounds hfits _ h
  obtain ⟨least, hleast, h⟩ := Result.of_bind_ok h
  obtain ⟨bound, hbound, h⟩ := Result.of_bind_ok h
  have hparts : bounds = ⟨least, bound⟩ := by
    unfold versionBounds at h
    split at h
    · split at h
      · exact (Except.ok.inj h).symm
      · cases h
    · exact (Except.ok.inj h).symm
  subst hparts
  have kleast := kept_optional (readsBack_text textOf_semver code "min_inclusive" singleLine) hfits hleast
  have kbound := kept_optional (readsBack_text textOf_semver code "max_exclusive" singleLine) hfits hbound
  refine ⟨?_, ?_⟩
  · simp only [boundsTable, List.forall_mem_cons]
    exact ⟨kleast.fits, kbound.fits, by simp⟩
  · intro written hwritten _
    simp only [boundsTable, List.forall_mem_cons] at hwritten
    obtain ⟨wleast, wbound, _⟩ := hwritten
    simp only [boundsBody, kleast.again _ wleast, kbound.again _ wbound, bind, Except.bind]
    exact h

theorem identityOf_eq_ok {message kind name : String} {identity : ArtifactIdentity} :
    identityOf code message kind name = .ok identity ↔ kind = identity.kind.value ∧ name = identity.name.value := by
  unfold identityOf
  constructor
  · intro h
    split at h
    · rename_i found slug hkind hname
      obtain rfl := Except.ok.inj h
      exact ⟨Manifest.artifactKind_choice.mp hkind, Manifest.slugOf_eq_some.mp hname⟩
    · cases h
  · rintro ⟨rfl, rfl⟩
    rw [Manifest.artifactKind_choice.mpr rfl, Manifest.slugOf_eq_some.mpr rfl]

theorem shape_selector : Shape ["type", "name"] ["version"] selectorTable where
  names selector := by simp [selectorTable]
  nodup selector := by simp [selectorTable]
  found := by simp [selectorTable]
  short := by decide

/-- The selector of a collection, of an artifact's requirements and of an index. -/
theorem readsBack_selector (code : DiagnosticCode) (label : String) (identityCode : DiagnosticCode) (message : String)
    (boundsCode : DiagnosticCode) (singleLine : Bool) :
    ReadsBack (objectOf code label false ["type", "name"] ["version"]
      (selectorBody identityCode message boundsCode singleLine)) selectorToJson := by
  refine readsBack_object shape_selector ?_
  intro depth fields selector hfits hfound h
  obtain ⟨kind, hkind, h1⟩ := Result.of_bind_ok h
  obtain ⟨name, hname, h2⟩ := Result.of_bind_ok h1
  obtain ⟨identity, hidentity, h3⟩ := Result.of_bind_ok h2
  obtain ⟨version, hversion, h4⟩ := Result.of_bind_ok h3
  obtain rfl := Except.ok.inj h4
  obtain ⟨rfl, rfl⟩ := identityOf_eq_ok.mp hidentity
  have kkind := kept_required (readsBack_string identityCode "type" singleLine) hfits (hfound _ (by simp)) hkind
  have kname := kept_required (readsBack_string identityCode "name" singleLine) hfits (hfound _ (by simp)) hname
  have kversion := kept_optional (readsBack_bounds boundsCode singleLine) hfits hversion
  refine ⟨?_, ?_⟩
  · simp only [selectorTable, List.forall_mem_cons]
    exact ⟨kkind.fits, kname.fits, kversion.fits, by simp⟩
  · intro written hwritten _
    simp only [selectorTable, List.forall_mem_cons] at hwritten
    obtain ⟨wkind, wname, wversion, _⟩ := hwritten
    simp only [selectorBody, kkind.again _ wkind, kname.again _ wname, hidentity, kversion.again _ wversion, bind,
      Except.bind]
    rfl

end AgentArtifacts.Schema
