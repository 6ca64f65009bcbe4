import AgentArtifacts.Protocol.JsonLimits
import AgentArtifacts.Store.Objects

/-!
# The object envelope

A candidate binds a digest, normalized entries and the bytes they are stored as. It is
made from entries, or read from stored bytes that are exactly the ones it would be
written as.
-/

namespace AgentArtifacts

open Manifest (Fields jsonObject validDigest)

def maxEnvelopeBytes : Nat := 150 * 1024 * 1024

def maxEnvelopeString : Nat := 15 * 1024 * 1024

def digestMismatch : DiagnosticCode := ⟨"digest-mismatch"⟩

section Envelope

variable [StandardLibrary]

/-! ## Writing -/

/-- Only a file has content. -/
def snapshotEntryTable (entry : SnapshotEntry) : Fields :=
  [("executable", some (.bool entry.executable)), ("kind", some (.str entry.kind.value)),
    ("path", some (.str entry.path.str)),
    ("content_base64", if entry.kind = .file then some (.str (String.ofList (Base64.encode entry.content))) else none)]

def envelopeTable (entries : List SnapshotEntry) : Fields :=
  [("entries", some (.arr (entries.map fun entry => jsonObject (snapshotEntryTable entry)))),
    ("schema_version", some (.int 1))]

def envelopeBytes (entries : List SnapshotEntry) : Bytes := canonicalJsonBytes (jsonObject (envelopeTable entries))

/-! ## Candidates -/

structure EnvelopeData where
  digest : ObjectDigest
  entries : List SnapshotEntry
  canonicalBytes : Bytes
deriving DecidableEq

/-- Every check of the candidate's constructor. -/
def EnvelopeData.valid (data : EnvelopeData) : Bool :=
  validDigest data.digest && decide (data.canonicalBytes.length ≤ maxEnvelopeBytes) &&
    sha256Bytes data.canonicalBytes == data.digest &&
    match normalizedEntries data.entries with
    | .error _ => false
    | .ok normalized => normalized == data.entries && envelopeBytes normalized == data.canonicalBytes

/-- A candidate that its constructor accepted. -/
structure Envelope extends EnvelopeData where
  accepted : toEnvelopeData.valid = true

def constructCandidate (data : EnvelopeData) : Result Envelope :=
  if h : data.valid = true then .ok ⟨data, h⟩
  else raised "object candidate must bind the exact safe canonical tree and bytes"

/-- Whether the digest that was asked for is another one. -/
def refusedDigest (expected : Option ObjectDigest) (digest : ObjectDigest) : Bool :=
  match expected with
  | none => false
  | some wanted => !validDigest wanted || digest != wanted

def makeObjectCandidate (entries : List SnapshotEntry) (expectedDigest : Option ObjectDigest) : Result Envelope := do
  let normalized ← normalizedEntries entries
  let canonical := envelopeBytes normalized
  if canonical.length > maxEnvelopeBytes then storeError "canonical object envelope exceeds maximum size"
  else
    let digest := sha256Bytes canonical
    if refusedDigest expectedDigest digest then error digestMismatch "object bytes do not match expected digest"
    else constructCandidate ⟨digest, normalized, canonical⟩

/-! ## Reading -/

def sameNames (fields : Dict) (required : List String) : Bool :=
  required.all (fun name => name ∈ fields.map Prod.fst) && fields.all fun field => field.1 ∈ required

def entryFieldNames (kind : Option Json) : List String :=
  if kind = some (.str "file") then ["path", "kind", "executable", "content_base64"]
  else ["path", "kind", "executable"]

section Reading

variable (b64decode : String → Option Bytes)

/-- What an entry is once its path and its mode are known. -/
def entryContent (fields : Dict) (raw : String) (path : SafeRelativePath) (executable : Bool) : Result SnapshotEntry :=
  if fields.get? "kind" = some (.str "directory") then
    if executable then storeError ("object envelope directory is executable: " ++ raw)
    else .ok (directoryAt path)
  else if fields.get? "kind" = some (.str "file") then
    match fields.get? "content_base64" with
    | some (.str rawContent) =>
        match b64decode rawContent with
        | none => storeError ("object envelope content is not canonical base64: " ++ raw)
        | some content => .ok ⟨path, .file, content, executable⟩
    | _ => storeError "object envelope entry kind is invalid"
  else storeError "object envelope entry kind is invalid"

def parseEnvelopeEntry : Json → Result SnapshotEntry
  | .obj fields =>
      if !sameNames fields (entryFieldNames (Dict.get? fields "kind")) then
        storeError "object envelope entry fields are invalid"
      else
        match Dict.get? fields "path", Dict.get? fields "executable" with
        | some (.str raw), some (.bool executable) =>
            match parseRelativePath raw with
            | .error _ => storeError ("object envelope path is unsafe: " ++ pyRepr raw)
            | .ok path => entryContent b64decode fields raw path executable
        | _, _ => storeError "object envelope entry types are invalid"
  | _ => storeError "object envelope entry must be an object"

def parseEnvelopeEntries (fields : Dict) : Result (List SnapshotEntry) :=
  if !sameNames fields ["schema_version", "entries"] then storeError "object envelope fields are invalid"
  else if fields.get? "schema_version" ≠ some (.int 1) then
    storeError "object envelope schema version is unsupported"
  else
    match fields.get? "entries" with
    | some (.arr items) =>
        if items.length > maxEntries then storeError "object envelope exceeds maximum entry count"
        else items.mapM (parseEnvelopeEntry b64decode)
    | _ => storeError "object envelope entries must be an array"

def parseObjectCandidate (data : Bytes) (expectedDigest : Option ObjectDigest) : Result Envelope :=
  if data.length > maxEnvelopeBytes then storeError "object envelope must be bounded bytes"
  else
    match parseJsonWithin maxEnvelopeString data with
    | .ok (.obj fields) => do
        let entries ← parseEnvelopeEntries b64decode fields
        let candidate ← makeObjectCandidate entries expectedDigest
        if candidate.canonicalBytes ≠ data then storeError "object envelope is not in canonical representation"
        else return candidate
    | _ => storeError "object envelope is not strict JSON"

end Reading

/-! ## What the constructor accepts -/

/-- A raw digest has thirty-two octets. -/
def Sha256Length : Prop := ∀ data, (StandardLibrary.sha256 data).length = 32

theorem validDigest_sha256Bytes (hlength : Sha256Length) (data : Bytes) : validDigest (sha256Bytes data) = true := by
  have hchars (octets : Bytes) :
      (Framing.hexChars octets).length = 2 * octets.length ∧ (Framing.hexChars octets).all isLowerHex = true := by
    have hdigit : ∀ n < 16, isLowerHex (Framing.hexDigit n) = true := by decide
    induction octets with
    | nil => exact ⟨rfl, rfl⟩
    | cons octet rest ih =>
        have hoctet := octet.toNat_lt
        refine ⟨?_, ?_⟩
        · simp only [Framing.hexChars, List.length_cons, ih.1]
          omega
        · simp only [Framing.hexChars, List.all_cons, ih.2, hdigit _ (by omega : octet.toNat / 16 < 16),
            hdigit _ (by omega : octet.toNat % 16 < 16), Bool.and_self]
  obtain ⟨hcount, hall⟩ := hchars (StandardLibrary.sha256 data)
  rw [hlength data] at hcount
  simp [validDigest, sha256Bytes, hcount, hall]

theorem valid_iff {data : EnvelopeData} :
    data.valid = true ↔ validDigest data.digest = true ∧ data.canonicalBytes.length ≤ maxEnvelopeBytes ∧
      sha256Bytes data.canonicalBytes = data.digest ∧ normalizedEntries data.entries = .ok data.entries ∧
      envelopeBytes data.entries = data.canonicalBytes := by
  unfold EnvelopeData.valid
  simp only [Bool.and_eq_true, decide_eq_true_eq, beq_iff_eq, and_assoc]
  cases normalizedEntries data.entries with
  | error diagnostics => simp
  | ok normalized =>
      simp only [Bool.and_eq_true, beq_iff_eq, Except.ok.injEq]
      constructor
      · rintro ⟨hdigest, hlength, hhash, rfl, hbytes⟩
        exact ⟨hdigest, hlength, hhash, rfl, hbytes⟩
      · rintro ⟨hdigest, hlength, hhash, rfl, hbytes⟩
        exact ⟨hdigest, hlength, hhash, rfl, hbytes⟩

theorem constructCandidate_of_valid {data : EnvelopeData} (h : data.valid = true) :
    constructCandidate data = .ok ⟨data, h⟩ := dif_pos h

/-! ## Calls that return -/

/-- No exception reaches the caller. -/
def Returns {α : Type} (result : Result α) : Prop := ∀ message, result ≠ raised message

section Returns

omit [StandardLibrary]

theorem returns_ok {α : Type} (a : α) : Returns (.ok a : Result α) := by
  intro message h
  exact absurd h (by simp [raised, error])

theorem returns_error {α : Type} {code : DiagnosticCode} (h : code ≠ exceptionCode) (message : String) :
    Returns (error code message : Result α) := by
  intro other heq
  simp only [error, raised, Except.error.injEq, List.cons.injEq, Diagnostic.mk.injEq, and_true] at heq
  exact h heq.1

theorem returns_storeError {α : Type} (message : String) : Returns (storeError message : Result α) :=
  returns_error (by decide) message

theorem Returns.bind {α β : Type} {first : Result α} {next : α → Result β} (hfirst : Returns first)
    (hnext : ∀ a, first = .ok a → Returns (next a)) : Returns (first >>= next) := by
  intro message h
  cases first with
  | error diagnostics =>
      obtain rfl : diagnostics = [⟨exceptionCode, message⟩] := Except.error.inj h
      exact hfirst message rfl
  | ok a => exact hnext a rfl message h

theorem Returns.foldlM {α σ : Type} {step : σ → α → Result σ} {items : List α}
    (h : ∀ state, ∀ item ∈ items, Returns (step state item)) (state : σ) : Returns (items.foldlM step state) := by
  induction items generalizing state with
  | nil => exact returns_ok state
  | cons item rest ih =>
      rw [List.foldlM_cons]
      exact (h state item List.mem_cons_self).bind fun next _ =>
        ih (fun state item hitem => h state item (List.mem_cons_of_mem _ hitem)) next

end Returns

theorem collectEntry_returns (state : Collected) (entry : SnapshotEntry) : Returns (collectEntry state entry) := by
  unfold collectEntry collectFile
  dsimp only
  repeat' split
  all_goals first | exact returns_storeError _ | exact returns_ok _

theorem requireDirectory_returns {directory : SafeRelativePath} (h : Canonical directory)
    (normalized : List SnapshotEntry) : Returns (requireDirectory normalized directory) := by
  unfold requireDirectory
  have hparsed : parseRelativePath directory.str = .ok directory := h
  rw [hparsed]
  dsimp only
  repeat' split
  all_goals first | exact returns_storeError _ | exact returns_ok _

/-- The assertion about the directories above an entry holds. -/
theorem normalizedEntries_returns (hnfc : NfcPrefixes) (entries : List SnapshotEntry) :
    Returns (normalizedEntries entries) := by
  unfold normalizedEntries
  refine Returns.bind (Returns.foldlM (fun state entry _ => collectEntry_returns state entry) {}) fun state hstate => ?_
  obtain ⟨_, hcollectable, rfl⟩ := collectEntries_eq_ok.mp hstate
  dsimp only
  split
  · exact returns_storeError _
  · refine Returns.bind (Returns.foldlM (fun normalized directory hdirectory => ?_) _) fun _ _ => returns_ok _
    exact requireDirectory_returns (canonical_impliedDirectories hnfc hcollectable.paths directory hdirectory) normalized

/-- The entries of a closure are taken again exactly when they are not too many. -/
theorem normalizedEntries_closure_iff (hnfc : NfcPrefixes) {entries : List SnapshotEntry} (hne : entries ≠ [])
    (h : WellFormed entries) :
    normalizedEntries (closure entries) = .ok (closure entries) ↔ (everyPath entries).length ≤ maxEntries := by
  rw [normalizedEntries_eq_ok hnfc, closure_closure, length_closure h.distinct]
  have hclosure : closure entries ≠ [] := by
    obtain ⟨entry, rest, rfl⟩ := List.exists_cons_of_ne_nil hne
    exact List.ne_nil_of_mem (mem_closure.mpr (Or.inl List.mem_cons_self))
  exact ⟨fun hall => hall.2.1, fun hcount => ⟨hclosure, hcount, wellFormed_closure hnfc h, rfl⟩⟩

/-- The constructor raises on the normal form of entries that are only too many once the
directories above them are counted. -/
theorem makeObjectCandidate_raises_iff (hnfc : NfcPrefixes) (hlength : Sha256Length) (entries : List SnapshotEntry)
    (expectedDigest : Option ObjectDigest) :
    (∃ message, makeObjectCandidate entries expectedDigest = raised message) ↔
      (entries ≠ [] ∧ entries.length ≤ maxEntries ∧ WellFormed entries ∧ maxEntries < (everyPath entries).length) ∧
        (envelopeBytes (closure entries)).length ≤ maxEnvelopeBytes ∧
        refusedDigest expectedDigest (sha256Bytes (envelopeBytes (closure entries))) = false := by
  unfold makeObjectCandidate
  cases hnormalized : normalizedEntries entries with
  | error diagnostics =>
      constructor
      · rintro ⟨message, h⟩
        obtain rfl : diagnostics = [⟨exceptionCode, message⟩] := Except.error.inj h
        exact absurd hnormalized (normalizedEntries_returns hnfc entries message)
      · rintro ⟨⟨hne, hcount, hformed, _⟩, _⟩
        rw [(normalizedEntries_eq_ok hnfc).mpr ⟨hne, hcount, hformed, rfl⟩] at hnormalized
        exact absurd hnormalized (by simp)
  | ok normalized =>
      obtain ⟨hne, hcount, hformed, rfl⟩ := (normalizedEntries_eq_ok hnfc).mp hnormalized
      simp only [bind, Except.bind]
      split
      · rename_i hsize
        constructor
        · rintro ⟨message, h⟩
          exact absurd h (returns_storeError _ message)
        · rintro ⟨_, hsmall, _⟩
          exact absurd hsmall (by omega)
      rename_i hsize
      split
      · rename_i hrefused
        constructor
        · rintro ⟨message, h⟩
          exact absurd h (returns_error (by decide) _ message)
        · rintro ⟨_, _, haccepted⟩
          rw [haccepted] at hrefused
          exact absurd hrefused (by decide)
      rename_i hrefused
      have hvalid : (⟨sha256Bytes (envelopeBytes (closure entries)), closure entries,
          envelopeBytes (closure entries)⟩ : EnvelopeData).valid = true ↔ (everyPath entries).length ≤ maxEntries := by
        rw [valid_iff, ← normalizedEntries_closure_iff hnfc hne hformed]
        exact ⟨fun h => h.2.2.2.1, fun h => ⟨validDigest_sha256Bytes hlength _, Nat.not_lt.mp hsize, rfl, h, rfl⟩⟩
      unfold constructCandidate
      split
      · rename_i hsmall
        constructor
        · rintro ⟨message, h⟩
          exact absurd h (returns_ok _ message)
        · rintro ⟨⟨_, _, _, hmany⟩, _⟩
          exact absurd (hvalid.mp hsmall) (by omega)
      · rename_i hmany
        rw [hvalid] at hmany
        exact ⟨fun _ => ⟨⟨hne, hcount, hformed, by omega⟩, by omega, by simpa using hrefused⟩, fun _ => ⟨_, rfl⟩⟩

/-- What is expected of the normalization of some entries: the normal form is its own, holds
every directory above an entry once and does not depend on the order of the entries, and a
candidate is made of them or refused. -/
structure Normalizes (entries : List SnapshotEntry) : Prop where
  idempotent : ∀ normalized, normalizedEntries entries = .ok normalized →
    normalizedEntries normalized = .ok normalized
  ancestors : ∀ normalized, normalizedEntries entries = .ok normalized → ∀ entry ∈ normalized,
    ∀ ancestor ∈ properAncestors entry.path, normalized.count (directoryAt ancestor) = 1 ∧
      ∀ other ∈ normalized, other.path = ancestor → other = directoryAt ancestor
  unordered : ∀ normalized others, normalizedEntries entries = .ok normalized → entries.Perm others →
    normalizedEntries others = .ok normalized
  returns : ∀ expectedDigest, Returns (makeObjectCandidate entries expectedDigest)

theorem directory_of_wellFormed {entries : List SnapshotEntry} (h : WellFormed entries) {entry : SnapshotEntry}
    (hentry : entry ∈ entries) (hdirectory : entry.kind = .directory) : entry = directoryAt entry.path := by
  have hplain := h.shape entry hentry
  simp only [SnapshotEntry.plain, hdirectory] at hplain
  cases entry
  simp_all [directoryAt]

theorem ancestors_closure (hnfc : NfcPrefixes) {entries : List SnapshotEntry} (h : WellFormed entries)
    {entry : SnapshotEntry} (hentry : entry ∈ closure entries) {ancestor : SafeRelativePath}
    (hancestor : ancestor ∈ properAncestors entry.path) :
    (closure entries).count (directoryAt ancestor) = 1 ∧
      ∀ other ∈ closure entries, other.path = ancestor → other = directoryAt ancestor := by
  have hformed := wellFormed_closure hnfc h
  have himplied : ancestor ∈ impliedDirectories (closure entries) := List.mem_flatMap.mpr ⟨entry, hentry, hancestor⟩
  have hsame (other : SnapshotEntry) (hother : other ∈ closure entries) (hpath : other.path = ancestor) :
      other = directoryAt ancestor := by
    rw [← hpath]
    exact directory_of_wellFormed hformed hother (hformed.conflicts ancestor himplied other hother hpath)
  refine ⟨List.count_eq_one_of_mem hformed.distinct.of_map ?_, hsame⟩
  obtain ⟨other, hother, hpath⟩ := List.mem_map.mp
    (mem_paths_closure.mpr (Or.inr (impliedDirectories_closure.mp himplied)))
  exact hsame other hother hpath ▸ hother

/-- Entries normalize as expected exactly when the object they are accepted for is within
the bound on entries, the directories above them included. -/
theorem normalizes_iff (hnfc : NfcPrefixes) (hlength : Sha256Length) (entries : List SnapshotEntry) :
    Normalizes entries ↔
      (WellFormed entries → entries.length ≤ maxEntries → (everyPath entries).length ≤ maxEntries) := by
  constructor
  · intro h hformed hcount
    by_cases hne : entries = []
    · rw [hne]
      decide
    · have hnormalized := (normalizedEntries_eq_ok hnfc).mpr ⟨hne, hcount, hformed, rfl⟩
      exact (normalizedEntries_closure_iff hnfc hne hformed).mp (h.idempotent _ hnormalized)
  · intro h
    refine ⟨?_, ?_, ?_, ?_⟩
    · intro normalized hnormalized
      obtain ⟨hne, hcount, hformed, rfl⟩ := (normalizedEntries_eq_ok hnfc).mp hnormalized
      exact (normalizedEntries_closure_iff hnfc hne hformed).mpr (h hformed hcount)
    · intro normalized hnormalized entry hentry ancestor hancestor
      obtain ⟨_, _, hformed, rfl⟩ := (normalizedEntries_eq_ok hnfc).mp hnormalized
      exact ancestors_closure hnfc hformed hentry hancestor
    · intro normalized others hnormalized hperm
      obtain ⟨hne, hcount, hformed, rfl⟩ := (normalizedEntries_eq_ok hnfc).mp hnormalized
      refine (normalizedEntries_eq_ok hnfc).mpr ⟨?_, ?_, hformed.perm hperm, closure_eq_of_perm hnfc hperm hformed⟩
      · intro hnil
        rw [hnil] at hperm
        exact hne (List.perm_nil.mp hperm)
      · rw [← hperm.length_eq]
        exact hcount
    · intro expectedDigest message hraised
      obtain ⟨⟨_, hcount, hformed, hmany⟩, _⟩ :=
        (makeObjectCandidate_raises_iff hnfc hlength entries expectedDigest).mp ⟨message, hraised⟩
      exact absurd (h hformed hcount) (by omega)

end Envelope

/-! ## Directories that were not counted -/

@[reducible] def storeLibrary : StandardLibrary := pythonLibrary (fun _ => List.replicate 32 0) fun _ => true

section Sample

attribute [local instance] storeLibrary

theorem storeLibrary_nfcPrefixes : NfcPrefixes := fun _ _ _ => rfl

theorem storeLibrary_sha256Length : Sha256Length := fun _ => List.length_replicate

def shelf (number : Nat) : String := String.ofList (Nat.toDigits 10 number)

theorem shelf_injective {a b : Nat} (h : shelf a = shelf b) : a = b := by
  have hchars := String.ofList_injective h
  rw [← Nat.ofDigitChars_toDigits (b := 10) (n := a) (by decide) (by decide), hchars,
    Nat.ofDigitChars_toDigits (by decide) (by decide)]

/-- Each of the directories is below another one, and those are as many again. -/
def manyDirectories : List SnapshotEntry := (List.range 10001).map fun number => directoryAt ⟨[shelf number, "box"]⟩

theorem shelf_safe (number : Nat) : SafePart (shelf number) := by
  have hdigit {c : Char} (hc : c ∈ (shelf number).toList) : c.isDigit = true := by
    rw [shelf, String.toList_ofList] at hc
    exact Nat.isDigit_of_mem_toDigits (by decide) (by decide) hc
  have hnot {c : Char} (hc : c.isDigit = false) : c ∉ (shelf number).toList := fun h => by
    rw [hdigit h] at hc
    exact absurd hc (by decide)
  refine ⟨?_, ?_, ?_, hnot (by decide), hnot (by decide), ?_⟩
  · intro h
    have hnil := congrArg String.toList h
    rw [shelf, String.toList_ofList] at hnil
    exact Nat.toDigits_ne_nil hnil
  · exact fun h => hnot (by decide : '.'.isDigit = false) (by rw [h]; decide)
  · exact fun h => hnot (by decide : '.'.isDigit = false) (by rw [h]; decide)
  · intro c hc
    have hcode := hdigit hc
    have hrange : 48 ≤ c.toNat ∧ c.toNat ≤ 57 := by
      simpa [Char.isDigit, UInt32.le_iff_toNat_le] using hcode
    simp only [controlChar, Bool.or_eq_false_iff, decide_eq_false_iff_not, beq_eq_false_iff_ne]
    omega

theorem box_safe : SafePart "box" := ⟨by decide, by decide, by decide, by decide, by decide, by decide⟩

theorem shelf_canonical (number : Nat) : Canonical ⟨[shelf number, "box"]⟩ := by
  refine canonical_iff.mpr ⟨by simp, ?_, rfl, ?_⟩
  · intro part hpart
    simp only [List.mem_cons, List.not_mem_nil, or_false] at hpart
    rcases hpart with rfl | rfl
    · exact shelf_safe number
    · exact box_safe
  · obtain ⟨c, digits, hchars⟩ := List.exists_cons_of_ne_nil (Nat.toDigits_ne_nil : Nat.toDigits 10 number ≠ [])
    have hdigit : c.isDigit = true :=
      Nat.isDigit_of_mem_toDigits (by decide) (by decide) (hchars ▸ List.mem_cons_self : c ∈ Nat.toDigits 10 number)
    have hletter : c.isAlpha = false := by
      have hrange : 48 ≤ c.toNat ∧ c.toNat ≤ 57 := by
        simpa [Char.isDigit, UInt32.le_iff_toNat_le] using hdigit
      simp only [isAlpha_eq, isUpper_eq, isLower_eq, Bool.or_eq_false_iff, Bool.and_eq_false_iff,
        decide_eq_false_iff_not, ge_iff_le, UInt32.le_iff_toNat_le]
      simp
      omega
    have hform : (⟨[shelf number, "box"]⟩ : SafeRelativePath).str.toList = c :: (digits ++ ['/', 'b', 'o', 'x']) := by
      rw [SafeRelativePath.str, slashJoin_toList]
      simp [shelf, hchars, List.intercalate_cons_cons]
    unfold hasWindowsDrive
    rw [hform]
    split
    · rename_i heq
      rw [← (List.cons.inj heq).1]
      exact hletter
    · rename_i heq
      rw [← (List.cons.inj heq).1]
      exact hletter
    · rfl

theorem manyDirectories_paths :
    manyDirectories.map (·.path) = (List.range 10001).map fun number => ⟨[shelf number, "box"]⟩ := by
  simp [manyDirectories, directoryAt]

theorem manyDirectories_files : ∀ entry ∈ manyDirectories, entry.isFile = false := by
  intro entry hentry
  obtain ⟨number, _, rfl⟩ := List.mem_map.mp hentry
  rfl

theorem manyDirectories_wellFormed : WellFormed manyDirectories := by
  have hall {good : SnapshotEntry → Prop} (h : ∀ number, good (directoryAt ⟨[shelf number, "box"]⟩)) :
      ∀ entry ∈ manyDirectories, good entry := by
    intro entry hentry
    obtain ⟨number, _, rfl⟩ := List.mem_map.mp hentry
    exact h number
  refine ⟨⟨hall shelf_canonical, ?_, hall fun _ => (by decide : 2 ≤ maxEntryDepth), hall fun _ => ⟨rfl, rfl⟩, ?_, ?_⟩, ?_⟩
  · rw [manyDirectories_paths]
    refine List.nodup_range.map fun a b h => ?_
    simp only [SafeRelativePath.mk.injEq, List.cons.injEq, and_true] at h
    exact shelf_injective h
  · rw [fileCount, List.countP_eq_zero.mpr fun entry hentry => by simp [manyDirectories_files entry hentry]]
    decide
  · rw [totalBytes, List.filter_eq_nil_iff.mpr fun entry hentry => by simp [manyDirectories_files entry hentry]]
    decide
  · exact fun _ _ => hall fun _ _ => rfl

/-- The shelves and the boxes are all paths of the object. -/
theorem manyDirectories_everyPath : maxEntries < (everyPath manyDirectories).length := by
  have hboxes := manyDirectories_wellFormed.distinct
  have hshelves : ((List.range 10001).map fun number => (⟨[shelf number]⟩ : SafeRelativePath)).Nodup := by
    refine List.nodup_range.map fun a b h => ?_
    simp only [SafeRelativePath.mk.injEq, List.cons.injEq, and_true] at h
    exact shelf_injective h
  have hnodup : (manyDirectories.map (·.path) ++
      (List.range 10001).map fun number => (⟨[shelf number]⟩ : SafeRelativePath)).Nodup := by
    refine List.nodup_append.mpr ⟨hboxes, hshelves, ?_⟩
    rw [manyDirectories_paths]
    intro box hbox path hpath h
    obtain ⟨a, _, rfl⟩ := List.mem_map.mp hbox
    obtain ⟨b, _, rfl⟩ := List.mem_map.mp hpath
    exact absurd (congrArg (·.parts.length) h) (by simp)
  have hsub : (manyDirectories.map (·.path) ++
      (List.range 10001).map fun number => (⟨[shelf number]⟩ : SafeRelativePath)) ⊆ everyPath manyDirectories := by
    intro path hpath
    refine mem_everyPath.mpr ?_
    rcases List.mem_append.mp hpath with hbox | hshelf
    · exact Or.inl hbox
    · obtain ⟨number, hnumber, rfl⟩ := List.mem_map.mp hshelf
      refine Or.inr (List.mem_flatMap.mpr ⟨_, List.mem_map.mpr ⟨number, hnumber, rfl⟩, ?_⟩)
      exact mem_properAncestors.mpr ⟨1, by simp, by simp [directoryAt], by simp [directoryAt]⟩
  have hcount := (List.subperm_of_subset hnodup hsub).length_le
  simp only [List.length_append, List.length_map, List.length_range, manyDirectories] at hcount
  unfold maxEntries
  unfold manyDirectories
  omega

/-- The normal form of the boxes is refused as too many entries. -/
theorem manyDirectories_not_normalizes : ¬ Normalizes manyDirectories := by
  intro h
  have hcount : manyDirectories.length ≤ maxEntries := by
    rw [manyDirectories, List.length_map, List.length_range]
    decide
  have hne : manyDirectories ≠ [] := List.ne_nil_of_mem (List.mem_map.mpr ⟨0, List.mem_range.mpr (by omega), rfl⟩)
  have hnormalized := (normalizedEntries_eq_ok storeLibrary_nfcPrefixes).mpr
    ⟨hne, hcount, manyDirectories_wellFormed, rfl⟩
  have hfew := (normalizedEntries_closure_iff storeLibrary_nfcPrefixes hne manyDirectories_wellFormed).mp
    (h.idempotent _ hnormalized)
  exact absurd manyDirectories_everyPath (by omega)

def oneFile : List SnapshotEntry := [{ path := ⟨["payload", "style.md"]⟩, kind := .file, content := [35] }]

theorem oneFile_normalizes : Normalizes oneFile :=
  (normalizes_iff storeLibrary_nfcPrefixes storeLibrary_sha256Length oneFile).mpr fun _ _ => by decide

end Sample

end AgentArtifacts
