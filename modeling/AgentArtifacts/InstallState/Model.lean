import AgentArtifacts.Protocol.Hashing

/-!
# Installation state

The records of one scope. A record repeats the alias and the identity of its
evidence as its coordinate, so the coordinate is derived here and cannot differ
from the evidence. A state keeps its records sorted by key, with no key and no
effect owner held twice.
-/

namespace AgentArtifacts

/-! ## Evidence -/

inductive SourceKind where
  | registryGit
  | sourceGit
  | sourceLocal
deriving DecidableEq

def SourceKind.value : SourceKind → String
  | .registryGit => "registry-git"
  | .sourceGit => "source-git"
  | .sourceLocal => "source-local"

structure SourceEvidence where
  sourceAlias : SourceAlias
  declaredId : SourceId
  kind : SourceKind
  origin : String
  resolvedCommit : String
  subscriptionRef : Option String := none
deriving DecidableEq

structure ArtifactEvidence where
  identity : ArtifactIdentity
  version : String
  manifestDigest : ObjectDigest
  payloadDigest : ObjectDigest
  objectDigest : ObjectDigest
deriving DecidableEq

/-! ## Effects -/

inductive EffectKind where
  | copyTree
  | writeFile
  | mergeJson
  | managedBlock
  | symlinkFile
  | symlinkTree
deriving DecidableEq

def EffectKind.value : EffectKind → String
  | .copyTree => "copy-tree"
  | .writeFile => "write-file"
  | .mergeJson => "merge-json"
  | .managedBlock => "managed-block"
  | .symlinkFile => "symlink-file"
  | .symlinkTree => "symlink-tree"

def EffectKind.isLink : EffectKind → Bool
  | .symlinkFile | .symlinkTree => true
  | _ => false

inductive MergeMode where
  | key
  | list
deriving DecidableEq

inductive LinkSemantics where
  | immutableObject
  | mutableLocal
deriving DecidableEq

/-- The proof of one effect. Absent identity evidence is the JSON `null`. -/
structure EffectProof where
  kind : EffectKind
  destination : String
  actualMode : InstallMode
  installedDigest : ObjectDigest
  sourcePath : Option String := none
  jsonPath : Option String := none
  mergeMode : Option MergeMode := none
  identityDigest : Option ObjectDigest := none
  identityEvidence : Json := .null
  linkTarget : Option String := none
  linkSemantics : Option LinkSemantics := none
  createdDestination : Bool := false
  overwrote : Bool := false
  restoresFrom : Option String := none
deriving DecidableEq

/-- What ties a recorded effect to a place: destination, JSON path, identity. -/
structure Locator where
  destination : String
  jsonPath : String
  identity : String
deriving DecidableEq

def EffectProof.locator (effect : EffectProof) : Locator :=
  ⟨effect.destination, effect.jsonPath.getD "", (effect.identityDigest.map (·.str)).getD ""⟩

def oneLine (value : String) : Bool :=
  value != "" && value == pyStrip value && !pyIn "\r" value && !pyIn "\n" value

section Checks

variable [StandardLibrary]

/-- The checks of the constructor, in its order and with its messages. -/
def EffectProof.check (effect : EffectProof) : Except String Unit := do
  if !oneLine effect.destination then throw "installation effect proof is invalid"
  match effect.restoresFrom with
  | some source =>
      if effect.kind != .writeFile || !oneLine source || source == effect.destination then
        throw "effect restore source must be a distinct write-file sibling"
  | none => pure ()
  match effect.sourcePath with
  | some path =>
      if !isSafeRelative path then throw "effect source path must be a safe relative path"
  | none => pure ()
  if effect.kind = .mergeJson then
    if !oneLine (effect.jsonPath.getD "") || effect.mergeMode.isNone ||
        effect.identityDigest.isNone ||
        (effect.identityEvidence != .null &&
          effect.identityDigest != some (jsonDigest effect.identityEvidence)) ||
        effect.sourcePath.isSome || effect.actualMode != .copy then
      throw "merge-json effect proof is incomplete"
  else if effect.jsonPath.isSome || effect.mergeMode.isSome || effect.identityDigest.isSome ||
      effect.identityEvidence != .null then
    throw "non-merge effect proof cannot contain merge fields"
  else if effect.kind != .managedBlock && effect.sourcePath.isNone then
    throw "file/tree effect proof requires a source path"
  if effect.kind.isLink then
    match effect.linkTarget with
    | none => throw "symlink effect must record an absolute target and semantics"
    | some target =>
        if effect.actualMode != .symlink || !oneLine target || !isAbs target ||
            normPath target != target || target == "/" || effect.linkSemantics.isNone then
          throw "symlink effect must record an absolute target and semantics"
  else if effect.linkTarget.isSome || effect.linkSemantics.isSome then
    throw "non-symlink effect proof cannot contain link fields"
  if !effect.kind.isLink && effect.actualMode != .copy then
    throw "non-symlink effects must record copy mode"

end Checks

/-! ## Records -/

structure InstallationRecord where
  source : SourceEvidence
  artifact : ArtifactEvidence
  profile : Slug
  profileVersion : Nat
  scope : InstallScope
  requestedMode : InstallMode
  effects : List EffectProof
  memoryMode : Option MemoryMode := none
  setupStateRef : Option String := none
deriving DecidableEq

def InstallationRecord.coordinate (record : InstallationRecord) : ArtifactCoordinate :=
  ⟨record.source.sourceAlias, record.artifact.identity, none⟩

/-- Identity of a record inside its manifest. -/
structure RecordKey where
  coordinate : String
  profile : String
  scope : String
deriving DecidableEq

def InstallationRecord.key (record : InstallationRecord) : RecordKey :=
  ⟨record.coordinate.str, record.profile.value, record.scope.value⟩

/-- Whether a record is the one of an artifact, a profile and a scope. -/
def InstallationRecord.isFor (record : InstallationRecord) (source : SourceAlias)
    (artifact : ArtifactIdentity) (profile : Slug) (scope : InstallScope) : Bool :=
  record.source.sourceAlias == source && record.artifact.identity == artifact &&
    record.profile == profile && record.scope == scope

section Checks

variable [StandardLibrary]

def InstallationRecord.check (record : InstallationRecord) : Except String Unit := do
  if record.profileVersion < 1 || record.profileVersion > 2 ^ 63 - 1 || record.effects.isEmpty ||
      (record.artifact.identity.kind != .memory && record.memoryMode.isSome) then
    throw "installation record is invalid"
  if !decide (record.effects.map (·.locator)).Nodup then
    throw "installation effect locators must be unique"
  for effect in record.effects do
    match record.scope with
    | .project =>
        if !isSafeRelative effect.destination then
          throw "project effect destination must be a safe relative path"
    | .user =>
        if !isAbs effect.destination || normPath effect.destination != effect.destination then
          throw "user effect destination must be a normalized absolute path"

end Checks

/-! ## States -/

/-- Who owns an effect across the manifest: managed memory blocks of different
artifacts may share a destination, nothing else may. -/
structure EffectOwner where
  scope : InstallScope
  locator : Locator
  block : String
deriving DecidableEq

def InstallationRecord.effectOwners (record : InstallationRecord) : List EffectOwner :=
  record.effects.map fun effect =>
    ⟨record.scope, effect.locator,
      if record.artifact.identity.kind = .memory ∧ effect.kind = .managedBlock then
        record.artifact.identity.str
      else ""⟩

def keyText (record : InstallationRecord) : List String :=
  [record.key.coordinate, record.key.profile, record.key.scope]

structure InstallState where
  installations : List InstallationRecord
  keysUnique : (installations.map (·.key)).Nodup
  ownersUnique : (installations.flatMap (·.effectOwners)).Nodup
deriving DecidableEq

def emptyState : InstallState := ⟨[], by simp, by simp⟩

def sortRecords (records : List InstallationRecord) : List InstallationRecord :=
  records.insertionSort fun a b => keyText a ≤ keyText b

def InstallState.make (records : List InstallationRecord) : Except String InstallState :=
  let ordered := sortRecords records
  if hkeys : (ordered.map (·.key)).Nodup then
    if howners : (ordered.flatMap (·.effectOwners)).Nodup then
      .ok ⟨ordered, hkeys, howners⟩
    else .error "installation effect ownership must be unique across the manifest"
  else .error "installation identities must be unique"

theorem InstallState.make_eq_ok {records : List InstallationRecord} {state : InstallState}
    (h : InstallState.make records = .ok state) : state.installations = sortRecords records := by
  unfold InstallState.make at h
  simp only at h
  split at h
  · split at h
    · rw [← Except.ok.inj h]
    · exact absurd h (by simp)
  · exact absurd h (by simp)

theorem InstallState.mem_make {records : List InstallationRecord} {state : InstallState}
    (h : InstallState.make records = .ok state) (record : InstallationRecord) :
    record ∈ state.installations ↔ record ∈ records := by
  rw [InstallState.make_eq_ok h]
  exact (List.perm_insertionSort _ records).mem_iff

/-- Records of one state with the same key are the same record. -/
theorem InstallState.eq_of_key_eq (state : InstallState) {a b : InstallationRecord}
    (ha : a ∈ state.installations) (hb : b ∈ state.installations) (h : a.key = b.key) : a = b :=
  List.inj_on_of_nodup_map state.keysUnique ha hb h

/-! ## Owners of object references -/

/-- The owner under which an installation retains its object. -/
def referenceOwner (record : InstallationRecord) : String :=
  slashJoin [record.scope.value, record.source.sourceAlias.value, record.artifact.identity.kind.value,
    record.artifact.identity.name.value, record.profile.value]

theorem slashJoin_owner_injective {s t : InstallScope} {a b : Slug} {k l : ArtifactKind}
    {m n p q : Slug}
    (h : slashJoin [s.value, a.value, k.value, m.value, p.value] =
      slashJoin [t.value, b.value, l.value, n.value, q.value]) :
    s = t ∧ a = b ∧ k = l ∧ m = n ∧ p = q := by
  have hno (s : InstallScope) (a : Slug) (k : ArtifactKind) (m p : Slug) :
      ∀ text ∈ [s.value, a.value, k.value, m.value, p.value], '/' ∉ text.toList := by
    intro text hmem
    simp only [List.mem_cons, List.not_mem_nil, or_false] at hmem
    rcases hmem with rfl | rfl | rfl | rfl | rfl
    · exact s.slash_not_mem
    · exact a.slash_not_mem
    · exact k.slash_not_mem
    · exact m.slash_not_mem
    · exact p.slash_not_mem
  have heq := slashJoin_injective (hno s a k m p) (hno t b l n q) (by simp) (by simp) h
  simp only [List.cons.injEq, and_true] at heq
  obtain ⟨hs, ha, hk, hm, hp⟩ := heq
  have slug_eq {x y : Slug} (h : x.value = y.value) : x = y := by
    cases x
    cases y
    simpa using h
  exact ⟨InstallScope.value_injective hs, slug_eq ha, ArtifactKind.value_injective hk,
    slug_eq hm, slug_eq hp⟩

/-- The owner determines the key of the record, and nothing of where its state lives. -/
theorem referenceOwner_eq_iff (a b : InstallationRecord) :
    referenceOwner a = referenceOwner b ↔
      a.scope = b.scope ∧ a.source.sourceAlias = b.source.sourceAlias ∧
        a.artifact.identity = b.artifact.identity ∧ a.profile = b.profile := by
  constructor
  · intro h
    obtain ⟨hs, ha, hk, hn, hp⟩ := slashJoin_owner_injective h
    refine ⟨hs, ha, ?_, hp⟩
    cases hida : a.artifact.identity
    cases hidb : b.artifact.identity
    simp_all
  · rintro ⟨hs, ha, hi, hp⟩
    simp [referenceOwner, hs, ha, hi, hp]

theorem key_eq_of_referenceOwner_eq {a b : InstallationRecord}
    (h : referenceOwner a = referenceOwner b) : a.key = b.key := by
  obtain ⟨hs, ha, hi, hp⟩ := (referenceOwner_eq_iff a b).mp h
  simp [InstallationRecord.key, InstallationRecord.coordinate, hs, ha, hi, hp]

end AgentArtifacts
