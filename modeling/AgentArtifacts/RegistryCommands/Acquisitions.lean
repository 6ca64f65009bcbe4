import AgentArtifacts.Library.Matching
import AgentArtifacts.Protocol.Rereading
import AgentArtifacts.Registry.Loading
import AgentArtifacts.RegistryCommands.Compiling
import AgentArtifacts.Store.EnvelopeReading

/-!
# When acquisitions are matched to entries

The matching goes through when no entry resolves from an acquisition that was made for a
later one. Two entries of one repository and one ref resolve from the acquisitions of each
other, so a registry that has them is neither locked nor built.
-/

namespace AgentArtifacts.RegistryCommands

open Maintenance (NativeReferenceAcquisition AcquiredPackage acquiredPackage packageMember packageObject packagePath
  registryMaintenanceInvalid)
open Matching (assign assign_eq_some_iff Unmistakable)
open Native (SourceManifest parseSourceManifest)
open Registry (Executable NativeSource LoadedPackage PackageEntries lastKeyed? lastKeyed?_of_mem entryAt compilePackageEntries
  compilePackageEntries_of_parts loadPackage loadPackage_of_parts loadNext loadNext_of_loaded loadCollections loadNativeSource
  loadNativeSource_of_parts packageCandidates packageManifest packageProvenance packageRoots
  packageSetup payloadDigest relativePackageEntries compatibilityDiagnostics validateDeclaredDependencies
  validateDependencies_ok_iff resolvable_of_requires_nothing validatedEntries validatePrimaryPayload
  validateProtocolEntryKinds)
open RegistrySchema (RegistryEntry)
open Schema (refuse refuse_eq_ok)

section Matching

variable [StandardLibrary] {executable : Executable} {entries : List RegistryEntry}
  {acquisitions chosen : List NativeReferenceAcquisition} {entry : RegistryEntry}
  {acquisition : NativeReferenceAcquisition}

def Resolves (executable : Executable) (entry : RegistryEntry) (acquisition : NativeReferenceAcquisition) : Prop :=
  ∃ acquired, acquiredPackage executable entry acquisition = .ok acquired

def resolves (executable : Executable) (entry : RegistryEntry) (acquisition : NativeReferenceAcquisition) : Bool :=
  (resolvedFrom executable entry acquisition).isSome

theorem resolves_iff : resolves executable entry acquisition = true ↔ Resolves executable entry acquisition := by
  unfold resolves resolvedFrom Resolves
  cases acquiredPackage executable entry acquisition <;> simp [Except.toOption]

theorem resolvedFrom_eq_some {found : ResolvedAcquisition} :
    resolvedFrom executable entry acquisition = some found ↔
      acquiredPackage executable entry acquisition = .ok found.acquired ∧ found.acquisition = acquisition := by
  unfold resolvedFrom
  cases acquiredPackage executable entry acquisition with
  | error diagnostics => simp [Except.toOption]
  | ok acquired =>
      obtain ⟨known, origin⟩ := found
      simp [Except.toOption, eq_comm]

/-- What is found among the acquisitions that are left is what one of them resolves to. -/
theorem filterMap_resolvedFrom {found : ResolvedAcquisition} (available : List NativeReferenceAcquisition) :
    available.filterMap (resolvedFrom executable entry) = [found] ↔
      available.filter (resolves executable entry) = [found.acquisition] ∧
        acquiredPackage executable entry found.acquisition = .ok found.acquired := by
  have hmap : (available.filterMap (resolvedFrom executable entry)).map (·.acquisition) =
      available.filter (resolves executable entry) := by
    induction available with
    | nil => rfl
    | cons first rest ih =>
        cases hfirst : resolvedFrom executable entry first with
        | none =>
            rw [List.filterMap_cons_none hfirst, List.filter_cons_of_neg (by simp [resolves, hfirst]), ih]
        | some known =>
            rw [List.filterMap_cons_some hfirst, List.filter_cons_of_pos (by simp [resolves, hfirst]), List.map_cons, ih,
              (resolvedFrom_eq_some.mp hfirst).2]
  constructor
  · intro h
    rw [h] at hmap
    have hmem : found ∈ available.filterMap (resolvedFrom executable entry) := by rw [h]; exact List.mem_singleton_self _
    obtain ⟨origin, _, hfound⟩ := List.mem_filterMap.mp hmem
    obtain ⟨hacquired, rfl⟩ := resolvedFrom_eq_some.mp hfound
    exact ⟨hmap.symm, hacquired⟩
  · rintro ⟨hfilter, hacquired⟩
    rw [hfilter] at hmap
    obtain ⟨known, hknown, hsame⟩ := List.map_eq_singleton_iff.mp hmap
    have hmem : known ∈ available.filterMap (resolvedFrom executable entry) := by
      rw [hknown]
      exact List.mem_singleton_self _
    obtain ⟨origin, _, hfound⟩ := List.mem_filterMap.mp hmem
    obtain ⟨hother, rfl⟩ := resolvedFrom_eq_some.mp hfound
    rw [hsame, hacquired] at hother
    rw [hknown]
    obtain ⟨acquired, acquisition⟩ := known
    obtain ⟨acquired', acquisition'⟩ := found
    cases hsame
    cases Except.ok.inj hother
    rfl

/-! ## The run over the entries -/

/-- What an entry is mapped to, and what that was resolved from. -/
def MatchedTo (executable : Executable) (entry : RegistryEntry) (found : ArtifactIdentity × ResolvedAcquisition) : Prop :=
  found.1 = entry.identity ∧ acquiredPackage executable entry found.2.acquisition = .ok found.2.acquired

theorem matchEntry_eq_ok {state next : Matched} :
    matchEntry executable state entry = .ok next ↔ ∃ found,
      state.available.filter (resolves executable entry) = [found.acquisition] ∧
        acquiredPackage executable entry found.acquisition = .ok found.acquired ∧
        next = ⟨state.available.erase found.acquisition, state.resolved ++ [(entry.identity, found)]⟩ := by
  unfold matchEntry
  constructor
  · intro h
    split at h
    · rename_i found hfound
      obtain ⟨hfilter, hacquired⟩ := (filterMap_resolvedFrom _).mp hfound
      exact ⟨found, hfilter, hacquired, (Except.ok.inj h).symm⟩
    · exact absurd h (by simp [commandError, error])
  · rintro ⟨found, hfilter, hacquired, rfl⟩
    rw [(filterMap_resolvedFrom _).mpr ⟨hfilter, hacquired⟩]

/-- By induction over the entries, what a run matches. -/
theorem matchEntries_ok {state next : Matched} (h : entries.foldlM (matchEntry executable) state = .ok next) :
    ∃ pairs, next.resolved = state.resolved ++ pairs ∧ List.Forall₂ (MatchedTo executable) entries pairs ∧
      assign (resolves executable) entries state.available = some (pairs.map fun found => found.2.acquisition) := by
  induction entries generalizing state with
  | nil =>
      obtain rfl : state = next := Except.ok.inj h
      exact ⟨[], (List.append_nil _).symm, List.Forall₂.nil, rfl⟩
  | cons entry rest ih =>
      rw [List.foldlM_cons] at h
      obtain ⟨mid, hmid, h⟩ := Result.of_bind_ok h
      obtain ⟨found, hfilter, hacquired, rfl⟩ := matchEntry_eq_ok.mp hmid
      obtain ⟨pairs, hresolved, hmatched, htaken⟩ := ih h
      refine ⟨(entry.identity, found) :: pairs, ?_, List.Forall₂.cons ⟨rfl, hacquired⟩ hmatched, ?_⟩
      · rw [hresolved, List.append_assoc, List.singleton_append]
      · rw [assign, hfilter]
        exact congrArg (Option.map (found.acquisition :: ·)) htaken

/-- By induction over the entries, a run goes through where the trial does. -/
theorem matchEntries_of_assign {state : Matched} {taken : List NativeReferenceAcquisition}
    (h : assign (resolves executable) entries state.available = some taken) :
    ∃ next, entries.foldlM (matchEntry executable) state = .ok next := by
  induction entries generalizing state taken with
  | nil => exact ⟨state, rfl⟩
  | cons entry rest ih =>
      rw [assign] at h
      split at h
      · rename_i acquisition hfilter
        obtain ⟨others, hothers, _⟩ := Option.map_eq_some_iff.mp h
        have hresolves : resolves executable entry acquisition = true := by
          have hmem : acquisition ∈ state.available.filter (resolves executable entry) := by
            rw [hfilter]
            exact List.mem_singleton_self _
          exact (List.mem_filter.mp hmem).2
        obtain ⟨acquired, hacquired⟩ := resolves_iff.mp hresolves
        have hstep := matchEntry_eq_ok.mpr ⟨⟨acquired, acquisition⟩, hfilter, hacquired, rfl⟩
        rw [List.foldlM_cons, hstep]
        exact ih hothers
      · exact absurd h (by simp)

/-! ## Every entry with an acquisition of its own -/

/-- Every entry is mapped to what it resolves to from one of the acquisitions. -/
def ResolvesEvery (executable : Executable) (entries : List RegistryEntry) (acquisitions : List NativeReferenceAcquisition) :
    Prop :=
  ∃ resolved, acquisitionsByIdentity executable entries acquisitions = .ok resolved ∧
    ∀ entry ∈ entries, ∃ found, lastKeyed? resolved entry.identity = some found ∧ found.acquisition ∈ acquisitions ∧
      acquiredPackage executable entry found.acquisition = .ok found.acquired

theorem matched_identities {pairs : List (ArtifactIdentity × ResolvedAcquisition)}
    (h : List.Forall₂ (MatchedTo executable) entries pairs) : pairs.map Prod.fst = entries.map (·.identity) := by
  induction h with
  | nil => rfl
  | cons hmatched _ ih => rw [List.map_cons, List.map_cons, ih, hmatched.1]

theorem acquisitionsByIdentity_eq_ok (hlength : entries.length = acquisitions.length)
    {resolved : List (ArtifactIdentity × ResolvedAcquisition)} :
    acquisitionsByIdentity executable entries acquisitions = .ok resolved ↔
      ∃ state, entries.foldlM (matchEntry executable) { available := acquisitions } = .ok state ∧
        state.resolved = resolved := by
  have hrefuse : refuse (entries.length != acquisitions.length) registryCommandInvalid
      "registry lock/build requires one acquisition per entry" = .ok () := refuse_eq_ok.mpr (by simp [hlength])
  unfold acquisitionsByIdentity
  rw [hrefuse]
  constructor
  · intro h
    obtain ⟨_, _, h⟩ := Result.of_bind_ok h
    obtain ⟨state, hstate, h⟩ := Result.of_bind_ok h
    exact ⟨state, hstate, Except.ok.inj h⟩
  · rintro ⟨state, hstate, rfl⟩
    simp only [bind, Except.bind, hstate]
    rfl

theorem unmistakable_of_ok (hown : List.Forall₂ (Resolves executable) entries chosen)
    (hperm : acquisitions.Perm chosen) {resolved : List (ArtifactIdentity × ResolvedAcquisition)}
    (h : acquisitionsByIdentity executable entries acquisitions = .ok resolved) :
    Unmistakable (resolves executable) entries chosen := by
  have hlength : entries.length = acquisitions.length := hown.length_eq.trans hperm.length_eq.symm
  obtain ⟨state, hstate, _⟩ := (acquisitionsByIdentity_eq_ok hlength).mp h
  obtain ⟨pairs, _, _, htaken⟩ := matchEntries_ok hstate
  exact ((assign_eq_some_iff (hown.imp fun _ _ h => resolves_iff.mpr h) hperm).mp htaken).2

theorem resolvesEvery_iff (hown : List.Forall₂ (Resolves executable) entries chosen)
    (hperm : acquisitions.Perm chosen) (hdistinct : (entries.map (·.identity)).Nodup) :
    ResolvesEvery executable entries acquisitions ↔ Unmistakable (resolves executable) entries chosen := by
  have hlength : entries.length = acquisitions.length := hown.length_eq.trans hperm.length_eq.symm
  constructor
  · rintro ⟨resolved, hresolved, _⟩
    exact unmistakable_of_ok hown hperm hresolved
  · intro hunmistakable
    have hassigned : assign (resolves executable) entries acquisitions = some chosen :=
      (assign_eq_some_iff (hown.imp fun _ _ h => resolves_iff.mpr h) hperm).mpr ⟨rfl, hunmistakable⟩
    obtain ⟨state, hstate⟩ : ∃ state, entries.foldlM (matchEntry executable) { available := acquisitions } = .ok state :=
      matchEntries_of_assign hassigned
    obtain ⟨pairs, hresolved, hmatched, htaken⟩ := matchEntries_ok hstate
    have hchosen : (pairs.map fun found => found.2.acquisition) = chosen := Option.some.inj (htaken.symm.trans hassigned)
    refine ⟨pairs, (acquisitionsByIdentity_eq_ok hlength).mpr ⟨state, hstate, hresolved⟩, fun entry hentry => ?_⟩
    have hflipped : List.Forall₂ (flip (MatchedTo executable)) pairs entries := List.Forall₂.flip hmatched
    obtain ⟨found, hfound, hname, hacquired⟩ := exists_of_forall₂_mem hflipped hentry
    have hkeys : (pairs.map Prod.fst).Nodup := by
      rw [matched_identities hmatched]
      exact hdistinct
    refine ⟨found.2, lastKeyed?_of_mem hkeys ?_, hperm.mem_iff.mpr ?_, hacquired⟩
    · rw [← hname]
      exact hfound
    · rw [← hchosen]
      exact List.mem_map_of_mem hfound

/-! ## Entries that resolve from each other's acquisitions -/

/-- A list of acquisitions that was not matched is neither locked nor built. -/
theorem not_compiled {snapshot : SourceSnapshot} {registry : RegistrySchema.RegistryManifest} {source : Native.SourceManifest}
    (hinputs : registryInputs snapshot = .ok (registry, source, entries))
    (h : ∀ resolved, acquisitionsByIdentity executable entries acquisitions ≠ .ok resolved) :
    (∀ plan, planRegistryLock executable snapshot acquisitions ≠ .ok plan) ∧
      ∀ plan, planRegistryBuild executable snapshot acquisitions ≠ .ok plan := by
  constructor
  · intro plan hplan
    unfold planRegistryLock at hplan
    rw [hinputs] at hplan
    obtain ⟨_, heq, hplan⟩ := Result.of_bind_ok hplan
    obtain rfl := Except.ok.inj heq
    obtain ⟨_, _, hplan⟩ := Result.of_bind_ok hplan
    obtain ⟨_, _, hplan⟩ := Result.of_bind_ok hplan
    obtain ⟨_, _, hplan⟩ := Result.of_bind_ok hplan
    obtain ⟨resolved, hresolved, _⟩ := Result.of_bind_ok hplan
    exact h resolved hresolved
  · intro plan hplan
    unfold planRegistryBuild at hplan
    rw [hinputs] at hplan
    obtain ⟨_, heq, hplan⟩ := Result.of_bind_ok hplan
    obtain rfl := Except.ok.inj heq
    obtain ⟨_, _, hplan⟩ := Result.of_bind_ok hplan
    dsimp only at hplan
    split at hplan
    · exact absurd hplan (by simp [commandError, error])
    · obtain ⟨_, _, hplan⟩ := Result.of_bind_ok hplan
      obtain ⟨_, _, hplan⟩ := Result.of_bind_ok hplan
      obtain ⟨_, _, hplan⟩ := Result.of_bind_ok hplan
      obtain ⟨resolved, hresolved, _⟩ := Result.of_bind_ok hplan
      exact h resolved hresolved

theorem unmistakable_iff : Unmistakable (resolves executable) entries chosen ↔
    (entries.zip chosen).Pairwise fun first second => ¬ Resolves executable first.1 second.2 := by
  unfold Unmistakable
  refine List.Pairwise.iff fun first second => ?_
  rw [← resolves_iff, Bool.not_eq_true]

theorem resolves_of_parts {loaded : NativeSource} {found : LoadedPackage} {object : Envelope}
    (horigin : (acquisition.url != entry.source.url || acquisition.requestedRef != entry.source.ref ||
      !isCommit acquisition.resolvedCommit) = false)
    (hloaded : loadNativeSource executable acquisition.snapshot (fun _ => none) = .ok loaded)
    (hfound : (loaded.artifacts.filter fun found => found.package.manifest.identity = entry.identity) = [found])
    (hpath : entry.source.path ∈ loaded.manifest.artifactRoots.map fun root => packagePath root entry.identity)
    (hobject : packageObject acquisition.snapshot entry.source.path = .ok object) :
    Resolves executable entry acquisition := by
  have hsame : refuse (acquisition.url != entry.source.url || acquisition.requestedRef != entry.source.ref ||
      !isCommit acquisition.resolvedCommit) registryMaintenanceInvalid
      "acquired Git origin/ref does not match the registry entry" = .ok () := refuse_eq_ok.mpr horigin
  refine ⟨⟨found.package, object, found.provenance.map fun provenance => jsonDigest (Native.provenanceToJson provenance),
    loaded.manifest.sourceId⟩, ?_⟩
  rw [acquiredPackage, hsame]
  simp only [bind, Except.bind, hloaded, hfound, hobject, hpath, not_true_eq_false, decide_false]
  rfl

/-- An acquisition that was made twice is not matched to the first of two entries. -/
theorem acquisitionsByIdentity_twice {other : RegistryEntry} (h : Resolves executable entry acquisition) :
    acquisitionsByIdentity executable [entry, other] [acquisition, acquisition] =
      commandError ("registry acquisition is missing or ambiguous for " ++ entry.identity.str) := by
  obtain ⟨acquired, hacquired⟩ := h
  have hfound : [acquisition, acquisition].filterMap (resolvedFrom executable entry) =
      [⟨acquired, acquisition⟩, ⟨acquired, acquisition⟩] := by
    simp [resolvedFrom, hacquired, Except.toOption]
  have hstep : matchEntry executable { available := [acquisition, acquisition] } entry =
      commandError ("registry acquisition is missing or ambiguous for " ++ entry.identity.str) := by
    rw [matchEntry, hfound]
  rw [acquisitionsByIdentity, List.foldlM_cons, hstep]
  rfl

omit [StandardLibrary] in
theorem acquireEntries_twice {other : RegistryEntry} (hentry : entry.review.status = "approved")
    (hother : other.review.status = "approved") :
    acquireEntries (fun _ _ => .ok acquisition) [entry, other] = .ok [acquisition, acquisition] := by
  simp [acquireEntries, hentry, hother, refuse, bind, Except.bind]
  rfl

end Matching

/-! ## Two skills of one repository -/

/-- A repository with two skills, either of which is approved by an entry of its own. -/
def skillsJson : Json :=
  .obj [("artifact_roots", .arr [.str "artifacts"]), ("display_name", .str "S"), ("protocol_version", .int 1),
    ("required_capabilities", .arr []), ("requires_aart", .obj []), ("schema_version", .int 1), ("source_id", .str "s")]

def skillJson (name : String) : Json :=
  .obj [("compatibility", .obj [("platforms", .arr [.str "linux"]), ("profiles", .arr [.str "claude"])]),
    ("install", .obj [("effects", .arr [.str "copy-tree"]), ("modes", .arr [.str "copy"]),
      ("scopes", .arr [.str "project"])]),
    ("name", .str name), ("payload", .obj [("format", .str "aart-skill-v1"), ("root", .str "payload")]),
    ("schema_version", .int 1), ("summary", .str "T"), ("type", .str "skill"), ("version", .str "1.0.0")]

def skillT : Slug := ⟨"t", Eq.refl true⟩

def skillU : Slug := ⟨"u", by decide⟩

def skillsMarker [StandardLibrary] : SnapshotEntry := ⟨⟨["aart-source.json"]⟩, .file, canonicalJsonBytes skillsJson, false⟩

def skillFiles [StandardLibrary] (name : String) : List SnapshotEntry :=
  [⟨⟨["artifacts", "skill", name, "artifact.json"]⟩, .file, canonicalJsonBytes (skillJson name), false⟩,
    ⟨⟨["artifacts", "skill", name, "payload", "SKILL.md"]⟩, .file, [84], false⟩]

def twoSkills [StandardLibrary] : SourceSnapshot :=
  .of .immutableGit (skillsMarker :: (skillFiles "t" ++ skillFiles "u"))

def skillsSource : SourceManifest where
  schemaVersion := 1
  protocolVersion := 1
  sourceId := ⟨"s", by decide⟩
  displayName := "S"
  requiresAart := {}
  requiredCapabilities := []
  artifactRoots := [⟨["artifacts"]⟩]

def skillManifest (name : Slug) : Native.ArtifactManifest where
  schemaVersion := 1
  identity := ⟨.skill, name⟩
  version := ⟨1, 0, 0, [], []⟩
  summary := "T"
  payload := ⟨⟨["payload"]⟩, "aart-skill-v1"⟩
  compatibility := ⟨["claude"], ["linux"]⟩
  install := ⟨[.project], [.copy], [.copyTree]⟩

def noDigest : ObjectDigest := ⟨String.ofList (List.replicate 64 '0')⟩

def skillPackage (name : Slug) : LoadedPackage where
  package :=
    { manifest := Registry.declared (skillManifest name), provenance := none, manifestDigest := noDigest,
      payloadDigest := noDigest }
  provenance := none

def skillEntry (name : Slug) : RegistryEntry where
  schemaVersion := 1
  identity := ⟨.skill, name⟩
  source := ⟨"git", "https://h/s.git", "main", ⟨["artifacts", "skill", name.value]⟩⟩
  review := ⟨"approved", "p"⟩

def plainExecutable : Executable := ⟨⟨1, 0, 0, [], []⟩, [], fun _ _ => .ok ⟨[], none⟩⟩

section Sample

attribute [local instance] storeLibrary

local instance skillsRuntime : JsonRuntime := pythonLibrary_jsonRuntime (fun _ => List.replicate 32 0) fun _ => true

variable {name : Slug}

theorem documentable_skillJson (hname : name = skillT ∨ name = skillU) : Documentable 0 (skillJson name.value) := by
  refine ⟨?_, ?_, ?_, ?_⟩
  · simp only [skillJson, Frozen, FrozenEntries, FrozenItems]
    obtain rfl | rfl := hname <;> decide
  · simp only [skillJson, JsonText.Legible, JsonText.LegibleEntries, JsonText.LegibleItems, JsonText.InRange]
    obtain rfl | rfl := hname <;> decide
  · simp only [skillJson, TextsWithin, TextsWithinEntries, TextsWithinItems]
    obtain rfl | rfl := hname <;> decide
  · simp only [skillJson, height, heightEntries, heightItems]
    decide

theorem skillManifest_read (hname : name = skillT ∨ name = skillU) :
    Native.parseArtifactManifest (canonicalJsonBytes (skillJson name.value)) = .ok (skillManifest name) := by
  rw [Native.parseArtifactManifest, parseJson_canonicalJsonBytes_iff.mpr (documentable_skillJson hname)]
  obtain rfl | rfl := hname <;> rfl

theorem documentable_skillsJson : Documentable 0 skillsJson := by
  refine ⟨?_, ?_, ?_, ?_⟩
  · simp only [skillsJson, Frozen, FrozenEntries, FrozenItems]
    decide
  · simp only [skillsJson, JsonText.Legible, JsonText.LegibleEntries, JsonText.LegibleItems, JsonText.InRange]
    decide
  · simp only [skillsJson, TextsWithin, TextsWithinEntries, TextsWithinItems]
    decide
  · simp only [skillsJson, height, heightEntries, heightItems]
    decide

theorem skillsSource_read : parseSourceManifest (canonicalJsonBytes skillsJson) = .ok skillsSource := by
  rw [parseSourceManifest, parseJson_canonicalJsonBytes_iff.mpr documentable_skillsJson]
  rfl

theorem twoSkills_sorted : twoSkills.entries = skillsMarker :: (skillFiles "t" ++ skillFiles "u") := by rfl

/-! ### Loading them -/

theorem foldlM_two {α β : Type} {step : β → α → Result β} {state mid next : β} {first second : α}
    (hfirst : step state first = .ok mid) (hsecond : step mid second = .ok next) :
    [first, second].foldlM step state = .ok next := by
  simp only [List.foldlM_cons, hfirst, hsecond, bind, Except.bind]
  rfl

def skillMembers (name : String) : PackageEntries :=
  [("artifact.json", ⟨⟨["artifacts", "skill", name, "artifact.json"]⟩, .file, canonicalJsonBytes (skillJson name), false⟩),
    ("payload/SKILL.md", ⟨⟨["artifacts", "skill", name, "payload", "SKILL.md"]⟩, .file, [84], false⟩)]

theorem skillPackage_compiled (hname : name = skillT ∨ name = skillU) :
    compilePackageEntries plainExecutable.readSetup (skillMembers name.value) (some ⟨.skill, name⟩) =
      .ok (skillPackage name).package := by
  have hmanifest : packageManifest (skillMembers name.value) = .ok (skillManifest name) := skillManifest_read hname
  have hroots : packageRoots (skillMembers name.value) = .ok () := by
    obtain rfl | rfl := hname <;> rfl
  have hprimary : validatePrimaryPayload .skill (skillMembers name.value) = .ok () := by
    obtain rfl | rfl := hname <;> rfl
  have hsetup : packageSetup plainExecutable.readSetup (skillManifest name) (skillMembers name.value) = .ok none := by
    obtain rfl | rfl := hname <;> rfl
  have hprovenance : packageProvenance (skillMembers name.value) = .ok none := by
    obtain rfl | rfl := hname <;> rfl
  have hpayload : payloadDigest (skillMembers name.value) = .ok noDigest := by
    obtain rfl | rfl := hname <;> rfl
  have hdigest : jsonDigest (Native.artifactManifestToJson (skillManifest name)) = noDigest := by
    obtain rfl | rfl := hname <;> rfl
  have hcompiled := compilePackageEntries_of_parts hmanifest
    (fun identity (h : some ⟨.skill, name⟩ = some identity) => Option.some.inj h) hroots hprimary hsetup hprovenance hpayload
  rw [hdigest] at hcompiled
  exact hcompiled

theorem skill_loaded (hname : name = skillT ∨ name = skillU) :
    loadPackage plainExecutable twoSkills.entries ⟨⟨["artifacts"]⟩, .skill, name.value⟩ = .ok (skillPackage name) := by
  have hmembers : relativePackageEntries twoSkills.entries ("artifacts/skill/" ++ name.value) = skillMembers name.value := by
    rw [twoSkills_sorted]
    obtain rfl | rfl := hname <;> rfl
  have hslug : Manifest.slugOf name.value = some name := by
    obtain rfl | rfl := hname <;> rfl
  have hprovenance : packageProvenance (skillMembers name.value) = .ok none := by
    obtain rfl | rfl := hname <;> rfl
  exact loadPackage_of_parts hmembers hslug (skillPackage_compiled hname) hprovenance

theorem twoSkills_loaded : loadNativeSource plainExecutable twoSkills (fun _ => none) =
    .ok ⟨skillsSource, [skillPackage skillT, skillPackage skillU], []⟩ := by
  have hentries : validatedEntries twoSkills = .ok twoSkills.entries := by rfl
  have hmarker : (entryAt twoSkills.entries "aart-source.json").filter SnapshotEntry.isFile = some skillsMarker := by
    rw [twoSkills_sorted]
    rfl
  have hkinds : validateProtocolEntryKinds twoSkills.entries skillsSource = .ok () := by
    rw [twoSkills_sorted]
    rfl
  have hcompatible : compatibilityDiagnostics plainExecutable skillsSource = [] := by rfl
  have hcandidates : packageCandidates twoSkills.entries skillsSource =
      .ok [⟨⟨["artifacts"]⟩, .skill, "t"⟩, ⟨⟨["artifacts"]⟩, .skill, "u"⟩] := by
    rw [twoSkills_sorted]
    rfl
  have hskillT := skill_loaded (.inl rfl : skillT = skillT ∨ skillT = skillU)
  have hskillU := skill_loaded (.inr rfl : skillU = skillT ∨ skillU = skillU)
  have hfirst : loadNext plainExecutable twoSkills.entries [] ⟨⟨["artifacts"]⟩, .skill, "t"⟩ = .ok [skillPackage skillT] :=
    loadNext_of_loaded hskillT (by simp)
  have hother : (skillPackage skillU).package.manifest.identity ∉
      [skillPackage skillT].map (·.package.manifest.identity) := by decide
  have hsecond : loadNext plainExecutable twoSkills.entries [skillPackage skillT] ⟨⟨["artifacts"]⟩, .skill, "u"⟩ =
      .ok [skillPackage skillT, skillPackage skillU] := loadNext_of_loaded hskillU hother
  have hpackages : List.foldlM (loadNext plainExecutable twoSkills.entries) []
      [⟨⟨["artifacts"]⟩, .skill, "t"⟩, ⟨⟨["artifacts"]⟩, .skill, "u"⟩] = .ok [skillPackage skillT, skillPackage skillU] :=
    foldlM_two hfirst hsecond
  have hdependencies : validateDeclaredDependencies ([skillPackage skillT, skillPackage skillU].map LoadedPackage.package)
      (fun _ => none) = .ok () := by
    refine (validateDependencies_ok_iff _ (by decide)).mpr (resolvable_of_requires_nothing ?_)
    decide
  have hcollections : loadCollections twoSkills.entries skillsSource = .ok [] := by rfl
  exact loadNativeSource_of_parts hentries hmarker skillsSource_read hkinds hcompatible hcandidates hpackages hdependencies
    hcollections

/-! ### Storing them -/

/-- The files of a package, and what is stored of them. -/
def storedFiles (content : Bytes) : List SnapshotEntry :=
  [⟨⟨["artifact.json"]⟩, .file, content, false⟩, ⟨⟨["payload", "SKILL.md"]⟩, .file, [84], false⟩]

def storedEntries (content : Bytes) : List SnapshotEntry :=
  [⟨⟨["artifact.json"]⟩, .file, content, false⟩, ⟨⟨["payload"]⟩, .directory, [], false⟩,
    ⟨⟨["payload", "SKILL.md"]⟩, .file, [84], false⟩]

theorem length_storedEntries (content : Bytes) :
    (envelopeBytes (storedEntries content)).length ≤ 4 * (16 * content.length + 400) := by
  have hencoded : Base64.encode [84] = ['V', 'A', '=', '='] := by rfl
  have hobject : Manifest.jsonObject (envelopeTable (storedEntries content)) =
      .obj [("entries", .arr [
          .obj [("content_base64", .str (String.ofList (Base64.encode content))), ("executable", .bool false),
            ("kind", .str "file"), ("path", .str "artifact.json")],
          .obj [("executable", .bool false), ("kind", .str "directory"), ("path", .str "payload")],
          .obj [("content_base64", .str "VA=="), ("executable", .bool false), ("kind", .str "file"),
            ("path", .str "payload/SKILL.md")]]), ("schema_version", .int 1)] := by
    simp [storedEntries, envelopeTable, snapshotEntryTable, Manifest.jsonObject, Manifest.present, sortEntries, hencoded,
      SnapshotEntryKind.value, SafeRelativePath.str, slashJoin]
  have hone : JsonText.printInt 1 = ['1'] := by decide
  have hprinted := JsonText.length_printText_le (String.ofList (Base64.encode content))
  have hlength := Base64.length_encode_le content
  rw [String.length_ofList] at hprinted
  have htext : (JsonText.print JsonText.compact 0 (Manifest.jsonObject (envelopeTable (storedEntries content)))).length ≤
      (JsonText.printText (String.ofList (Base64.encode content))).length + 300 := by
    rw [hobject]
    simp only [JsonText.print, JsonText.printItems, JsonText.printEntries, JsonText.compact, hone, List.length_append,
      List.length_cons, List.length_nil]
    simp [JsonText.printText, JsonText.escapeChar]
    omega
  rw [envelopeBytes, canonicalJsonBytes_eq (frozen_envelopeTable _)]
  refine (length_encodeUtf8_le _).trans ?_
  rw [List.length_append, List.length_singleton]
  omega

theorem storedFiles_wellFormed {content : Bytes} (h : content.length ≤ 2000) : WellFormed (storedFiles content) := by
  have hmanifest : Canonical ⟨["artifact.json"]⟩ := by rfl
  have hskill : Canonical ⟨["payload", "SKILL.md"]⟩ := by rfl
  have himplied : impliedDirectories (storedFiles content) = [⟨["payload"]⟩] := by rfl
  refine ⟨⟨?_, ?_, ?_, ?_, ?_, ?_⟩, ?_⟩
  · simp [storedFiles, hmanifest, hskill]
  · simp [storedFiles]
  · simp [storedFiles, maxEntryDepth]
  · simp [storedFiles, SnapshotEntry.plain, AgentArtifacts.maxFileBytes]
    omega
  · simp [storedFiles, fileCount, SnapshotEntry.isFile, maxFiles]
  · simp [storedFiles, totalBytes, SnapshotEntry.isFile, AgentArtifacts.maxTotalBytes]
    omega
  · rw [himplied]
    simp [storedFiles]

theorem storedFiles_stored {content : Bytes} (h : content.length ≤ 2000)
    (hclosure : closure (storedFiles content) = storedEntries content) :
    ∃ object, makeObjectCandidate (storedFiles content) none = .ok object := by
  have hformed := storedFiles_wellFormed h
  have hne : storedFiles content ≠ [] := List.cons_ne_nil _ _
  have hnormalized : normalizedEntries (storedFiles content) = .ok (storedEntries content) :=
    (normalizedEntries_eq_ok storeLibrary_nfcPrefixes).mpr ⟨hne, by simp [storedFiles, AgentArtifacts.maxEntries], hformed, hclosure.symm⟩
  have hagain : normalizedEntries (storedEntries content) = .ok (storedEntries content) := by
    rw [← hclosure]
    refine (normalizedEntries_closure_iff storeLibrary_nfcPrefixes hne hformed).mpr ?_
    rw [← length_closure hformed.distinct, hclosure]
    simp [storedEntries, AgentArtifacts.maxEntries]
  have hlength : (envelopeBytes (storedEntries content)).length ≤ maxEnvelopeBytes := by
    refine (length_storedEntries content).trans ?_
    rw [maxEnvelopeBytes]
    omega
  have hvalid : (⟨sha256Bytes (envelopeBytes (storedEntries content)), storedEntries content,
      envelopeBytes (storedEntries content)⟩ : EnvelopeData).valid = true :=
    valid_iff.mpr ⟨validDigest_sha256Bytes storeLibrary_sha256Length _, hlength, rfl, hagain, rfl⟩
  refine ⟨⟨_, hvalid⟩, ?_⟩
  simp only [bind, Except.bind, makeObjectCandidate, hnormalized, if_neg (Nat.not_lt.mpr hlength), refusedDigest,
    constructCandidate, dif_pos hvalid]
  rfl

theorem length_skillJson (hname : name = skillT ∨ name = skillU) :
    (canonicalJsonBytes (skillJson name.value)).length ≤ 2000 := by
  have hfrozen := (documentable_skillJson hname).1
  have hprinted : (JsonText.print JsonText.compact 0 (skillJson name.value)).length ≤ 400 := by
    obtain rfl | rfl := hname <;> decide +kernel
  rw [canonicalJsonBytes_eq hfrozen]
  refine (length_encodeUtf8_le _).trans ?_
  rw [List.length_append, List.length_singleton]
  omega

theorem skill_stored (hname : name = skillT ∨ name = skillU) :
    ∃ object, packageObject twoSkills ⟨["artifacts", "skill", name.value]⟩ = .ok object := by
  have habove : (⟨["artifacts", "skill", name.value]⟩ : SafeRelativePath).str ++ "/" =
      "artifacts/skill/" ++ name.value ++ "/" := by
    obtain rfl | rfl := hname <;> rfl
  have hfiles : (twoSkills.entries.filter fun item => startsWith ("artifacts/skill/" ++ name.value ++ "/") item.path.str) =
      skillFiles name.value := by
    rw [twoSkills_sorted]
    obtain rfl | rfl := hname <;> rfl
  have hmanifest : parseRelativePath (removePrefix ("artifacts/skill/" ++ name.value ++ "/")
      (⟨["artifacts", "skill", name.value, "artifact.json"]⟩ : SafeRelativePath).str) = .ok ⟨["artifact.json"]⟩ := by
    obtain rfl | rfl := hname <;> rfl
  have hskill : parseRelativePath (removePrefix ("artifacts/skill/" ++ name.value ++ "/")
      (⟨["artifacts", "skill", name.value, "payload", "SKILL.md"]⟩ : SafeRelativePath).str) =
        .ok ⟨["payload", "SKILL.md"]⟩ := by
    obtain rfl | rfl := hname <;> rfl
  have hmembers : (skillFiles name.value).mapM (packageMember ("artifacts/skill/" ++ name.value ++ "/")) =
      .ok (storedFiles (canonicalJsonBytes (skillJson name.value))) := by
    simp only [skillFiles, List.mapM_cons, packageMember, hmanifest, hskill]
    rfl
  have hclosure : closure (storedFiles (canonicalJsonBytes (skillJson name.value))) =
      storedEntries (canonicalJsonBytes (skillJson name.value)) := by
    obtain rfl | rfl := hname <;> rfl
  obtain ⟨object, hobject⟩ := storedFiles_stored (length_skillJson hname) hclosure
  refine ⟨object, ?_⟩
  rw [packageObject, habove, hfiles, hmembers]
  exact hobject

/-! ### Acquiring them -/

def skillsRepository : NativeReferenceAcquisition where
  url := "https://h/s.git"
  requestedRef := "main"
  resolvedCommit := String.ofList (List.replicate 40 '0')
  snapshot := twoSkills
  urlLine := by decide
  refLine := by decide
  commit := by decide
  pinned := by rfl

theorem skill_resolves (hname : name = skillT ∨ name = skillU) :
    Resolves plainExecutable (skillEntry name) skillsRepository := by
  obtain ⟨object, hobject⟩ := skill_stored hname
  have horigin : (skillsRepository.url != (skillEntry name).source.url ||
      skillsRepository.requestedRef != (skillEntry name).source.ref || !isCommit skillsRepository.resolvedCommit) = false := by
    rfl
  have hfound : ([skillPackage skillT, skillPackage skillU].filter fun found =>
      found.package.manifest.identity = (skillEntry name).identity) = [skillPackage name] := by
    obtain rfl | rfl := hname <;> rfl
  have hpath : (skillEntry name).source.path ∈
      skillsSource.artifactRoots.map fun root => packagePath root (skillEntry name).identity := List.mem_singleton.mpr rfl
  have hsnapshot : skillsRepository.snapshot = twoSkills := rfl
  have hloaded : loadNativeSource plainExecutable skillsRepository.snapshot (fun _ => none) =
      .ok ⟨skillsSource, [skillPackage skillT, skillPackage skillU], []⟩ := by
    rw [hsnapshot]
    exact twoSkills_loaded
  have hstored : packageObject skillsRepository.snapshot (skillEntry name).source.path = .ok object := by
    rw [hsnapshot]
    exact hobject
  exact resolves_of_parts horigin hloaded hfound hpath hstored

end Sample

end AgentArtifacts.RegistryCommands
