import AgentArtifacts.Registry.Dependencies
import Mathlib.Data.Finset.Union

/-!
# Collections of a registry

A collection names artifacts and further collections. The compiler of a registry
and the compiler of the marketplace expand collections separately, over names and
over coordinates, into a set and into a sorted list; they are one search with the
keys, the artifacts and the members of each. The search succeeds exactly when every
selector resolves, every nested name is there and no collection contains itself.
-/

namespace AgentArtifacts.Registry

/-! ## The search -/

/-- What one of the two expanders works on. -/
structure CollectionSpec (κ A M β : Type) where
  manifests : List (κ × CollectionManifest)
  /-- The key of a collection nested in another one. -/
  nested : κ → Slug → κ
  artifact? : κ → ArtifactIdentity → Option A
  version : A → SemVer
  member : κ → ArtifactIdentity → A → M
  combine : List M → List β → β
  code : DiagnosticCode
  label : κ → String
  dangling : κ → String

variable {κ A M β : Type}

def CollectionSpec.select (spec : CollectionSpec κ A M β) (key : κ) (selector : ArtifactSelector) : Result M :=
  match spec.artifact? key selector.identity with
  | none =>
      error spec.code ("collection " ++ spec.label key ++ " references missing " ++ selector.identity.str)
  | some artifact =>
      if selector.allows (spec.version artifact) then .ok (spec.member key selector.identity artifact)
      else error spec.code ("collection " ++ spec.label key ++ " excludes available version of " ++
        selector.identity.str)

variable [DecidableEq κ]

def CollectionSpec.expand (spec : CollectionSpec κ A M β) (key : κ) : Result (List M × List κ) :=
  match lastKeyed? spec.manifests key with
  | none => error spec.code (spec.dangling key)
  | some manifest => do
      let own ← manifest.artifacts.mapM (spec.select key)
      return (own, manifest.collections.map (spec.nested key))

theorem CollectionSpec.expand_ok {spec : CollectionSpec κ A M β} {key : κ} {own : List M} {next : List κ}
    (h : spec.expand key = .ok (own, next)) :
    ∃ manifest, (key, manifest) ∈ spec.manifests ∧ manifest.artifacts.mapM (spec.select key) = .ok own ∧
      next = manifest.collections.map (spec.nested key) := by
  unfold CollectionSpec.expand at h
  split at h
  · exact absurd h (by simp [error])
  · rename_i manifest hfound
    obtain ⟨members, hmembers, h⟩ := Result.of_bind_ok h
    obtain ⟨rfl, rfl⟩ := Prod.mk.inj (Except.ok.inj h)
    exact ⟨manifest, mem_of_lastKeyed? hfound, hmembers, rfl⟩

def collectionVisitor (spec : CollectionSpec κ A M β) : Search.Visitor κ (List M) β (List Diagnostic) where
  nodes := spec.manifests.map Prod.fst
  expand := spec.expand
  expand_mem h := by
    obtain ⟨manifest, hmem, _⟩ := CollectionSpec.expand_ok h
    exact List.mem_map.mpr ⟨_, hmem, rfl⟩
  combine := spec.combine
  cycle trail key :=
    [⟨spec.code, "collection cycle: " ++ String.intercalate " -> " ((trail ++ [key]).map spec.label)⟩]
  trailFirst := false

/-! ## When it succeeds -/

/-- One collection nests another. -/
def CollectionSpec.Nests (spec : CollectionSpec κ A M β) (a b : κ) : Prop :=
  ∃ manifest, (a, manifest) ∈ spec.manifests ∧ ∃ name ∈ manifest.collections, spec.nested a name = b

/-- Every selector resolves, every nested collection is there, and none contains itself. -/
structure CollectionSpec.Closed (spec : CollectionSpec κ A M β) : Prop where
  selectors : ∀ key manifest, (key, manifest) ∈ spec.manifests → ∀ selector ∈ manifest.artifacts,
    ∃ artifact, spec.artifact? key selector.identity = some artifact ∧
      selector.allows (spec.version artifact) = true
  nested : ∀ key manifest, (key, manifest) ∈ spec.manifests → ∀ name ∈ manifest.collections,
    spec.nested key name ∈ spec.manifests.map Prod.fst
  acyclic : ∀ key, ¬ Relation.TransGen spec.Nests key key

variable {spec : CollectionSpec κ A M β}

omit [DecidableEq κ] in
theorem CollectionSpec.select_ok_iff {key : κ} {selector : ArtifactSelector} {member : M} :
    spec.select key selector = .ok member ↔
      ∃ artifact, spec.artifact? key selector.identity = some artifact ∧
        selector.allows (spec.version artifact) = true ∧
        spec.member key selector.identity artifact = member := by
  unfold CollectionSpec.select
  cases spec.artifact? key selector.identity with
  | none => simp [error]
  | some artifact =>
      simp only [Option.some.injEq, exists_eq_left']
      by_cases hallows : selector.allows (spec.version artifact) = true
      · simp [hallows]
      · simp [hallows, error]

theorem CollectionSpec.expand_of_mem (hkeys : (spec.manifests.map Prod.fst).Nodup) {key : κ}
    {manifest : CollectionManifest} (h : (key, manifest) ∈ spec.manifests) :
    spec.expand key = (manifest.artifacts.mapM (spec.select key)).bind fun own =>
      .ok (own, manifest.collections.map (spec.nested key)) := by
  unfold CollectionSpec.expand
  rw [lastKeyed?_of_mem hkeys h]
  rfl

theorem CollectionSpec.edge_nests {a b : κ} (h : (collectionVisitor spec).Edge a b) : spec.Nests a b := by
  obtain ⟨own, next, hexpand, hb⟩ := h
  obtain ⟨manifest, hmem, _, rfl⟩ := CollectionSpec.expand_ok hexpand
  obtain ⟨name, hname, heq⟩ := List.mem_map.mp hb
  exact ⟨manifest, hmem, name, hname, heq⟩

theorem CollectionSpec.nests_edge (hkeys : (spec.manifests.map Prod.fst).Nodup)
    (hexpands : ∀ key ∈ spec.manifests.map Prod.fst, ∃ own next, spec.expand key = .ok (own, next)) {a b : κ}
    (h : spec.Nests a b) : (collectionVisitor spec).Edge a b := by
  obtain ⟨manifest, hmem, name, hname, rfl⟩ := h
  obtain ⟨own, next, hexpand⟩ := hexpands a (List.mem_map.mpr ⟨_, hmem, rfl⟩)
  refine ⟨own, next, hexpand, ?_⟩
  obtain ⟨found, hfound, _, rfl⟩ := CollectionSpec.expand_ok hexpand
  have hsame := List.inj_on_of_nodup_map hkeys hfound hmem rfl
  rw [(Prod.mk.inj hsame).2]
  exact List.mem_map.mpr ⟨name, hname, rfl⟩

/-- The expansion of all collections succeeds exactly when they are closed. -/
theorem visitAll_collections_ok_iff (hkeys : (spec.manifests.map Prod.fst).Nodup) {roots : List κ}
    (hroots : ∀ key, key ∈ roots ↔ key ∈ spec.manifests.map Prod.fst) :
    (∃ result, (collectionVisitor spec).visitAll [] [] roots = .ok result) ↔ spec.Closed := by
  rw [(collectionVisitor spec).visitAll_ok_iff]
  constructor
  · intro hsound
    have hexpands (key : κ) (hkey : key ∈ spec.manifests.map Prod.fst) :
        ∃ own next, spec.expand key = .ok (own, next) :=
      (hsound key ((hroots key).mpr hkey) key .refl).1
    have hedge {a b : κ} (h : spec.Nests a b) : (collectionVisitor spec).Edge a b :=
      CollectionSpec.nests_edge hkeys hexpands h
    refine ⟨?_, ?_, ?_⟩
    · intro key manifest hmem selector hselector
      obtain ⟨own, next, hexpand⟩ := hexpands key (List.mem_map.mpr ⟨_, hmem, rfl⟩)
      obtain ⟨found, hfound, hown, _⟩ := CollectionSpec.expand_ok hexpand
      obtain rfl := (Prod.mk.inj (List.inj_on_of_nodup_map hkeys hfound hmem rfl)).2
      obtain ⟨member, _, hselect⟩ := Result.ok_of_mapM_ok hown hselector
      obtain ⟨artifact, hartifact, hallows, _⟩ := CollectionSpec.select_ok_iff.mp hselect
      exact ⟨artifact, hartifact, hallows⟩
    · intro key manifest hmem name hname
      have hkey : key ∈ roots := (hroots key).mpr (List.mem_map.mpr ⟨_, hmem, rfl⟩)
      obtain ⟨⟨own, next, hexpand⟩, _⟩ :=
        hsound key hkey _ (.single (hedge ⟨manifest, hmem, name, hname, rfl⟩))
      obtain ⟨found, hfound, _⟩ := CollectionSpec.expand_ok hexpand
      exact List.mem_map.mpr ⟨_, hfound, rfl⟩
    · intro key hcycle
      obtain ⟨_, ⟨manifest, hmem, _⟩, _⟩ := Relation.TransGen.head'_iff.mp hcycle
      refine (hsound key ((hroots key).mpr (List.mem_map.mpr ⟨_, hmem, rfl⟩)) key .refl).2 ?_
      exact Relation.TransGen.mono (fun _ _ hstep => hedge hstep) _ _ hcycle
  · intro hclosed root hroot node hpath
    have hnode : node ∈ spec.manifests.map Prod.fst := by
      induction hpath with
      | refl => exact (hroots root).mp hroot
      | tail _ hstep _ =>
          obtain ⟨manifest, hmem, name, hname, rfl⟩ := CollectionSpec.edge_nests hstep
          exact hclosed.nested _ manifest hmem name hname
    refine ⟨?_, fun hcycle => hclosed.acyclic node
      (Relation.TransGen.mono (fun _ _ hstep => CollectionSpec.edge_nests hstep) _ _ hcycle)⟩
    obtain ⟨⟨key, manifest⟩, hmem, rfl⟩ := List.mem_map.mp hnode
    have hselect (selector : ArtifactSelector) (hselector : selector ∈ manifest.artifacts) :
        ∃ member, spec.select key selector = .ok member := by
      obtain ⟨artifact, hartifact, hallows⟩ := hclosed.selectors key manifest hmem selector hselector
      exact ⟨_, CollectionSpec.select_ok_iff.mpr ⟨artifact, hartifact, hallows, rfl⟩⟩
    obtain ⟨own, hown⟩ := Result.exists_mapM_ok hselect
    exact ⟨own, _, by
      show spec.expand key = _
      rw [CollectionSpec.expand_of_mem hkeys hmem, hown]
      rfl⟩

/-! ## What a collection contains -/

/-- An artifact is selected by a collection or by one nested in it. -/
def CollectionSpec.Contains (spec : CollectionSpec κ A M β) (key : κ) (identity : ArtifactIdentity) : Prop :=
  ∃ inner, Relation.ReflTransGen spec.Nests key inner ∧ ∃ manifest, (inner, manifest) ∈ spec.manifests ∧
    ∃ selector ∈ manifest.artifacts, selector.identity = identity

omit [DecidableEq κ] in
/-- Own selectors come first, then those of the nested collections. -/
theorem CollectionSpec.contains_iff (hkeys : (spec.manifests.map Prod.fst).Nodup) {key : κ}
    {manifest : CollectionManifest} (hmem : (key, manifest) ∈ spec.manifests) (identity : ArtifactIdentity) :
    spec.Contains key identity ↔ (∃ selector ∈ manifest.artifacts, selector.identity = identity) ∨
      ∃ name ∈ manifest.collections, spec.Contains (spec.nested key name) identity := by
  have hsame {other : CollectionManifest} (hother : (key, other) ∈ spec.manifests) : other = manifest :=
    (Prod.mk.inj (List.inj_on_of_nodup_map hkeys hother hmem rfl)).2
  constructor
  · rintro ⟨inner, hpath, other, hother, hselector⟩
    rcases Relation.ReflTransGen.cases_head hpath with rfl | ⟨next, ⟨found, hfound, name, hname, rfl⟩, hrest⟩
    · obtain rfl := hsame hother
      exact Or.inl hselector
    · obtain rfl := hsame hfound
      exact Or.inr ⟨name, hname, inner, hrest, other, hother, hselector⟩
  · rintro (hselector | ⟨name, hname, inner, hpath, other, hother, hselector⟩)
    · exact ⟨key, .refl, manifest, hmem, hselector⟩
    · exact ⟨inner, .head ⟨manifest, hmem, name, hname, rfl⟩ hpath, other, hother, hselector⟩

/-! ## The registry graph -/

def registryIndexInvalid : DiagnosticCode := ⟨"registry-index-invalid"⟩

/-- The first item whose key was met before. -/
def firstDuplicate? {α κ : Type} [DecidableEq κ] (key : α → κ) : List κ → List α → Option α
  | _, [] => none
  | seen, item :: rest => if key item ∈ seen then some item else firstDuplicate? key (key item :: seen) rest

theorem firstDuplicate?_eq_none {α κ : Type} [DecidableEq κ] {key : α → κ} {seen : List κ} {items : List α}
    (hnew : ∀ item ∈ items, key item ∉ seen) (hkeys : (items.map key).Nodup) :
    firstDuplicate? key seen items = none := by
  induction items generalizing seen with
  | nil => rfl
  | cons item rest ih =>
      obtain ⟨hfresh, hrest⟩ := List.nodup_cons.mp hkeys
      rw [firstDuplicate?, if_neg (hnew item List.mem_cons_self)]
      refine ih (fun other hother hmem => ?_) hrest
      rcases List.mem_cons.mp hmem with heq | hmem
      · exact hfresh (List.mem_map.mpr ⟨other, hother, heq⟩)
      · exact hnew other (List.mem_cons_of_mem _ hother) hmem

/-- Members of a registry collection are a set of identities. -/
def registryCollections (artifacts : List IndexArtifact) (collections : List CollectionManifest) :
    CollectionSpec Slug IndexArtifact ArtifactIdentity (Finset ArtifactIdentity) where
  manifests := collections.map fun collection => (collection.name, collection)
  nested _ name := name
  artifact? _ identity := lastKeyed? (artifacts.map fun artifact => (artifact.identity, artifact)) identity
  version := (·.version)
  member _ identity _ := identity
  combine own values := values.foldl (· ∪ ·) own.toFinset
  code := registryGraphInvalid
  label name := name.value
  dangling name := "dangling collection reference: " ++ name.value

/-- The names of the expanded collections that an artifact is a member of. -/
def memberships (expanded : List (Slug × Finset ArtifactIdentity)) (identity : ArtifactIdentity) : List String :=
  sortedSet ((expanded.filter fun entry => identity ∈ entry.2).map fun entry => entry.1.value)

/-- The artifacts of an index with their memberships, in the order of the index. -/
def deriveMemberships (artifacts : List IndexArtifact) (expanded : List (Slug × Finset ArtifactIdentity)) :
    List IndexArtifact :=
  sortedBy (fun artifact => [artifact.sourceId.value, artifact.identity.str])
    (artifacts.map fun artifact => { artifact with collections := memberships expanded artifact.identity })

def validateRegistryGraph (artifacts : List IndexArtifact) (collections : List CollectionManifest) :
    Result (List IndexArtifact) :=
  match firstDuplicate? (·.identity) [] artifacts with
  | some artifact =>
      error registryIndexInvalid ("duplicate or ambiguous index identity: " ++ artifact.sourceId.value ++ "/" ++
        artifact.identity.str)
  | none => do
      validateArtifactDependencies artifacts
      match firstDuplicate? (·.name) [] collections with
      | some collection => error registryGraphInvalid ("duplicate collection identity: " ++ collection.name.value)
      | none =>
          let names := sortedBy (·.value) (collections.map (·.name))
          let (members, _) ← (collectionVisitor (registryCollections artifacts collections)).visitAll [] [] names
          return deriveMemberships artifacts (names.zip members)

section RegistryGraph

variable {artifacts : List IndexArtifact} {collections : List CollectionManifest}

theorem mem_foldl_union {sets : List (Finset ArtifactIdentity)} {start : Finset ArtifactIdentity}
    {identity : ArtifactIdentity} :
    identity ∈ sets.foldl (· ∪ ·) start ↔ identity ∈ start ∨ ∃ set ∈ sets, identity ∈ set := by
  induction sets generalizing start with
  | nil => simp
  | cons set rest ih =>
      rw [List.foldl_cons, ih, Finset.mem_union]
      simp [or_assoc]

theorem nodup_registry_keys (hnames : (collections.map (·.name)).Nodup) :
    ((registryCollections artifacts collections).manifests.map Prod.fst).Nodup := by
  simpa [registryCollections, Function.comp_def] using hnames

/-- The own members of a collection are the identities it selects. -/
theorem registry_own_members {name : Slug} {manifest : CollectionManifest} {own : List ArtifactIdentity}
    (h : manifest.artifacts.mapM ((registryCollections artifacts collections).select name) = .ok own)
    (identity : ArtifactIdentity) :
    identity ∈ own ↔ ∃ selector ∈ manifest.artifacts, selector.identity = identity := by
  have hselected {selector : ArtifactSelector} {member : ArtifactIdentity}
      (hok : (registryCollections artifacts collections).select name selector = .ok member) :
      selector.identity = member := by
    obtain ⟨_, _, _, hmember⟩ := CollectionSpec.select_ok_iff.mp hok
    exact hmember
  constructor
  · intro hmem
    obtain ⟨selector, hselector, hok⟩ := exists_of_forall₂_mem (Result.forall₂_of_mapM_ok h) hmem
    exact ⟨selector, hselector, hselected hok⟩
  · rintro ⟨selector, hselector, rfl⟩
    obtain ⟨member, hmember, hok⟩ := Result.ok_of_mapM_ok h hselector
    rw [hselected hok]
    exact hmember

/-- A finished collection has the set of what it contains. -/
theorem registry_value_contains (hnames : (collections.map (·.name)).Nodup)
    {memo : List (Slug × Finset ArtifactIdentity)}
    (hfinished : (collectionVisitor (registryCollections artifacts collections)).Finished memo)
    {name : Slug} {set : Finset ArtifactIdentity} (hmem : (name, set) ∈ memo) (identity : ArtifactIdentity) :
    identity ∈ set ↔ (registryCollections artifacts collections).Contains name identity := by
  refine (hfinished.induction_on
    (P := fun name set => ∀ identity, identity ∈ set ↔
      (registryCollections artifacts collections).Contains name identity) ?_ hmem) identity
  intro node own next values hexpand hvalues identity
  obtain ⟨manifest, hmanifest, hown, rfl⟩ := CollectionSpec.expand_ok hexpand
  rw [CollectionSpec.contains_iff (nodup_registry_keys hnames) hmanifest]
  show identity ∈ values.foldl (· ∪ ·) own.toFinset ↔ _
  rw [mem_foldl_union, List.mem_toFinset, registry_own_members hown]
  refine or_congr_right ?_
  constructor
  · rintro ⟨set, hset, hidentity⟩
    obtain ⟨nested, hnested, hcontains⟩ := exists_of_forall₂_mem hvalues hset
    obtain ⟨name, hname, rfl⟩ := List.mem_map.mp hnested
    exact ⟨name, hname, (hcontains identity).mp hidentity⟩
  · rintro ⟨name, hname, hcontains⟩
    obtain ⟨set, hset, hequiv⟩ := exists_of_forall₂_mem
      (List.Forall₂.flip (R := fun set name => ∀ identity, identity ∈ set ↔
        (registryCollections artifacts collections).Contains name identity) hvalues)
      (List.mem_map.mpr ⟨name, hname, rfl⟩)
    exact ⟨set, hset, (hequiv identity).mpr hcontains⟩

theorem mem_registry_roots (name : Slug) :
    name ∈ sortedBy (·.value) (collections.map (·.name)) ↔
      name ∈ (registryCollections artifacts collections).manifests.map Prod.fst := by
  rw [mem_sortedBy]
  simp [registryCollections]

/-- Past its checks for duplicates and dependencies, the validation is the search. -/
theorem validateRegistryGraph_eq (hartifacts : (artifacts.map (·.identity)).Nodup)
    (hnames : (collections.map (·.name)).Nodup) (hdependencies : validateArtifactDependencies artifacts = .ok ()) :
    validateRegistryGraph artifacts collections = do
      let names := sortedBy (·.value) (collections.map (·.name))
      let (members, _) ← (collectionVisitor (registryCollections artifacts collections)).visitAll [] [] names
      return deriveMemberships artifacts (names.zip members) := by
  unfold validateRegistryGraph
  rw [firstDuplicate?_eq_none (by simp) hartifacts, hdependencies]
  show (match firstDuplicate? (·.name) [] collections with
    | some collection => _
    | none => _) = _
  rw [firstDuplicate?_eq_none (by simp) hnames]

theorem validateRegistryGraph_ok_iff (hartifacts : (artifacts.map (·.identity)).Nodup)
    (hnames : (collections.map (·.name)).Nodup) (hdependencies : validateArtifactDependencies artifacts = .ok ()) :
    (∃ derived, validateRegistryGraph artifacts collections = .ok derived) ↔
      (registryCollections artifacts collections).Closed := by
  rw [validateRegistryGraph_eq hartifacts hnames hdependencies,
    ← visitAll_collections_ok_iff (nodup_registry_keys hnames) mem_registry_roots]
  constructor
  · rintro ⟨derived, h⟩
    obtain ⟨result, hresult, _⟩ := Result.of_bind_ok h
    exact ⟨result, hresult⟩
  · rintro ⟨result, hresult⟩
    exact ⟨_, by simp only [hresult]; rfl⟩

theorem mem_memberships {expanded : List (Slug × Finset ArtifactIdentity)} {identity : ArtifactIdentity}
    {text : String} :
    text ∈ memberships expanded identity ↔ ∃ entry ∈ expanded, identity ∈ entry.2 ∧ entry.1.value = text := by
  simp [memberships, sortedSet, mem_sortedBy, and_assoc]

/-- The derived names of an artifact are those of the collections that contain it. -/
theorem validateRegistryGraph_memberships (hartifacts : (artifacts.map (·.identity)).Nodup)
    (hnames : (collections.map (·.name)).Nodup) (hdependencies : validateArtifactDependencies artifacts = .ok ())
    {derived : List IndexArtifact} (h : validateRegistryGraph artifacts collections = .ok derived)
    {artifact : IndexArtifact} (hartifact : artifact ∈ artifacts) {collection : CollectionManifest}
    (hcollection : collection ∈ collections) :
    (∃ result ∈ derived, result.identity = artifact.identity ∧ collection.name.value ∈ result.collections) ↔
      (registryCollections artifacts collections).Contains collection.name artifact.identity := by
  rw [validateRegistryGraph_eq hartifacts hnames hdependencies] at h
  obtain ⟨⟨members, memo⟩, hvisit, h⟩ := Result.of_bind_ok h
  obtain rfl := Except.ok.inj h
  obtain ⟨hfinished, hvalues⟩ := Search.Visitor.visitAll_finished hvisit
  have hzip (entry : Slug × Finset ArtifactIdentity)
      (hentry : entry ∈ (sortedBy (·.value) (collections.map (·.name))).zip members) : entry ∈ memo :=
    List.forall₂_iff_zip.mp hvalues |>.2 hentry
  have hname : collection.name ∈ sortedBy (·.value) (collections.map (·.name)) :=
    mem_sortedBy.mpr (List.mem_map.mpr ⟨collection, hcollection, rfl⟩)
  obtain ⟨set, hset⟩ : ∃ set, (collection.name, set) ∈
      (sortedBy (·.value) (collections.map (·.name))).zip members := by
    obtain ⟨place, hplace, hget⟩ := List.getElem_of_mem hname
    have hlength := hvalues.length_eq
    refine ⟨members[place], ?_⟩
    rw [List.mem_iff_getElem]
    exact ⟨place, by rw [List.length_zip]; omega, by rw [List.getElem_zip, hget]⟩
  constructor
  · rintro ⟨result, hresult, hidentity, hmember⟩
    obtain ⟨original, horiginal, rfl⟩ := List.mem_map.mp (mem_sortedBy.mp hresult)
    obtain ⟨entry, hentry, hin, htext⟩ := mem_memberships.mp hmember
    have hsame : entry.1 = collection.name := by
      obtain ⟨⟨text, valid⟩, _⟩ := entry
      obtain ⟨name, summary, selectors, nested⟩ := collection
      cases name
      simpa using htext
    rw [← hsame]
    refine (registry_value_contains hnames hfinished (hzip entry hentry) artifact.identity).mp ?_
    rwa [← hidentity]
  · intro hcontains
    refine ⟨_, mem_sortedBy.mpr (List.mem_map.mpr ⟨artifact, hartifact, rfl⟩), rfl, ?_⟩
    refine mem_memberships.mpr ⟨_, hset, ?_, rfl⟩
    exact (registry_value_contains hnames hfinished (hzip _ hset) artifact.identity).mpr hcontains

end RegistryGraph

end AgentArtifacts.Registry
