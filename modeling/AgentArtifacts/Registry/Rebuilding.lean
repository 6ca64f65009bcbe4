import AgentArtifacts.Protocol.Rereading
import AgentArtifacts.Registry.Collections

/-!
# Validating a graph again

The validation of a registry graph sorts the artifacts and writes their memberships
into them. What it gives is valid again, with the collections in any order, and comes
out unchanged: neither the order nor the memberships decide anything.
-/

namespace AgentArtifacts.Registry

open Schema (sortedBy_eq_self sortedBy_sortedBy pairwise_sortedBy sortedSet_eq_of_perm sortedSet_sortedSet
  nodup_sortedSet)

/-! ## Duplicates -/

theorem nodup_of_firstDuplicate? {α κ : Type} [DecidableEq κ] {key : α → κ} {seen : List κ} {items : List α}
    (h : firstDuplicate? key seen items = none) : (∀ item ∈ items, key item ∉ seen) ∧ (items.map key).Nodup := by
  induction items generalizing seen with
  | nil => simp
  | cons item rest ih =>
      rw [firstDuplicate?] at h
      split at h
      · cases h
      · rename_i hnew
        obtain ⟨hrest, hnodup⟩ := ih h
        refine ⟨?_, ?_⟩
        · intro other hother
          rcases List.mem_cons.mp hother with rfl | hmem
          · exact hnew
          · exact fun hseen => hrest other hmem (List.mem_cons_of_mem _ hseen)
        · refine List.nodup_cons.mpr ⟨?_, hnodup⟩
          intro hkey
          obtain ⟨other, hother, heq⟩ := List.mem_map.mp hkey
          exact hrest other hother (heq ▸ List.mem_cons_self)

/-! ## What a valid graph is -/

section Rebuilt

variable {artifacts : List IndexArtifact} {collections : List CollectionManifest} {derived : List IndexArtifact}

/-- What the validation of a graph has established. -/
structure SoundGraph (artifacts : List IndexArtifact) (collections : List CollectionManifest) : Prop where
  distinctArtifacts : (artifacts.map (·.identity)).Nodup
  distinctCollections : (collections.map (·.name)).Nodup
  dependencies : validateArtifactDependencies artifacts = .ok ()
  closed : (registryCollections artifacts collections).Closed

theorem soundGraph_of_valid (h : validateRegistryGraph artifacts collections = .ok derived) :
    SoundGraph artifacts collections := by
  have hvalid := h
  unfold validateRegistryGraph at h
  split at h
  · cases h
  · rename_i hartifacts
    obtain ⟨done, hdependencies, h⟩ := Result.of_bind_ok h
    split at h
    · cases h
    · rename_i hcollections
      have hidentities := (nodup_of_firstDuplicate? hartifacts).2
      have hnames := (nodup_of_firstDuplicate? hcollections).2
      exact ⟨hidentities, hnames, hdependencies,
        (validateRegistryGraph_ok_iff hidentities hnames hdependencies).mp ⟨derived, hvalid⟩⟩

/-- The artifacts that come out are those that went in, apart from their memberships. -/
theorem derived_of_valid (h : validateRegistryGraph artifacts collections = .ok derived) :
    ∃ names : ArtifactIdentity → List String, (∀ identity, sortedSet (names identity) = names identity) ∧
      derived = sortedBy (fun artifact => [artifact.sourceId.value, artifact.identity.str])
        (artifacts.map fun artifact => { artifact with collections := names artifact.identity }) := by
  have hsound := soundGraph_of_valid h
  rw [validateRegistryGraph_eq hsound.distinctArtifacts hsound.distinctCollections hsound.dependencies] at h
  obtain ⟨⟨members, memo⟩, _, h⟩ := Result.of_bind_ok h
  refine ⟨memberships _, fun identity => sortedSet_sortedSet _, (Except.ok.inj h).symm⟩

theorem perm_derived (h : validateRegistryGraph artifacts collections = .ok derived) {β : Type}
    (f : IndexArtifact → β) (hf : ∀ artifact names, f { artifact with collections := names } = f artifact) :
    (derived.map f).Perm (artifacts.map f) := by
  obtain ⟨names, _, rfl⟩ := derived_of_valid h
  refine ((perm_sortedBy _ _).map f).trans (List.Perm.of_eq ?_)
  rw [List.map_map]
  exact List.map_congr_left fun artifact _ => hf artifact _

/-- The memberships of a derived artifact are the names of the collections that contain it. -/
theorem mem_collections_of_valid (h : validateRegistryGraph artifacts collections = .ok derived)
    {artifact : IndexArtifact} (hartifact : artifact ∈ derived) {text : String} :
    text ∈ artifact.collections ↔ ∃ collection ∈ collections,
      (registryCollections artifacts collections).Contains collection.name artifact.identity ∧
        collection.name.value = text := by
  have hsound := soundGraph_of_valid h
  have hunique : (derived.map (·.identity)).Nodup :=
    (perm_derived h (·.identity) fun _ _ => rfl).nodup_iff.mpr hsound.distinctArtifacts
  obtain ⟨original, horiginal, hidentity⟩ : ∃ original ∈ artifacts, original.identity = artifact.identity :=
    List.mem_map.mp ((perm_derived h (·.identity) fun _ _ => rfl).mem_iff.mp
      (List.mem_map.mpr ⟨artifact, hartifact, rfl⟩))
  have hcontains (collection : CollectionManifest) (hcollection : collection ∈ collections) :
      collection.name.value ∈ artifact.collections ↔
        (registryCollections artifacts collections).Contains collection.name artifact.identity := by
    rw [← hidentity, ← validateRegistryGraph_memberships hsound.distinctArtifacts hsound.distinctCollections hsound.dependencies h
      horiginal hcollection]
    constructor
    · exact fun hmem => ⟨artifact, hartifact, hidentity.symm, hmem⟩
    · rintro ⟨result, hresult, hsame, hmem⟩
      obtain rfl := List.inj_on_of_nodup_map hunique hresult hartifact (hsame.trans hidentity)
      exact hmem
  constructor
  · intro hmem
    obtain ⟨collection, hcollection, rfl⟩ : ∃ collection ∈ collections, collection.name.value = text := by
      rw [validateRegistryGraph_eq hsound.distinctArtifacts hsound.distinctCollections hsound.dependencies] at h
      obtain ⟨⟨members, memo⟩, _, hderived⟩ := Result.of_bind_ok h
      obtain rfl := Except.ok.inj hderived
      obtain ⟨source, _, rfl⟩ := List.mem_map.mp (mem_sortedBy.mp hartifact)
      obtain ⟨entry, hentry, _, htext⟩ := mem_memberships.mp hmem
      obtain ⟨collection, hcollection, hname⟩ :=
        List.mem_map.mp (mem_sortedBy.mp (List.of_mem_zip hentry).1)
      exact ⟨collection, hcollection, by rw [hname, htext]⟩
    exact ⟨collection, hcollection, (hcontains collection hcollection).mp hmem, rfl⟩
  · rintro ⟨collection, hcollection, hin, rfl⟩
    exact (hcontains collection hcollection).mpr hin

/-! ## Validating it again -/

theorem resolvable_congr {left right : List Requirer} (h : ∀ item, item ∈ left ↔ item ∈ right)
    (hleft : Resolvable left) : Resolvable right where
  present item hitem selector hselector := by
    obtain ⟨other, hother, hidentity⟩ := hleft.present item ((h item).mpr hitem) selector hselector
    exact ⟨other, (h other).mp hother, hidentity⟩
  allowed item hitem selector hselector other hother :=
    hleft.allowed item ((h item).mpr hitem) selector hselector other ((h other).mpr hother)
  acyclic identity hcycle := by
    refine hleft.acyclic identity (Relation.TransGen.mono ?_ _ _ hcycle)
    rintro a b ⟨item, hitem, hstep⟩
    exact ⟨item, (h item).mpr hitem, hstep⟩

theorem contains_congr {other : List IndexArtifact} {sorted : List CollectionManifest} (h : sorted.Perm collections)
    (name : Slug) (identity : ArtifactIdentity) :
    (registryCollections other sorted).Contains name identity ↔
      (registryCollections artifacts collections).Contains name identity := by
  have hmem (entry : Slug × CollectionManifest) : entry ∈ (registryCollections other sorted).manifests ↔
      entry ∈ (registryCollections artifacts collections).manifests :=
    (h.map fun collection => (collection.name, collection)).mem_iff
  have hnests : (registryCollections other sorted).Nests = (registryCollections artifacts collections).Nests := by
    funext a b
    refine propext (exists_congr fun manifest => ?_)
    rw [hmem]
    rfl
  unfold CollectionSpec.Contains
  rw [hnests]
  refine exists_congr fun inner => and_congr_right fun _ => exists_congr fun manifest => ?_
  rw [hmem]

/-- The artifacts that come out resolve what those that went in resolve. -/
theorem soundGraph_rebuilt (h : validateRegistryGraph artifacts collections = .ok derived)
    {sorted : List CollectionManifest} (hsorted : sorted.Perm collections) : SoundGraph derived sorted := by
  have hsound := soundGraph_of_valid h
  have hidentities : (derived.map (·.identity)).Nodup :=
    (perm_derived h (·.identity) fun _ _ => rfl).nodup_iff.mpr hsound.distinctArtifacts
  have hmanifest (entry : Slug × CollectionManifest) :
      entry ∈ (registryCollections derived sorted).manifests ↔
        entry ∈ (registryCollections artifacts collections).manifests :=
    (hsorted.map fun collection => (collection.name, collection)).mem_iff
  refine ⟨hidentities, (hsorted.map (·.name)).nodup_iff.mpr hsound.distinctCollections, ?_, ?_⟩
  · have hresolvable := (validateDependencies_ok_iff _ (by simpa [Function.comp_def, IndexArtifact.requirer] using
      hsound.distinctArtifacts)).mp hsound.dependencies
    refine (validateDependencies_ok_iff _ (by simpa [Function.comp_def, IndexArtifact.requirer] using
      hidentities)).mpr (resolvable_congr (fun item => ?_) hresolvable)
    exact (perm_derived h IndexArtifact.requirer fun _ _ => rfl).mem_iff.symm
  · have hartifact {identity : ArtifactIdentity} {artifact : IndexArtifact}
        (hfound : lastKeyed? (artifacts.map fun artifact => (artifact.identity, artifact)) identity = some artifact) :
        ∃ other, lastKeyed? (derived.map fun artifact => (artifact.identity, artifact)) identity = some other ∧
          other.version = artifact.version := by
      obtain ⟨source, hsource, heq⟩ := List.mem_map.mp (mem_of_lastKeyed? hfound)
      obtain ⟨hidentity, rfl⟩ := Prod.mk.inj heq
      obtain ⟨other, hother, hsame⟩ := List.mem_map.mp
        ((perm_derived h (fun artifact => (artifact.identity, artifact.version)) fun _ _ => rfl).mem_iff.mpr
          (List.mem_map.mpr ⟨source, hsource, rfl⟩))
      obtain ⟨hother_identity, hversion⟩ := Prod.mk.inj hsame
      refine ⟨other, lastKeyed?_of_mem (by simpa [Function.comp_def] using hidentities) ?_, hversion⟩
      exact List.mem_map.mpr ⟨other, hother, by rw [hother_identity, hidentity]⟩
    refine ⟨?_, ?_, ?_⟩
    · intro key manifest hmem selector hselector
      obtain ⟨artifact, hfound, hallows⟩ :=
        hsound.closed.selectors key manifest ((hmanifest _).mp hmem) selector hselector
      obtain ⟨other, hother, hversion⟩ := hartifact hfound
      exact ⟨other, hother, by
        show selector.allows other.version = true
        rw [hversion]
        exact hallows⟩
    · intro key manifest hmem name hname
      have hnested := hsound.closed.nested key manifest ((hmanifest _).mp hmem) name hname
      obtain ⟨entry, hentry, hkey⟩ := List.mem_map.mp hnested
      exact List.mem_map.mpr ⟨entry, (hmanifest entry).mpr hentry, hkey⟩
    · intro key hcycle
      refine hsound.closed.acyclic key (Relation.TransGen.mono ?_ _ _ hcycle)
      rintro a b ⟨manifest, hmem, hstep⟩
      exact ⟨manifest, (hmanifest _).mp hmem, hstep⟩

/-- Sorted sets of the same members are the same. -/
theorem sortedSet_ext {left right : List String} (hleft : sortedSet left = left) (hright : sortedSet right = right)
    (h : ∀ text, text ∈ left ↔ text ∈ right) : left = right := by
  rw [← hleft, ← hright]
  have hnodup : left.Nodup ∧ right.Nodup := ⟨hleft ▸ nodup_sortedSet left, hright ▸ nodup_sortedSet right⟩
  exact sortedSet_eq_of_perm ((List.perm_ext_iff_of_nodup hnodup.1 hnodup.2).mpr h)

theorem validateRegistryGraph_rebuilt (h : validateRegistryGraph artifacts collections = .ok derived)
    {sorted : List CollectionManifest} (hsorted : sorted.Perm collections) :
    validateRegistryGraph derived sorted = .ok derived := by
  have hsound := soundGraph_rebuilt h hsorted
  obtain ⟨again, hagain⟩ :=
    (validateRegistryGraph_ok_iff hsound.distinctArtifacts hsound.distinctCollections hsound.dependencies).mpr hsound.closed
  obtain ⟨names, hnames, hderived⟩ := derived_of_valid h
  obtain ⟨others, hothers, hrebuilt⟩ := derived_of_valid hagain
  have hsame (artifact : IndexArtifact) (hartifact : artifact ∈ derived) :
      { artifact with collections := others artifact.identity } = artifact := by
    have hrewritten : { artifact with collections := others artifact.identity } ∈ again := by
      rw [hrebuilt]
      exact mem_sortedBy.mpr (List.mem_map.mpr ⟨artifact, hartifact, rfl⟩)
    have hset : sortedSet artifact.collections = artifact.collections := by
      rw [hderived] at hartifact
      obtain ⟨source, _, rfl⟩ := List.mem_map.mp (mem_sortedBy.mp hartifact)
      exact hnames source.identity
    have hcollections : others artifact.identity = artifact.collections := by
      refine sortedSet_ext (hothers _) hset fun text => ?_
      rw [mem_collections_of_valid h hartifact]
      refine (mem_collections_of_valid hagain hrewritten).trans ?_
      have hcontains (other : List IndexArtifact) (name : Slug) (identity : ArtifactIdentity) :
          (registryCollections other _).Contains name identity ↔
            (registryCollections artifacts collections).Contains name identity := contains_congr hsorted name identity
      simp only [hsorted.mem_iff, hcontains]
    rw [hcollections]
  rw [hagain, hrebuilt, List.map_congr_left hsame, List.map_id', hderived, sortedBy_sortedBy]

end Rebuilt

end AgentArtifacts.Registry
