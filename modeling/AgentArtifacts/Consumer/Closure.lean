import AgentArtifacts.Consumer.Resolution
import AgentArtifacts.Protocol.Rereading
import AgentArtifacts.Registry.Dependencies

/-!
# The dependency closure is exact

The edges of the search between coordinates of items are the requirements of the
items, so its verdict and its dictionary are read off the reachability of the
requirements.
-/

namespace AgentArtifacts.Consumer

open Registry (ArtifactKey ArtifactSelector sortedBy perm_sortedBy mem_sortedBy)
open Manifest (slug_eq_of_value)
open Relation (ReflTransGen TransGen)
open Schema (sortedBy_eq_of_perm)

/-! ## Coordinates -/

/-- Slashes and the at sign stand between the parts only, so the text has one reading. -/
theorem coordinate_str_injective : Function.Injective ArtifactCoordinate.str := by
  rintro ⟨sourceA, ⟨kindA, nameA⟩, versionA⟩ ⟨sourceB, ⟨kindB, nameB⟩, versionB⟩ h
  have hat (name : Slug) : '@' ∉ name.value.toList := name.not_mem (by decide) (by decide)
  have htext := congrArg String.toList h
  simp only [ArtifactCoordinate.str, ArtifactIdentity.str, String.toList_append, List.append_assoc,
    show "/".toList = ['/'] from rfl, List.cons_append, List.nil_append] at htext
  obtain ⟨hsource, hidentity⟩ := Text.append_sep_inj sourceA.slash_not_mem sourceB.slash_not_mem htext
  obtain ⟨hkind, htail⟩ := Text.append_sep_inj kindA.slash_not_mem kindB.slash_not_mem hidentity
  obtain rfl := slug_eq_of_value (String.toList_injective hsource)
  obtain rfl := ArtifactKind.value_injective (String.toList_injective hkind)
  cases versionA with
  | none =>
      cases versionB with
      | none =>
          obtain rfl := slug_eq_of_value (String.toList_injective (by simpa using htail))
          rfl
      | some version =>
          refine absurd (?_ : '@' ∈ nameA.value.toList) (hat nameA)
          rw [show nameA.value.toList = _ by simpa using htail]
          simp
  | some version =>
      cases versionB with
      | none =>
          refine absurd (?_ : '@' ∈ nameB.value.toList) (hat nameB)
          rw [show nameB.value.toList = _ by simpa using htail.symm]
          simp
      | some other =>
          simp only [String.toList_append, show "@".toList = ['@'] from rfl, List.cons_append, List.nil_append] at htail
          obtain ⟨hname, hversion⟩ := Text.append_sep_inj (hat nameA) (hat nameB) htail
          rw [slug_eq_of_value (String.toList_injective hname), String.toList_injective hversion]

/-- Coordinates of items of the catalog. -/
def Listed (catalog : MarketplaceCatalog) (coordinate : ArtifactCoordinate) : Prop :=
  ∃ item ∈ catalog.items, item.coordinate = coordinate

section Edges

variable {catalog : MarketplaceCatalog}

theorem leads_iff {item : MarketplaceItem} (hitem : item ∈ catalog.items) {coordinate : ArtifactCoordinate} :
    (closureExplorer catalog).Leads item.coordinate coordinate ↔
      ∃ selector ∈ item.requires, ∃ other ∈ catalog.items, other.key = (item.key.1, selector.identity) ∧
        selector.allows other.artifact.artifact.version = true ∧ other.coordinate = coordinate := by
  constructor
  · rintro ⟨value, next, hexpand, hmem⟩
    rw [show (closureExplorer catalog).expand = includeCoordinate catalog from rfl, includeCoordinate_item hitem] at hexpand
    obtain ⟨_, rfl⟩ := Prod.mk.inj (Except.ok.inj hexpand)
    obtain ⟨selector, hselector, hrequired⟩ := List.mem_map.mp hmem
    exact ⟨selector, hselector, requiredCoordinate_eq_ok.mp hrequired⟩
  · rintro ⟨selector, hselector, hrequired⟩
    exact ⟨_, _, includeCoordinate_item hitem,
      List.mem_map.mpr ⟨selector, hselector, requiredCoordinate_eq_ok.mpr hrequired⟩⟩

theorem resolves_iff {item : MarketplaceItem} (hitem : item ∈ catalog.items) :
    (closureExplorer catalog).Resolves item.coordinate ↔
      ∀ selector ∈ item.requires, ∃ other ∈ catalog.items, other.key = (item.key.1, selector.identity) ∧
        selector.allows other.artifact.artifact.version = true := by
  constructor
  · rintro ⟨value, next, hexpand, hedges⟩ selector hselector
    rw [show (closureExplorer catalog).expand = includeCoordinate catalog from rfl, includeCoordinate_item hitem] at hexpand
    obtain ⟨_, rfl⟩ := Prod.mk.inj (Except.ok.inj hexpand)
    obtain ⟨coordinate, hcoordinate⟩ := hedges _ (List.mem_map.mpr ⟨selector, hselector, rfl⟩)
    obtain ⟨other, hother, hkey, hallows, _⟩ := requiredCoordinate_eq_ok.mp hcoordinate
    exact ⟨other, hother, hkey, hallows⟩
  · intro h
    refine ⟨_, _, includeCoordinate_item hitem, fun edge hedge => ?_⟩
    obtain ⟨selector, hselector, rfl⟩ := List.mem_map.mp hedge
    obtain ⟨other, hother, hkey, hallows⟩ := h selector hselector
    exact ⟨other.coordinate, requiredCoordinate_eq_ok.mpr ⟨other, hother, hkey, hallows, rfl⟩⟩

/-- Source and artifact tell the coordinates of items apart. -/
theorem keyed_listed (catalog : MarketplaceCatalog) : (closureExplorer catalog).Keyed (Listed catalog) where
  injective := by
    rintro _ _ ⟨item, hitem, rfl⟩ ⟨other, hother, rfl⟩ hkey
    rw [item_eq_of_key hitem hother hkey]
  closed := by
    rintro _ coordinate ⟨item, hitem, rfl⟩ hleads
    obtain ⟨_, _, other, hother, _, _, rfl⟩ := (leads_iff hitem).mp hleads
    exact ⟨other, hother, rfl⟩

variable {a b : ArtifactCoordinate}

/-- Every step of the search is a requirement. -/
theorem requires_of_leads (ha : Listed catalog a) (h : (closureExplorer catalog).Leads a b) :
    Requires catalog (a.source, a.artifact) (b.source, b.artifact) := by
  obtain ⟨item, hitem, rfl⟩ := ha
  obtain ⟨selector, hselector, other, _, hkey, _, rfl⟩ := (leads_iff hitem).mp h
  exact ⟨item, hitem, rfl, selector, hselector, hkey⟩

/-- Where an item resolves, each of its requirements is a step of the search. -/
theorem leads_of_requires {item : MarketplaceItem} (hitem : item ∈ catalog.items)
    (hresolves : (closureExplorer catalog).Resolves item.coordinate) {key : ArtifactKey}
    (h : Requires catalog item.key key) :
    ∃ other ∈ catalog.items, other.key = key ∧ (closureExplorer catalog).Leads item.coordinate other.coordinate := by
  obtain ⟨same, hsame, hkey, selector, hselector, rfl⟩ := h
  obtain rfl := item_eq_of_key hsame hitem hkey
  obtain ⟨other, hother, hnamed, hallows⟩ := (resolves_iff hitem).mp hresolves selector hselector
  exact ⟨other, hother, hnamed, (leads_iff hitem).mpr ⟨selector, hselector, other, hother, hnamed, hallows, rfl⟩⟩

theorem listed_of_path (ha : Listed catalog a)
    (hpath : ReflTransGen (closureExplorer catalog).Leads a b) : Listed catalog b := by
  induction hpath with
  | refl => exact ha
  | tail _ hstep ih => exact (keyed_listed catalog).closed ih hstep

theorem requires_of_path (ha : Listed catalog a)
    (hpath : ReflTransGen (closureExplorer catalog).Leads a b) :
    ReflTransGen (Requires catalog) (a.source, a.artifact) (b.source, b.artifact) := by
  induction hpath with
  | refl => exact .refl
  | tail hbefore hstep ih => exact ih.tail (requires_of_leads (listed_of_path ha hbefore) hstep)

theorem requires_of_cycle (ha : Listed catalog a)
    (hcycle : TransGen (closureExplorer catalog).Leads a b) :
    TransGen (Requires catalog) (a.source, a.artifact) (b.source, b.artifact) := by
  obtain ⟨first, hstep, hpath⟩ := TransGen.head'_iff.mp hcycle
  exact .head' (requires_of_leads ha hstep) (requires_of_path ((keyed_listed catalog).closed ha hstep) hpath)

end Edges

section Searches

variable {catalog : MarketplaceCatalog} {requested : List ArtifactCoordinate}

/-- Where all nodes below the request resolve, the search follows every requirement. -/
theorem path_of_requires {item : MarketplaceItem} (hitem : item ∈ catalog.items)
    (hsound : ∀ node, ReflTransGen (closureExplorer catalog).Leads item.coordinate node →
      (closureExplorer catalog).Resolves node) {key : ArtifactKey}
    (hpath : ReflTransGen (Requires catalog) item.key key) :
    ∃ other ∈ catalog.items, other.key = key ∧
      ReflTransGen (closureExplorer catalog).Leads item.coordinate other.coordinate := by
  induction hpath with
  | refl => exact ⟨item, hitem, rfl, .refl⟩
  | tail _ hstep ih =>
      obtain ⟨middle, hmiddle, rfl, hbefore⟩ := ih
      obtain ⟨other, hother, hkey, hleads⟩ := leads_of_requires hmiddle (hsound _ hbefore) hstep
      exact ⟨other, hother, hkey, hbefore.tail hleads⟩

theorem explore_clean_iff_satisfied (hrequested : ∀ coordinate ∈ requested, Listed catalog coordinate) :
    ((closureExplorer catalog).explore requested).failures = [] ↔ Satisfied catalog requested := by
  rw [Search.Explorer.explore_clean_iff (keyed_listed catalog) hrequested]
  constructor
  · intro h
    have hfollow {key : ArtifactKey} (hreaches : Reaches catalog requested key) :
        ∃ root ∈ requested, ∃ other ∈ catalog.items, other.key = key ∧
          ReflTransGen (closureExplorer catalog).Leads root other.coordinate := by
      obtain ⟨root, hroot, hpath⟩ := hreaches
      obtain ⟨item, hitem, rfl⟩ := hrequested root hroot
      obtain ⟨other, hother, hkey, hleads⟩ := path_of_requires hitem (fun node hnode => (h _ hroot node hnode).1) hpath
      exact ⟨_, hroot, other, hother, hkey, hleads⟩
    refine ⟨fun key hreaches => ?_, fun item hitem hreaches selector hselector other hother hkey => ?_,
      fun key hreaches hcycle => ?_⟩
    · obtain ⟨_, _, other, hother, hkey, _⟩ := hfollow hreaches
      exact ⟨other, hother, hkey⟩
    · obtain ⟨root, hroot, same, hsame, hitemKey, hpath⟩ := hfollow hreaches
      obtain rfl := item_eq_of_key hsame hitem hitemKey
      obtain ⟨named, hnamed, hnamedKey, hallows⟩ := (resolves_iff hitem).mp (h root hroot _ hpath).1 selector hselector
      rw [item_eq_of_key hother hnamed (hkey.trans hnamedKey.symm)]
      exact hallows
    · obtain ⟨root, hroot, item, hitem, rfl, hpath⟩ := hfollow hreaches
      obtain ⟨first, hstep, hback⟩ := TransGen.head'_iff.mp hcycle
      obtain ⟨next, hnext, rfl, hleads⟩ := leads_of_requires hitem (h root hroot _ hpath).1 hstep
      obtain ⟨last, hlast, hlastKey, hrest⟩ := path_of_requires hnext
        (fun node hnode => (h root hroot node ((hpath.tail hleads).trans hnode)).1) hback
      obtain rfl := item_eq_of_key hlast hitem hlastKey
      exact (h root hroot _ hpath).2 (.head' hleads hrest)
  · intro h root hroot node hpath
    have hlisted := listed_of_path (hrequested root hroot) hpath
    have hreaches : Reaches catalog requested (node.source, node.artifact) :=
      ⟨root, hroot, requires_of_path (hrequested root hroot) hpath⟩
    refine ⟨?_, fun hcycle => h.acyclic _ hreaches (requires_of_cycle hlisted hcycle)⟩
    obtain ⟨item, hitem, rfl⟩ := hlisted
    refine (resolves_iff hitem).mpr fun selector hselector => ?_
    have hstep : Requires catalog item.key (item.key.1, selector.identity) := ⟨item, hitem, rfl, selector, hselector, rfl⟩
    obtain ⟨start, hstart, hbefore⟩ := hreaches
    obtain ⟨other, hother, hkey⟩ := h.present _ ⟨start, hstart, hbefore.tail hstep⟩
    exact ⟨other, hother, hkey, h.allowed item hitem ⟨start, hstart, hbefore⟩ selector hselector other hother hkey⟩

/-- What a closure without failures holds, in the order it was found. -/
theorem mem_found_iff (hrequested : ∀ coordinate ∈ requested, Listed catalog coordinate)
    (hsatisfied : Satisfied catalog requested) (entry : ArtifactKey × ArtifactCoordinate) :
    entry ∈ ((closureExplorer catalog).explore requested).found ↔
      ∃ item ∈ catalog.items, Reaches catalog requested item.key ∧ entry = (item.key, item.coordinate) := by
  have hclean := (explore_clean_iff_satisfied hrequested).mpr hsatisfied
  have hsound := (Search.Explorer.explore_clean_iff (keyed_listed catalog) hrequested).mp hclean
  rw [Search.Explorer.mem_explore_iff (keyed_listed catalog) hrequested hclean]
  constructor
  · rintro ⟨root, hroot, node, value, next, hpath, hexpand, rfl⟩
    obtain ⟨item, hitem, rfl⟩ := listed_of_path (hrequested root hroot) hpath
    rw [show (closureExplorer catalog).expand = includeCoordinate catalog from rfl, includeCoordinate_item hitem] at hexpand
    obtain ⟨rfl, _⟩ := Prod.mk.inj (Except.ok.inj hexpand)
    exact ⟨item, hitem, ⟨root, hroot, requires_of_path (hrequested root hroot) hpath⟩, rfl⟩
  · rintro ⟨item, hitem, ⟨root, hroot, hpath⟩, rfl⟩
    obtain ⟨start, hstart, rfl⟩ := hrequested root hroot
    obtain ⟨other, hother, hkey, hleads⟩ :=
      path_of_requires hstart (fun node hnode => (hsound _ hroot node hnode).1) hpath
    obtain rfl := item_eq_of_key hother hitem hkey
    exact ⟨_, hroot, other.coordinate, _, _, hleads, includeCoordinate_item hitem, rfl⟩

theorem reaches_congr {other : List ArtifactCoordinate} (h : ∀ coordinate, coordinate ∈ other ↔ coordinate ∈ requested)
    (key : ArtifactKey) : Reaches catalog other key ↔ Reaches catalog requested key := by
  simp only [Reaches, h]

theorem satisfied_congr {other : List ArtifactCoordinate}
    (h : ∀ coordinate, coordinate ∈ other ↔ coordinate ∈ requested) (hsatisfied : Satisfied catalog requested) :
    Satisfied catalog other where
  present key hreaches := hsatisfied.present key ((reaches_congr h key).mp hreaches)
  allowed item hitem hreaches := hsatisfied.allowed item hitem ((reaches_congr h _).mp hreaches)
  acyclic key hreaches := hsatisfied.acyclic key ((reaches_congr h key).mp hreaches)

/-- The closure of a request is accepted exactly where all it reaches is satisfied; it lists
the coordinates it reaches, each once, whatever the order of the request. -/
theorem dependencyClosure_exact (catalog : MarketplaceCatalog) (requested : List ArtifactCoordinate)
    (hrequested : ∀ coordinate ∈ requested, ∃ item ∈ catalog.items, item.coordinate = coordinate) :
    ((∃ closure, dependencyClosure catalog requested = .ok closure) ↔ Satisfied catalog requested) ∧
      ∀ closure, dependencyClosure catalog requested = .ok closure →
        closure.Nodup ∧
        (∀ coordinate, coordinate ∈ closure ↔
          ∃ item ∈ catalog.items, item.coordinate = coordinate ∧ Reaches catalog requested item.key) ∧
        ∀ other, (∀ coordinate, coordinate ∈ other ↔ coordinate ∈ requested) →
          dependencyClosure catalog other = .ok closure := by
  have hverdict {request : List ArtifactCoordinate} (hlisted : ∀ coordinate ∈ request, Listed catalog coordinate)
      (hsatisfied : Satisfied catalog request) : dependencyClosure catalog request =
        .ok (sortedBy (·.str) (((closureExplorer catalog).explore request).found.map Prod.snd)) := by
    simp [dependencyClosure, (explore_clean_iff_satisfied hlisted).mpr hsatisfied]
  have hrefused {closure : List ArtifactCoordinate} (h : dependencyClosure catalog requested = .ok closure) :
      Satisfied catalog requested := by
    refine (explore_clean_iff_satisfied hrequested).mp ?_
    by_contra hfailed
    rw [dependencyClosure, if_neg (by simpa using hfailed)] at h
    exact absurd h (by simp)
  have hmem {request : List ArtifactCoordinate} (hlisted : ∀ coordinate ∈ request, Listed catalog coordinate)
      (hsatisfied : Satisfied catalog request) (coordinate : ArtifactCoordinate) :
      coordinate ∈ ((closureExplorer catalog).explore request).found.map Prod.snd ↔
        ∃ item ∈ catalog.items, item.coordinate = coordinate ∧ Reaches catalog request item.key := by
    simp only [List.mem_map, mem_found_iff hlisted hsatisfied]
    constructor
    · rintro ⟨_, ⟨item, hitem, hreaches, rfl⟩, rfl⟩
      exact ⟨item, hitem, rfl, hreaches⟩
    · rintro ⟨item, hitem, rfl, hreaches⟩
      exact ⟨_, ⟨item, hitem, hreaches, rfl⟩, rfl⟩
  have hnodup {request : List ArtifactCoordinate} (hlisted : ∀ coordinate ∈ request, Listed catalog coordinate)
      (hsatisfied : Satisfied catalog request) :
      (((closureExplorer catalog).explore request).found.map Prod.snd).Nodup := by
    -- The key of an entry is that of its coordinate.
    have hkeys : ((closureExplorer catalog).explore request).found.map Prod.fst =
        (((closureExplorer catalog).explore request).found.map Prod.snd).map fun coordinate =>
          (coordinate.source, coordinate.artifact) := by
      rw [List.map_map]
      refine List.map_congr_left fun entry hentry => ?_
      obtain ⟨item, _, _, rfl⟩ := (mem_found_iff hlisted hsatisfied entry).mp hentry
      rfl
    have hdistinct : (((closureExplorer catalog).explore request).found.map Prod.fst).Nodup :=
      Search.Explorer.explore_nodup request
    rw [hkeys] at hdistinct
    exact hdistinct.of_map
  refine ⟨⟨fun h => hrefused h.choose_spec, fun h => ⟨_, hverdict hrequested h⟩⟩, fun closure h => ?_⟩
  have hsatisfied := hrefused h
  rw [hverdict hrequested hsatisfied] at h
  obtain rfl := Except.ok.inj h
  refine ⟨(perm_sortedBy _ _).nodup_iff.mpr (hnodup hrequested hsatisfied), fun coordinate => ?_, fun other hsame => ?_⟩
  · rw [mem_sortedBy]
    exact hmem hrequested hsatisfied coordinate
  · have hother : ∀ coordinate ∈ other, Listed catalog coordinate := fun coordinate hcoordinate =>
      hrequested coordinate ((hsame coordinate).mp hcoordinate)
    have hothers := satisfied_congr hsame hsatisfied
    rw [hverdict hother hothers]
    refine congrArg Except.ok (sortedBy_eq_of_perm coordinate_str_injective ?_)
    refine (List.perm_ext_iff_of_nodup (hnodup hother hothers) (hnodup hrequested hsatisfied)).mpr fun coordinate => ?_
    rw [hmem hother hothers, hmem hrequested hsatisfied]
    simp only [reaches_congr hsame]

end Searches

/-- A skill of one team and what it requires. -/
def teamSkill (name : Slug) (requires : List ArtifactSelector) : MarketplaceItem where
  artifact :=
    { sourceAlias := ⟨"team", Eq.refl true⟩
      artifact := { Registry.indexArtifactFromPackage (Registry.tidyPackage requires) ⟨"team", Eq.refl true⟩ ⟨"0"⟩ none []
        with identity := ⟨.skill, name⟩ } }
  source := ⟨⟨"team", Eq.refl true⟩, .registryGit, some ⟨"team", Eq.refl true⟩, "host/team", none, none, .healthy, none⟩
  trust := ⟨.registryReviewed, ⟨"0"⟩⟩
  aliasBound := rfl
  sourceBound := rfl

def lint : MarketplaceItem := teamSkill ⟨"lint", by decide⟩ []

def tidy : MarketplaceItem := teamSkill ⟨"tidy", Eq.refl true⟩ [⟨⟨.skill, ⟨"lint", Eq.refl true⟩⟩, none⟩]

def teamCatalog : MarketplaceCatalog where
  sources := [lint.source]
  items := [lint, tidy]
  collections := []
  aliasesUnique := List.nodup_singleton _
  itemsQualified := by decide
  itemsBound item hitem := by
    simp only [List.mem_cons, List.not_mem_nil, or_false] at hitem
    rcases hitem with rfl | rfl <;> exact List.mem_singleton_self _
  collectionsQualified := List.nodup_nil
  collectionsBound collection hcollection := absurd hcollection (by simp)
  membersListed collection hcollection := absurd hcollection (by simp)

/-- A request for the one skill brings the other one with it. -/
theorem dependencyClosure_exact_tidy :
    ((∃ closure, dependencyClosure teamCatalog [tidy.coordinate] = .ok closure) ↔
        Satisfied teamCatalog [tidy.coordinate]) ∧
      ∀ closure, dependencyClosure teamCatalog [tidy.coordinate] = .ok closure → lint.coordinate ∈ closure := by
  have hlisted : ∀ coordinate ∈ [tidy.coordinate], ∃ item ∈ teamCatalog.items, item.coordinate = coordinate := by
    intro coordinate hcoordinate
    exact ⟨tidy, by simp [teamCatalog], (List.mem_singleton.mp hcoordinate).symm⟩
  obtain ⟨hverdict, hclosure⟩ := dependencyClosure_exact teamCatalog [tidy.coordinate] hlisted
  refine ⟨hverdict, fun closure h => ((hclosure closure h).2.1 _).mpr ⟨lint, by simp [teamCatalog], rfl, ?_⟩⟩
  refine ⟨_, List.mem_singleton_self _, .single ⟨tidy, by simp [teamCatalog], rfl, _, List.mem_singleton_self _, rfl⟩⟩

/-! ## Selectors -/

/-- The coordinates of each available artifact, or of each collection, that a selector fits. -/
def matching (catalog : MarketplaceCatalog) (selector : RequestedSelector) : List (List ArtifactCoordinate) :=
  match selector.kind with
  | .collection => (catalog.collections.filter fun collection => collection.coordinate.name == selector.name &&
      selector.source.all fun source => collection.coordinate.source == source).map (·.members)
  | .artifact kind => (catalog.items.filter fun item => item.artifact.lifecycle == .available &&
      item.artifact.artifact.identity == ⟨kind, selector.name⟩ &&
      selector.source.all (fun source => item.source.sourceAlias == source) &&
      selector.version.all fun version => item.artifact.artifact.version.str == version).map fun item => [item.coordinate]

/-- All that the selectors of a request fit. -/
def named (catalog : MarketplaceCatalog) (selectors : List RequestedSelector) : List ArtifactCoordinate :=
  selectors.flatMap fun selector => (matching catalog selector).flatten

section Selectors

variable {catalog : MarketplaceCatalog} {offline : Bool} {selector : RequestedSelector} {selectors : List RequestedSelector}

/-- A selector is bound where it fits one thing only, and is refused with a message otherwise. -/
theorem resolveRequested_matching (selector : RequestedSelector) :
    (∃ coordinates, matching catalog selector = [coordinates] ∧
      resolveRequested catalog offline selector = .ok coordinates) ∨
    ((matching catalog selector).length ≠ 1 ∧
      ∃ diagnostic, resolveRequested catalog offline selector = .error [diagnostic]) := by
  obtain ⟨kind, name, source, version⟩ := selector
  cases kind with
  | collection =>
      show (∃ coordinates, _ ∧ resolveCollection catalog _ = _) ∨ (_ ∧ ∃ diagnostic, resolveCollection catalog _ = _)
      unfold matching resolveCollection
      dsimp only
      generalize catalog.collections.filter _ = found
      rcases found with _ | ⟨collection, _ | ⟨second, rest⟩⟩
      · exact .inr ⟨by simp, _, rfl⟩
      · exact .inl ⟨_, rfl, rfl⟩
      · exact .inr ⟨by simp, _, rfl⟩
  | artifact kind =>
      have hitems : catalog.summary.items.filter (ArtifactQuery.accepts ⟨⟨kind, name⟩, source, version⟩) =
          (catalog.items.filter fun item => item.artifact.lifecycle == .available &&
            item.artifact.artifact.identity == ⟨kind, name⟩ &&
            source.all (fun source => item.source.sourceAlias == source) &&
            version.all fun version => item.artifact.artifact.version.str == version).map (·.summary) := by
        rw [show catalog.summary.items = catalog.items.map (·.summary) from rfl, List.filter_map]
        refine congrArg _ (List.filter_congr fun item _ => ?_)
        cases source <;> cases version <;> rfl
      have hresolved : resolveRequested catalog offline ⟨.artifact kind, name, source, version⟩ =
          (resolveArtifact catalog.summary ⟨⟨kind, name⟩, source, version⟩ offline).bind fun item => .ok [item.coordinate] := rfl
      rw [hresolved]
      unfold matching resolveArtifact
      dsimp only
      rw [hitems]
      generalize catalog.items.filter _ = found
      rcases found with _ | ⟨item, _ | ⟨second, rest⟩⟩
      · exact .inr ⟨by simp, _, rfl⟩
      · refine .inl ⟨_, rfl, ?_⟩
        show Except.ok [item.summary.coordinate] = Except.ok [item.coordinate]
        have hcoordinate : item.summary.coordinate = item.coordinate := by
          rw [MarketplaceItem.coordinate, Registry.MarketplaceArtifact.coordinate, item.aliasBound]
          rfl
        rw [hcoordinate]
      · exact .inr ⟨by simp, _, rfl⟩

theorem listed_named {coordinate : ArtifactCoordinate} (h : coordinate ∈ named catalog selectors) :
    Listed catalog coordinate := by
  obtain ⟨selector, -, hmatching⟩ := List.mem_flatMap.mp h
  obtain ⟨coordinates, hcoordinates, hmem⟩ := List.mem_flatten.mp hmatching
  unfold matching at hcoordinates
  split at hcoordinates
  · obtain ⟨collection, hcollection, rfl⟩ := List.mem_map.mp hcoordinates
    exact catalog.membersListed collection (List.mem_of_mem_filter hcollection) coordinate hmem
  · obtain ⟨item, hitem, rfl⟩ := List.mem_map.mp hcoordinates
    exact ⟨item, List.mem_of_mem_filter hitem, (List.mem_singleton.mp hmem).symm⟩

theorem dependencyClosure_eq_ok {requested closure : List ArtifactCoordinate}
    (hrequested : ∀ coordinate ∈ requested, Listed catalog coordinate) :
    dependencyClosure catalog requested = .ok closure ↔ Satisfied catalog requested ∧
      closure = sortedBy (·.str) (((closureExplorer catalog).explore requested).found.map Prod.snd) := by
  rw [← explore_clean_iff_satisfied hrequested]
  unfold dependencyClosure
  dsimp only
  by_cases hclean : ((closureExplorer catalog).explore requested).failures = []
  · rw [hclean, and_iff_right rfl]
    exact ⟨fun h => (Except.ok.inj h).symm, fun h => congrArg Except.ok h.symm⟩
  · rw [if_neg (by simpa using hclean)]
    exact ⟨fun h => absurd h (by simp), fun h => absurd h.1 hclean⟩

/-- Selectors are resolved all or none: what they fit is expanded where each fits one thing only. -/
theorem resolveSelectors_eq_ok {closure : List ArtifactCoordinate} :
    resolveSelectors catalog selectors offline = .ok closure ↔
      (∀ selector ∈ selectors, (matching catalog selector).length = 1) ∧
        dependencyClosure catalog (sortedBy (·.str) (named catalog selectors).dedup) = .ok closure := by
  by_cases hall : ∀ selector ∈ selectors, (matching catalog selector).length = 1
  · have hresolved : selectors.map (resolveRequested catalog offline) =
        selectors.map fun selector => .ok (matching catalog selector).flatten := by
      refine List.map_congr_left fun selector hselector => ?_
      rcases @resolveRequested_matching catalog offline selector with
        ⟨coordinates, hmatching, hok⟩ | ⟨hne, -⟩
      · rw [hok, hmatching, List.flatten_singleton]
      · exact absurd (hall selector hselector) hne
    rw [and_iff_right hall, resolveSelectors, hresolved]
    simp [List.flatMap_map, named]
  · refine iff_of_false (fun h => ?_) fun h => hall h.1
    obtain ⟨selector, hselector, hne⟩ := not_forall₂.mp hall
    rcases @resolveRequested_matching catalog offline selector with
      ⟨coordinates, hmatching, -⟩ | ⟨-, diagnostic, herror⟩
    · exact hne (by rw [hmatching]; rfl)
    · unfold resolveSelectors at h
      dsimp only at h
      rw [if_neg] at h
      · cases h
      · rw [List.isEmpty_iff, List.flatMap_eq_nil_iff]
        intro hempty
        have hnone := hempty _ (List.mem_map.mpr ⟨selector, hselector, herror⟩)
        cases hnone

/-- A request is resolved exactly where every selector fits one available artifact or one
collection, and all that these reach is satisfied; it comes to what they reach, whatever the
order of the selectors, how often each is given, and whether the marketplace is offline. -/
theorem resolveSelectors_exact (catalog : MarketplaceCatalog) (selectors : List RequestedSelector) (offline : Bool) :
    ((∃ closure, resolveSelectors catalog selectors offline = .ok closure) ↔
      (∀ selector ∈ selectors, (matching catalog selector).length = 1) ∧ Satisfied catalog (named catalog selectors)) ∧
    ∀ closure, resolveSelectors catalog selectors offline = .ok closure →
      (∀ coordinate, coordinate ∈ closure ↔
        ∃ item ∈ catalog.items, item.coordinate = coordinate ∧ Reaches catalog (named catalog selectors) item.key) ∧
      ∀ others offline', (∀ selector, selector ∈ others ↔ selector ∈ selectors) →
        resolveSelectors catalog others offline' = .ok closure := by
  have hmembers (coordinate : ArtifactCoordinate) :
      coordinate ∈ sortedBy (·.str) (named catalog selectors).dedup ↔ coordinate ∈ named catalog selectors := by
    rw [mem_sortedBy, List.mem_dedup]
  have hlisted : ∀ coordinate ∈ sortedBy (·.str) (named catalog selectors).dedup, Listed catalog coordinate :=
    fun coordinate hcoordinate => listed_named ((hmembers coordinate).mp hcoordinate)
  have hsatisfied : Satisfied catalog (sortedBy (·.str) (named catalog selectors).dedup) ↔
      Satisfied catalog (named catalog selectors) :=
    ⟨satisfied_congr fun coordinate => (hmembers coordinate).symm, satisfied_congr hmembers⟩
  refine ⟨?_, fun closure h => ⟨fun coordinate => ?_, fun others offline' hsame => ?_⟩⟩
  · simp only [resolveSelectors_eq_ok, dependencyClosure_eq_ok hlisted, hsatisfied]
    constructor
    · rintro ⟨_, hall, hthis, _⟩
      exact ⟨hall, hthis⟩
    · rintro ⟨hall, hthis⟩
      exact ⟨_, hall, hthis, rfl⟩
  · obtain ⟨-, hclosure⟩ := resolveSelectors_eq_ok.mp h
    obtain ⟨hthis, rfl⟩ := (dependencyClosure_eq_ok hlisted).mp hclosure
    simp only [mem_sortedBy, List.mem_map, mem_found_iff hlisted hthis, reaches_congr hmembers]
    constructor
    · rintro ⟨_, ⟨item, hitem, hreaches, rfl⟩, rfl⟩
      exact ⟨item, hitem, rfl, hreaches⟩
    · rintro ⟨item, hitem, rfl, hreaches⟩
      exact ⟨_, ⟨item, hitem, hreaches, rfl⟩, rfl⟩
  · obtain ⟨hall, hclosure⟩ := resolveSelectors_eq_ok.mp h
    have hnamed : sortedBy (·.str) (named catalog others).dedup = sortedBy (·.str) (named catalog selectors).dedup := by
      refine sortedBy_eq_of_perm coordinate_str_injective ?_
      refine (List.perm_ext_iff_of_nodup (List.nodup_dedup _) (List.nodup_dedup _)).mpr fun coordinate => ?_
      simp only [List.mem_dedup, named, List.mem_flatMap, hsame]
    exact resolveSelectors_eq_ok.mpr ⟨fun selector hselector => hall selector ((hsame selector).mp hselector), hnamed ▸ hclosure⟩

end Selectors

end AgentArtifacts.Consumer
