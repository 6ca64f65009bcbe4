import AgentArtifacts.Library.Search
import AgentArtifacts.Registry.Model

/-!
# Validation of declared dependencies

A source is consumable only if what its artifacts require is there, in an allowed
version and without a cycle. The compiler of a native source and the compiler of a
registry index check this separately, over packages and over index artifacts, with
messages of their own.
-/

namespace AgentArtifacts.Registry

def artifactInvalid : DiagnosticCode := ⟨"artifact-invalid"⟩

def registryGraphInvalid : DiagnosticCode := ⟨"registry-graph-invalid"⟩

/-- What the validation reads of a package or an index artifact. -/
structure Requirer where
  identity : ArtifactIdentity
  version : SemVer
  requires : List ArtifactSelector
deriving DecidableEq

def NativeArtifactPackage.requirer (package : NativeArtifactPackage) : Requirer :=
  ⟨package.manifest.identity, package.manifest.version, package.manifest.requires⟩

def IndexArtifact.requirer (artifact : IndexArtifact) : Requirer :=
  ⟨artifact.identity, artifact.version, artifact.requires⟩

def dependencyScopeError {α : Type} (code : DiagnosticCode) (requiring dependency : ArtifactIdentity)
    (referencedFrom : Option String) : Result α :=
  match referencedFrom with
  | none =>
      error code (requiring.str ++ " requires " ++ dependency.str ++
        ", which this registry does not publish; requires resolves inside one registry")
  | some origin =>
      error code (requiring.str ++ " requires " ++ dependency.str ++
        ", which this registry references from " ++ origin ++
        " rather than owning; requires resolves against artifacts this registry owns")

/-- How one of the two validators reports. -/
structure DependencyReport where
  code : DiagnosticCode
  /-- What stands before the identity of an artifact that excludes a dependency. -/
  subject : String
  /-- The origin of an identity that the surrounding registry references from elsewhere. -/
  elsewhere : ArtifactIdentity → Option String

def resolveSelector (report : DependencyReport) (all : List Requirer) (item : Requirer)
    (selector : ArtifactSelector) : Result ArtifactIdentity :=
  match lastKeyed? (all.map fun other => (other.identity, other)) selector.identity with
  | none => dependencyScopeError report.code item.identity selector.identity (report.elsewhere selector.identity)
  | some dependency =>
      if selector.allows dependency.version then .ok selector.identity
      else error report.code (report.subject ++ item.identity.str ++ " excludes available dependency " ++
        selector.identity.str)

def dependencyEdges (report : DependencyReport) (all : List Requirer) :
    Result (List (ArtifactIdentity × List ArtifactIdentity)) :=
  all.mapM fun item => do
    let resolved ← item.requires.mapM (resolveSelector report all item)
    return (item.identity, sortedBy (·.str) resolved)

/-- The visit of one artifact: those on the trail are a cycle, finished ones are passed over. -/
def dependencyVisitor (code : DiagnosticCode) (edges : List (ArtifactIdentity × List ArtifactIdentity)) :
    Search.Visitor ArtifactIdentity Unit Unit (List Diagnostic) where
  nodes := edges.map Prod.fst
  expand identity :=
    match lastKeyed? edges identity with
    | some dependencies => .ok ((), dependencies)
    | none => .error [⟨⟨"KeyError"⟩, identity.str⟩]
  expand_mem := by
    intro identity own next h
    split at h
    · rename_i hfound
      exact List.mem_map.mpr ⟨_, mem_of_lastKeyed? hfound, rfl⟩
    · exact absurd h (by simp)
  combine _ _ := ()
  cycle trail identity :=
    [⟨code, "artifact dependency cycle: " ++
      String.intercalate " -> " ((trail ++ [identity]).map (·.str))⟩]
  trailFirst := true

def visitDependencies (code : DiagnosticCode) (edges : List (ArtifactIdentity × List ArtifactIdentity)) :
    Result Unit := do
  let _ ← (dependencyVisitor code edges).visitAll [] [] (sortedBy (·.str) (edges.map Prod.fst).dedup)
  return ()

def validateDependencies (report : DependencyReport) (all : List Requirer) : Result Unit := do
  let edges ← dependencyEdges report all
  visitDependencies report.code edges

/-- The validator of a native source. -/
def validateDeclaredDependencies (packages : List NativeArtifactPackage)
    (referencedOrigins : ArtifactIdentity → Option String) : Result Unit :=
  validateDependencies ⟨artifactInvalid, "", referencedOrigins⟩ (packages.map (·.requirer))

/-- The dependency part of the validation of a registry graph. -/
def validateArtifactDependencies (artifacts : List IndexArtifact) : Result Unit :=
  validateDependencies ⟨registryGraphInvalid, "artifact ", fun _ => none⟩ (artifacts.map (·.requirer))

/-! ## Complete graphs without cycles -/

/-- One artifact requires another. -/
def Requires (all : List Requirer) (a b : ArtifactIdentity) : Prop :=
  ∃ item ∈ all, item.identity = a ∧ ∃ selector ∈ item.requires, selector.identity = b

structure Resolvable (all : List Requirer) : Prop where
  present : ∀ item ∈ all, ∀ selector ∈ item.requires, ∃ other ∈ all, other.identity = selector.identity
  allowed : ∀ item ∈ all, ∀ selector ∈ item.requires, ∀ other ∈ all, other.identity = selector.identity →
    ∀ bounds, selector.version = some bounds → bounds.allows other.version = true
  acyclic : ∀ identity, ¬ Relation.TransGen (Requires all) identity identity

theorem resolvable_of_requires_nothing {all : List Requirer} (h : ∀ item ∈ all, item.requires = []) :
    Resolvable all where
  present item hitem selector hselector := by
    rw [h item hitem] at hselector
    cases hselector
  allowed item hitem selector hselector := by
    rw [h item hitem] at hselector
    cases hselector
  acyclic identity hcycle := by
    obtain ⟨_, ⟨item, hitem, _, selector, hselector, _⟩, _⟩ := Relation.TransGen.head'_iff.mp hcycle
    rw [h item hitem] at hselector
    cases hselector

section Edges

variable {report : DependencyReport} {all : List Requirer}

theorem ArtifactSelector.allows_iff (selector : ArtifactSelector) (version : SemVer) :
    selector.allows version = true ↔ ∀ bounds, selector.version = some bounds → bounds.allows version = true := by
  unfold ArtifactSelector.allows
  cases selector.version <;> simp

theorem dependencyScopeError_ne_ok {α : Type} (code : DiagnosticCode) (requiring dependency : ArtifactIdentity)
    (referencedFrom : Option String) (value : α) :
    dependencyScopeError code requiring dependency referencedFrom ≠ .ok value := by
  cases referencedFrom <;> simp [dependencyScopeError, error]

/-- A selector resolves to the one artifact it names. -/
theorem resolveSelector_ok_iff (hall : (all.map (·.identity)).Nodup) (item : Requirer)
    (selector : ArtifactSelector) :
    resolveSelector report all item selector = .ok selector.identity ↔
      ∃ other ∈ all, other.identity = selector.identity ∧ selector.allows other.version = true := by
  have hkeys : ((all.map fun other => (other.identity, other)).map Prod.fst).Nodup := by
    simpa [Function.comp_def] using hall
  unfold resolveSelector
  cases hfound : lastKeyed? (all.map fun other => (other.identity, other)) selector.identity with
  | none =>
      refine iff_of_false (dependencyScopeError_ne_ok _ _ _ _ _) ?_
      · rintro ⟨other, hother, hidentity, _⟩
        exact lastKeyed?_eq_none hfound (List.mem_map.mpr ⟨other, hother, by rw [hidentity]⟩)
  | some dependency =>
      obtain ⟨other, hother, heq⟩ := List.mem_map.mp (mem_of_lastKeyed? hfound)
      obtain ⟨hidentity, rfl⟩ := Prod.mk.inj heq
      simp only
      constructor
      · intro h
        by_cases hallows : selector.allows other.version = true
        · exact ⟨other, hother, hidentity, hallows⟩
        · rw [if_neg hallows] at h
          exact absurd h (by simp [error])
      · rintro ⟨named, hnamed, hsame, hallows⟩
        have hentry : (named.identity, named) ∈ all.map fun other => (other.identity, other) :=
          List.mem_map.mpr ⟨named, hnamed, rfl⟩
        have hnamedFound := lastKeyed?_of_mem hkeys hentry
        rw [hsame, hfound] at hnamedFound
        obtain rfl := Option.some.inj hnamedFound
        rw [if_pos hallows]

theorem identity_of_resolveSelector {item : Requirer} {selector : ArtifactSelector} {identity : ArtifactIdentity}
    (h : resolveSelector report all item selector = .ok identity) : identity = selector.identity := by
  unfold resolveSelector at h
  split at h
  · exact absurd h (dependencyScopeError_ne_ok _ _ _ _ _)
  · split at h
    · exact (Except.ok.inj h).symm
    · exact absurd h (by simp [error])

def declaredEdges (item : Requirer) : ArtifactIdentity × List ArtifactIdentity :=
  (item.identity, sortedBy (·.str) (item.requires.map (·.identity)))

theorem dependencyEdges_of_resolved
    (h : ∀ item ∈ all, ∀ selector ∈ item.requires, resolveSelector report all item selector = .ok selector.identity) :
    dependencyEdges report all = .ok (all.map declaredEdges) := by
  refine Result.mapM_of_forall_ok fun item hitem => ?_
  rw [Result.mapM_of_forall_ok (h item hitem)]
  rfl

theorem resolved_of_dependencyEdges {edges : List (ArtifactIdentity × List ArtifactIdentity)}
    (h : dependencyEdges report all = .ok edges) {item : Requirer} (hitem : item ∈ all)
    {selector : ArtifactSelector} (hselector : selector ∈ item.requires) :
    resolveSelector report all item selector = .ok selector.identity := by
  obtain ⟨_, _, hok⟩ := Result.ok_of_mapM_ok h hitem
  obtain ⟨resolved, hresolved, _⟩ := Result.of_bind_ok hok
  obtain ⟨identity, _, hidentity⟩ := Result.ok_of_mapM_ok hresolved hselector
  rw [hidentity, identity_of_resolveSelector hidentity]

/-- The edges of the visit are the declared requirements. -/
theorem edge_iff_requires (hall : (all.map (·.identity)).Nodup) (code : DiagnosticCode)
    (a b : ArtifactIdentity) :
    (dependencyVisitor code (all.map declaredEdges)).Edge a b ↔ Requires all a b := by
  have hkeys : ((all.map declaredEdges).map Prod.fst).Nodup := by
    simpa [declaredEdges, Function.comp_def] using hall
  constructor
  · rintro ⟨own, next, hexpand, hb⟩
    simp only [dependencyVisitor] at hexpand
    split at hexpand
    · rename_i dependencies hfound
      obtain ⟨_, rfl⟩ := Prod.mk.inj (Except.ok.inj hexpand)
      obtain ⟨item, hitem, heq⟩ := List.mem_map.mp (mem_of_lastKeyed? hfound)
      obtain ⟨rfl, rfl⟩ := Prod.mk.inj heq
      obtain ⟨selector, hselector, hidentity⟩ := List.mem_map.mp (mem_sortedBy.mp hb)
      exact ⟨item, hitem, rfl, selector, hselector, hidentity⟩
    · exact absurd hexpand (by simp)
  · rintro ⟨item, hitem, rfl, selector, hselector, rfl⟩
    have hfound := lastKeyed?_of_mem hkeys (List.mem_map.mpr ⟨item, hitem, rfl⟩ : declaredEdges item ∈ _)
    refine ⟨(), (declaredEdges item).2, ?_, mem_sortedBy.mpr (List.mem_map.mpr ⟨selector, hselector, rfl⟩)⟩
    simp only [dependencyVisitor]
    rw [show lastKeyed? (all.map declaredEdges) item.identity = some (declaredEdges item).2 from hfound]

theorem visitDependencies_ok_iff (hall : (all.map (·.identity)).Nodup) (code : DiagnosticCode)
    (hpresent : ∀ item ∈ all, ∀ selector ∈ item.requires, ∃ other ∈ all, other.identity = selector.identity) :
    visitDependencies code (all.map declaredEdges) = .ok () ↔
      ∀ identity, ¬ Relation.TransGen (Requires all) identity identity := by
  let visitor := dependencyVisitor code (all.map declaredEdges)
  have hedge : visitor.Edge = Requires all := funext fun a => funext fun b =>
    propext (edge_iff_requires hall code a b)
  have hroots (identity : ArtifactIdentity) :
      identity ∈ sortedBy (·.str) ((all.map declaredEdges).map Prod.fst).dedup ↔
        ∃ item ∈ all, item.identity = identity := by
    rw [mem_sortedBy, List.mem_dedup, List.map_map, List.mem_map]
    rfl
  have hreached {a b : ArtifactIdentity} (ha : ∃ item ∈ all, item.identity = a)
      (hpath : Relation.ReflTransGen (Requires all) a b) : ∃ item ∈ all, item.identity = b := by
    induction hpath with
    | refl => exact ha
    | tail _ hstep _ =>
        obtain ⟨item, hitem, _, selector, hselector, rfl⟩ := hstep
        exact hpresent item hitem selector hselector
  have hexpands {a : ArtifactIdentity} (ha : ∃ item ∈ all, item.identity = a) :
      ∃ own next, visitor.expand a = .ok (own, next) := by
    obtain ⟨item, hitem, rfl⟩ := ha
    have hentry : declaredEdges item ∈ all.map declaredEdges := List.mem_map.mpr ⟨item, hitem, rfl⟩
    cases hfound : lastKeyed? (all.map declaredEdges) item.identity with
    | none => exact absurd hentry (lastKeyed?_eq_none hfound)
    | some dependencies =>
        exact ⟨(), dependencies, by simp only [visitor, dependencyVisitor, hfound]⟩
  have hverdict : visitDependencies code (all.map declaredEdges) = .ok () ↔
      ∃ result, visitor.visitAll [] [] (sortedBy (·.str) ((all.map declaredEdges).map Prod.fst).dedup) =
        .ok result := by
    unfold visitDependencies
    constructor
    · intro h
      obtain ⟨result, hresult, _⟩ := Result.of_bind_ok h
      exact ⟨result, hresult⟩
    · rintro ⟨result, hresult⟩
      exact congrArg (· >>= fun _ => pure ()) hresult
  rw [hverdict, visitor.visitAll_ok_iff, hedge]
  constructor
  · intro hsound identity hcycle
    obtain ⟨_, hstep, _⟩ := Relation.TransGen.head'_iff.mp hcycle
    obtain ⟨item, hitem, hidentity, _⟩ := hstep
    exact (hsound identity ((hroots identity).mpr ⟨item, hitem, hidentity⟩) identity .refl).2 hcycle
  · intro hacyclic root hroot node hpath
    exact ⟨hexpands (hreached ((hroots root).mp hroot) hpath), hacyclic node⟩

theorem validateDependencies_ok_iff (report : DependencyReport) (hall : (all.map (·.identity)).Nodup) :
    validateDependencies report all = .ok () ↔ Resolvable all := by
  constructor
  · intro h
    obtain ⟨edges, hedges, hvisit⟩ := Result.of_bind_ok h
    have hresolved (item : Requirer) (hitem : item ∈ all) (selector : ArtifactSelector)
        (hselector : selector ∈ item.requires) :=
      (resolveSelector_ok_iff hall item selector).mp (resolved_of_dependencyEdges hedges hitem hselector)
    have hpresent : ∀ item ∈ all, ∀ selector ∈ item.requires,
        ∃ other ∈ all, other.identity = selector.identity := by
      intro item hitem selector hselector
      obtain ⟨other, hother, hidentity, _⟩ := hresolved item hitem selector hselector
      exact ⟨other, hother, hidentity⟩
    rw [dependencyEdges_of_resolved fun item hitem selector hselector =>
      resolved_of_dependencyEdges hedges hitem hselector] at hedges
    obtain rfl := Except.ok.inj hedges
    refine ⟨hpresent, ?_, (visitDependencies_ok_iff hall report.code hpresent).mp hvisit⟩
    intro item hitem selector hselector other hother hidentity
    obtain ⟨named, hnamed, hsame, hallows⟩ := hresolved item hitem selector hselector
    have heq := List.inj_on_of_nodup_map hall hother hnamed (hidentity.trans hsame.symm)
    rw [heq]
    exact (selector.allows_iff named.version).mp hallows
  · intro h
    have hedges : dependencyEdges report all = .ok (all.map declaredEdges) := by
      refine dependencyEdges_of_resolved fun item hitem selector hselector => ?_
      obtain ⟨other, hother, hidentity⟩ := h.present item hitem selector hselector
      exact (resolveSelector_ok_iff hall item selector).mpr ⟨other, hother, hidentity,
        (selector.allows_iff other.version).mpr (h.allowed item hitem selector hselector other hother hidentity)⟩
    have hvisit := (visitDependencies_ok_iff hall report.code h.present).mpr h.acyclic
    unfold validateDependencies
    rw [hedges]
    exact hvisit

end Edges

/-- Both validators accept exactly the graphs that are complete, within their bounds
and without a cycle, and so give one verdict on packages and on their index. -/
theorem dependency_validators_accept_resolvable (packages : List NativeArtifactPackage)
    (hpackages : (packages.map (·.manifest.identity)).Nodup)
    (referencedOrigins : ArtifactIdentity → Option String) (artifacts : List IndexArtifact)
    (hartifacts : (artifacts.map (·.identity)).Nodup) (sourceId : SourceId)
    (object : NativeArtifactPackage → ObjectDigest) (review : NativeArtifactPackage → Option ReviewRecord)
    (collections : NativeArtifactPackage → List String) :
    (validateDeclaredDependencies packages referencedOrigins = .ok () ↔
      Resolvable (packages.map (·.requirer))) ∧
    (validateArtifactDependencies artifacts = .ok () ↔ Resolvable (artifacts.map (·.requirer))) ∧
    (validateArtifactDependencies (packages.map fun package =>
        indexArtifactFromPackage package sourceId (object package) (review package) (collections package)) =
        .ok () ↔
      validateDeclaredDependencies packages referencedOrigins = .ok ()) := by
  have hdeclared : ((packages.map (·.requirer)).map (·.identity)).Nodup := by
    simpa [NativeArtifactPackage.requirer, Function.comp_def] using hpackages
  have hindexed : ((artifacts.map (·.requirer)).map (·.identity)).Nodup := by
    simpa [IndexArtifact.requirer, Function.comp_def] using hartifacts
  have hproject : (packages.map fun package => indexArtifactFromPackage package sourceId (object package)
      (review package) (collections package)).map (·.requirer) = packages.map (·.requirer) := by
    rw [List.map_map]
    rfl
  refine ⟨validateDependencies_ok_iff _ hdeclared, validateDependencies_ok_iff _ hindexed, ?_⟩
  unfold validateArtifactDependencies validateDeclaredDependencies
  rw [hproject, validateDependencies_ok_iff _ hdeclared, validateDependencies_ok_iff _ hdeclared]

/-- A skill without payload of interest, as samples need it. -/
def tidyPackage (requires : List ArtifactSelector) : NativeArtifactPackage where
  manifest :=
    { identity := ⟨.skill, ⟨"tidy", by decide⟩⟩
      version := { major := 1, minor := 0, patch := 0 }
      summary := "tidy"
      compatibility := ⟨["claude"], ["macos"]⟩
      install := ⟨[.project], [.copy], [.copyTree]⟩
      requires }
  provenance := none
  manifestDigest := ⟨"0"⟩
  payloadDigest := ⟨"0"⟩

/-- Alone a skill without requirements is accepted, one that requires itself is not. -/
theorem dependency_validators_accept_resolvable_tidy :
    validateDeclaredDependencies [tidyPackage []] (fun _ => none) = .ok () ∧
      validateDeclaredDependencies [tidyPackage [⟨⟨.skill, ⟨"tidy", by decide⟩⟩, none⟩]] (fun _ => none) ≠
        .ok () := by
  have hverdict (requires : List ArtifactSelector) :=
    (dependency_validators_accept_resolvable [tidyPackage requires] (List.nodup_singleton _) (fun _ => none) []
      List.nodup_nil ⟨"team", by decide⟩ (fun _ => ⟨"0"⟩) (fun _ => none) (fun _ => [])).1
  constructor
  · exact (hverdict []).mpr (resolvable_of_requires_nothing (by decide))
  · intro haccepted
    have hresolvable := (hverdict _).mp haccepted
    refine hresolvable.acyclic ⟨.skill, ⟨"tidy", by decide⟩⟩ (.single ?_)
    exact ⟨_, List.mem_singleton_self _, rfl, _, List.mem_singleton_self _, rfl⟩

end AgentArtifacts.Registry
