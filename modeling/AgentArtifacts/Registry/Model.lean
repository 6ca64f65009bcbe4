import AgentArtifacts.Marketplace
import AgentArtifacts.Protocol.SemVer
import Mathlib.Data.List.Dedup
import Mathlib.Data.List.Sort

/-!
# Packages, index artifacts and collections

What the compilers of a registry and of the marketplace work on. An index
artifact repeats what a package declares, with the digest of its object and the
collections it is a member of.
-/

namespace AgentArtifacts.Registry

/-! ## Python collections -/

/-- `sorted` by a key; items of one key keep their order. -/
def sortedBy {α κ : Type} [LinearOrder κ] (key : α → κ) (items : List α) : List α :=
  items.insertionSort fun a b => key a ≤ key b

theorem perm_sortedBy {α κ : Type} [LinearOrder κ] (key : α → κ) (items : List α) :
    (sortedBy key items).Perm items :=
  List.perm_insertionSort (fun a b => key a ≤ key b) items

theorem mem_sortedBy {α κ : Type} [LinearOrder κ] {key : α → κ} {items : List α} {item : α} :
    item ∈ sortedBy key items ↔ item ∈ items :=
  (perm_sortedBy key items).mem_iff

/-- `sorted(set(...))` of texts. -/
def sortedSet (items : List String) : List String := sortedBy id items.dedup

/-- `dict.get` after insertions in order: a later one replaces an earlier one. -/
def lastKeyed? {α β : Type} [DecidableEq α] (entries : List (α × β)) (key : α) : Option β :=
  entries.reverse.lookup key

section Entries

variable {α β : Type} [DecidableEq α] {entries : List (α × β)} {key : α} {value : β}

theorem mem_of_lastKeyed? (h : lastKeyed? entries key = some value) : (key, value) ∈ entries := by
  obtain ⟨before, after, heq, _⟩ := List.lookup_eq_some_iff.mp h
  have hmem : (key, value) ∈ entries.reverse := by
    rw [heq]
    simp
  exact List.mem_reverse.mp hmem

theorem lastKeyed?_eq_none (h : lastKeyed? entries key = none) : (key, value) ∉ entries := by
  intro hmem
  have hne := List.lookup_eq_none_iff.mp h (key, value) (List.mem_reverse.mpr hmem)
  exact absurd hne (by simp)

/-- Where no key occurs twice, the entry of a key is the one that is found. -/
theorem lastKeyed?_of_mem (hkeys : (entries.map Prod.fst).Nodup) (h : (key, value) ∈ entries) :
    lastKeyed? entries key = some value := by
  cases hfound : lastKeyed? entries key with
  | none => exact absurd h (lastKeyed?_eq_none hfound)
  | some other =>
      have hother := mem_of_lastKeyed? hfound
      have hsame := List.inj_on_of_nodup_map hkeys hother h rfl
      rw [(Prod.mk.inj hsame).2]

end Entries

/-! ## Declarations -/

structure Capability where
  value : String
deriving DecidableEq

inductive InstallEffect where
  | copyTree
  | writeFile
  | mergeJson
  | managedBlock
deriving DecidableEq

def InstallEffect.value : InstallEffect → String
  | .copyTree => "copy-tree"
  | .writeFile => "write-file"
  | .mergeJson => "merge-json"
  | .managedBlock => "managed-block"

structure CompatibilitySpec where
  profiles : List String
  platforms : List String
deriving DecidableEq

structure InstallSpec where
  scopes : List InstallScope
  modes : List InstallMode
  effects : List InstallEffect
deriving DecidableEq

structure SetupReference where
  recipe : SafeRelativePath
  platforms : List String
deriving DecidableEq

structure ArtifactSelector where
  identity : ArtifactIdentity
  version : Option VersionBounds := none
deriving DecidableEq

/-- Whether a selector takes a version of the artifact it names. -/
def ArtifactSelector.allows (selector : ArtifactSelector) (version : SemVer) : Bool :=
  selector.version.all fun bounds => bounds.allows version

/-- Names of collections are slugs, as their parser demands. -/
structure CollectionManifest where
  name : Slug
  summary : String
  artifacts : List ArtifactSelector
  collections : List Slug := []
deriving DecidableEq

structure ArtifactManifest where
  identity : ArtifactIdentity
  version : SemVer
  summary : String
  compatibility : CompatibilitySpec
  install : InstallSpec
  setup : Option SetupReference := none
  requiresAart : VersionBounds := {}
  requires : List ArtifactSelector := []
deriving DecidableEq

/-! ## Packages -/

/-- The steps of a setup recipe by the module they use. -/
structure SetupInstaller where
  steps : List String
  customEntrypoint : Option String := none
deriving DecidableEq

def plannedCapabilitiesOf : String → List String
  | "macos-keychain.store@1" => ["keychain"]
  | "shell.env-from-keychain@1" => ["managed-file"]
  | "shell.env-from-input@1" => ["managed-file"]
  | "file.managed-block@1" => ["managed-file"]
  | "json.managed-merge@1" => ["managed-file"]
  | "directory.create@1" => ["managed-file"]
  | "docker.pull@1" => ["docker-pull", "network"]
  | "docker.build@1" => ["docker-build", "network", "process"]
  | "trust-store.export-certificates@1" => ["trust-store"]
  | "command.verify@1" => ["verify-command"]
  | _ => []

def plannedCapabilities (installer : SetupInstaller) : List String :=
  sortedSet (installer.steps.flatMap plannedCapabilitiesOf ++
    if installer.customEntrypoint.isSome then ["custom-code"] else [])

structure NativeArtifactPackage where
  manifest : ArtifactManifest
  /-- Origin URL, resolved commit and path of the provenance record. -/
  provenance : Option IndexProvenance
  manifestDigest : ObjectDigest
  payloadDigest : ObjectDigest
  setupInstaller : Option SetupInstaller := none
deriving DecidableEq

structure IndexSetup where
  recipe : SafeRelativePath
  platforms : List String
  capabilities : List Capability := []
deriving DecidableEq

structure ReviewRecord where
  status : String
  policy : String
deriving DecidableEq

/-- An artifact of an index with everything it declares. -/
structure IndexArtifact where
  sourceId : SourceId
  identity : ArtifactIdentity
  version : SemVer
  summary : String
  manifestDigest : ObjectDigest
  payloadDigest : ObjectDigest
  objectDigest : ObjectDigest
  compatibility : CompatibilitySpec
  install : InstallSpec
  setup : Option IndexSetup := none
  review : Option ReviewRecord := none
  provenance : Option IndexProvenance := none
  collections : List String := []
  requiresAart : VersionBounds := {}
  requires : List ArtifactSelector := []
deriving DecidableEq

/-- The index artifact of a package; no payload is copied. -/
def indexArtifactFromPackage (package : NativeArtifactPackage) (sourceId : SourceId)
    (objectDigest : ObjectDigest) (review : Option ReviewRecord) (collections : List String) :
    IndexArtifact where
  sourceId
  identity := package.manifest.identity
  version := package.manifest.version
  summary := package.manifest.summary
  manifestDigest := package.manifestDigest
  payloadDigest := package.payloadDigest
  objectDigest
  compatibility := package.manifest.compatibility
  install := package.manifest.install
  setup := package.manifest.setup.map fun setup =>
    { recipe := setup.recipe
      platforms := setup.platforms
      capabilities := match package.setupInstaller with
        | none => []
        | some installer => (plannedCapabilities installer).map Capability.mk }
  review
  provenance := package.provenance
  collections := sortedSet collections
  requiresAart := package.manifest.requiresAart
  requires := package.manifest.requires

end AgentArtifacts.Registry
