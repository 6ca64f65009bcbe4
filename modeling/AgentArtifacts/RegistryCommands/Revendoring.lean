import AgentArtifacts.RegistryCommands.Compiling
import AgentArtifacts.Vendoring.Assessment
import AgentArtifacts.Vendoring.Evidence

/-!
# Re-vendoring a copy

A vendored package records where it came from. Its upstream is taken again and compared with
the copy, first by the digests of the rebuilt trees and then by counting files. Where the
maintainer names a version, the package is projected anew over its directory.
-/

namespace AgentArtifacts.RegistryCommands

open Maintenance (NativeReferenceAcquisition)
open Native (ArtifactManifest Provenance parseArtifactManifest parseProvenance)
open Registry (PackageEntries ReviewRecord entryAt sortedBy)
open Security (ScanRuntime SecurityAssessment SetupReader)
open Vendoring (CopyIntegrity DeliveryFinding LicenseText PackageFile VendorOptions VendorRecord VendoredPackage assessVendoredPackage
  packageDelivery projectVendoredPackage readVendorRecord vendorImporterId verifyVendoredCopy)

/-! ## What a copy records -/

structure VendoredArtifactOrigin where
  base : String
  url : String
  ref : String
  path : SafeRelativePath
  recordedCommit : String
  inputDigest : ObjectDigest
  manifest : ArtifactManifest
  authored : List String
deriving DecidableEq

/-- The entries of a workspace by their paths. -/
def byPath (entries : List SnapshotEntry) : PackageEntries := entries.map fun entry => (entry.path.str, entry)

section Revendoring

variable [StandardLibrary]

/-- `read_vendored_package`. -/
def readVendoredPackage (files : List SnapshotEntry) (base : String) (manifest : ArtifactManifest) :
    Result VendoredArtifactOrigin :=
  match entryAt files (base ++ "/provenance.json") with
  | none =>
      commandError (manifest.identity.str ++
        " records no provenance, so it was not vendored; refresh-native updates a native reference")
  | some entry => do
      let provenance ← parseProvenance entry.content
      let record ← readVendorRecord provenance
      return ⟨base, provenance.origin.url, record.ref, provenance.origin.path, provenance.origin.resolvedCommit,
        provenance.origin.inputDigest, manifest, record.authored⟩

def artifactBase (root : SafeRelativePath) (identity : ArtifactIdentity) : String :=
  root.str ++ "/" ++ identity.kind.value ++ "/" ++ identity.name.value

/-- `read_vendored_artifact`; the manifest of a source has an artifact root. -/
def readVendoredArtifact (snapshot : SourceSnapshot) (identity : ArtifactIdentity) : Result VendoredArtifactOrigin := do
  let current ← files snapshot
  let source ← sourceManifest current
  let base := artifactBase (source.artifactRoots.headD ⟨[]⟩) identity
  match entryAt current (base ++ "/artifact.json") with
  | none => commandError ("registry has no artifact package " ++ identity.str)
  | some entry => do
      let manifest ← parseArtifactManifest entry.content
      readVendoredPackage current base manifest

variable {entries : List SnapshotEntry} {snapshot : SourceSnapshot}

/-- What a copy records, from the documents that it is read from. -/
theorem readVendoredPackage_of_parts {base : String} {manifest : ArtifactManifest} {entry : SnapshotEntry}
    {provenance : Provenance} {record : VendorRecord}
    (hentry : entryAt entries (base ++ "/provenance.json") = some entry)
    (hprovenance : parseProvenance entry.content = .ok provenance)
    (hrecord : readVendorRecord provenance = .ok record) :
    readVendoredPackage entries base manifest = .ok ⟨base, provenance.origin.url, record.ref, provenance.origin.path,
      provenance.origin.resolvedCommit, provenance.origin.inputDigest, manifest, record.authored⟩ := by
  unfold readVendoredPackage
  rw [hentry]
  simp only [bind, Except.bind, hprovenance, hrecord]
  rfl

theorem readVendoredArtifact_of_parts {identity : ArtifactIdentity} {source : Native.SourceManifest} {base : String}
    {manifest : ArtifactManifest} {entry : SnapshotEntry} {found : VendoredArtifactOrigin}
    (hfiles : files snapshot = .ok snapshot.entries) (hsource : sourceManifest snapshot.entries = .ok source)
    (hbase : artifactBase (source.artifactRoots.headD ⟨[]⟩) identity = base)
    (hentry : entryAt snapshot.entries (base ++ "/artifact.json") = some entry)
    (hmanifest : parseArtifactManifest entry.content = .ok manifest)
    (hpackage : readVendoredPackage snapshot.entries base manifest = .ok found) :
    readVendoredArtifact snapshot identity = .ok found := by
  unfold readVendoredArtifact
  rw [hfiles]
  simp only [bind, Except.bind, hsource]
  rw [hbase, hentry]
  simp only [hmanifest, hpackage]

theorem sourceManifest_of_parts {marker : SnapshotEntry} {source : Native.SourceManifest}
    (hmarker : entryAt entries "aart-source.json" = some marker) (hfile : marker.isFile = true)
    (hparsed : Native.parseSourceManifest marker.content = .ok source) (hartifacts : source.artifactRoots = [⟨["artifacts"]⟩])
    (hcollections : source.collectionRoots = [] ∨ source.collectionRoots = [⟨["collections"]⟩]) :
    sourceManifest entries = .ok source := by
  unfold sourceManifest
  rw [hmarker, Option.filter_some, if_pos hfile]
  have hchecked : (source.artifactRoots != [⟨["artifacts"]⟩] ||
      !(source.collectionRoots == [] || source.collectionRoots == [⟨["collections"]⟩])) = false := by
    rcases hcollections with hnone | hone
    · simp [hartifacts, hnone]
    · simp [hartifacts, hone]
  simp only [bind, Except.bind, hparsed, hchecked, Schema.refuse, Bool.false_eq_true, if_false]
  rfl

/-- `verify_vendored_copy` of what a copy records. -/
def VendoredArtifactOrigin.verify (vendored : VendoredArtifactOrigin) (files : List SnapshotEntry) : Result CopyIntegrity :=
  verifyVendoredCopy (byPath files) vendored.base vendored.manifest.payload.root vendored.authored vendored.inputDigest

/-! ## Drift -/

/-- The files of the package that are neither authored nor derived. -/
def VendoredArtifactOrigin.copiedFiles (vendored : VendoredArtifactOrigin) (files : List SnapshotEntry) :
    List SnapshotEntry :=
  let authored := vendored.authored.map (fun relative => vendored.base ++ "/" ++ relative) ++
    [vendored.base ++ "/artifact.json", vendored.base ++ "/provenance.json"]
  files.filter fun entry => startsWith (vendored.base ++ "/") entry.path.str && entry.kind == .file &&
    !authored.contains entry.path.str

/-- The files of the taken subtree, under the paths that they would have in the package. -/
def VendoredArtifactOrigin.upstreamFiles (vendored : VendoredArtifactOrigin) (taken : TakenSubtree) : PackageEntries :=
  (taken.snapshot.entries.filter SnapshotEntry.isFile).map fun entry =>
    (vendored.base ++ "/" ++ vendored.manifest.payload.root.str ++ "/" ++ entry.path.str, entry)

/-- How many files are added, changed and removed. -/
structure DriftCounts where
  added : Nat
  changed : Nat
  removed : Nat
deriving DecidableEq

/-- `_drift_counts`. -/
def driftCounts (files : List SnapshotEntry) (vendored : VendoredArtifactOrigin) (taken : TakenSubtree) : DriftCounts :=
  let copied := vendored.copiedFiles files
  let upstream := vendored.upstreamFiles taken
  { added := upstream.countP fun item => (entryAt copied item.1).isNone
    changed := upstream.countP fun item =>
      (entryAt copied item.1).any fun known => known.content != item.2.content || known.executable != item.2.executable
    removed := copied.countP fun entry => !(upstream.map Prod.fst).contains entry.path.str }

inductive NativeReferenceDisposition where
  | upToDate
  | changed
  | unreachable
deriving DecidableEq

structure VendoredArtifactCheck where
  disposition : NativeReferenceDisposition
  resolvedCommit : String
  recordedCommit : String
  counts : DriftCounts
  plan : Option RegistryWorkspacePlan := none
  assessment : Option SecurityAssessment := none
  delivery : Option DeliveryFinding := none
deriving DecidableEq

/-! ## Planning -/

/-- `copy_integrity_message`. -/
def copyIntegrityMessage (identity : ArtifactIdentity) (integrity : CopyIntegrity) : String :=
  "vendored artifact no longer matches the origin it records: " ++ identity.str ++ " (" ++ toString integrity.files ++
    " copied payload files digest to " ++ integrity.recomputed.str ++ ", provenance records " ++ integrity.recorded.str ++
    "). The copy was edited after vendoring, translated on checkout, or replaced; AART has no patched-copy record, so a copy that must differ from upstream is vendored from a fork that contains the difference"

/-- An authored file as it stands in the package. -/
def authoredEntry (files : List SnapshotEntry) (base relative : String) : Result PackageFile :=
  match (entryAt files (base ++ "/" ++ relative)).filter SnapshotEntry.isFile with
  | none => commandError ("the authored file recorded with this copy is missing: " ++ relative)
  | some entry => .ok ⟨relative, entry.content, entry.executable⟩

/-- What the manifest of a copy says anew when it is projected again. -/
def revendorOptions (manifest : ArtifactManifest) (version : SemVer) (authored : List PackageFile) : VendorOptions where
  identity := manifest.identity
  version := version
  summary := manifest.summary
  profiles := manifest.compatibility.profiles
  platforms := manifest.compatibility.platforms
  scopes := manifest.install.scopes
  modes := manifest.install.modes
  setupRecipe := manifest.setup.map (·.recipe)
  setupPlatforms := (manifest.setup.map (·.platforms)).getD []
  authored := authored
  warnings := []
  license := manifest.license

def desiredFile (file : PackageFile) : DesiredFile := ⟨file.path, file.content, file.executable⟩

variable [LicenseText] [ScanRuntime]

/-- The package that a new version of a copy projects. -/
def revendoredPackage (files : List SnapshotEntry) (acquisition : NativeReferenceAcquisition) (vendored : VendoredArtifactOrigin)
    (taken : TakenSubtree) (version importerVersion : SemVer) : Result VendoredPackage := do
  let authored ← vendored.authored.mapM (authoredEntry files vendored.base)
  let artifactRoot ← assertedPath ((splitChar '/' vendored.base).headD "")
  projectVendoredPackage taken ⟨vendored.url, vendored.ref, acquisition.resolvedCommit⟩
    (revendorOptions vendored.manifest version authored) artifactRoot importerVersion

/-- The plan over the directory of the package, with the evidence of its assessment. -/
def planRevendored (readSetup : SetupReader) (snapshot : SourceSnapshot) (files : List SnapshotEntry) (base : String)
    (package : VendoredPackage) : Result (RegistryWorkspacePlan × SecurityAssessment) := do
  let source ← sourceManifest files
  let assessed ← assessVendoredPackage readSetup package source.sourceId
  let plan ← planWorkspace .revendor snapshot
    (package.files.map desiredFile ++ [⟨assessed.documentPath, assessed.document, false⟩]) (some base)
  return (plan, assessed.assessment)

/-- `plan_artifact_revendor`. -/
def planArtifactRevendor (readSetup : SetupReader) (snapshot : SourceSnapshot) (acquisition : NativeReferenceAcquisition)
    (vendored : VendoredArtifactOrigin) (version : Option SemVer) (review : ReviewRecord) (importerVersion : SemVer) :
    Result VendoredArtifactCheck :=
  if review.status ≠ "approved" then commandError "re-vendoring requires an approved review record"
  else if acquisition.url ≠ vendored.url ∨ acquisition.requestedRef ≠ vendored.ref then
    commandError "the acquisition does not resolve the recorded vendoring instruction"
  else do
    let current ← files snapshot
    let integrity ← vendored.verify current
    if !integrity.matches then commandError (copyIntegrityMessage vendored.manifest.identity integrity)
    else
      let taken ← takeSubtree acquisition.snapshot vendored.path {}
      if taken.inputDigest = integrity.recomputed then
        return ⟨.upToDate, acquisition.resolvedCommit, vendored.recordedCommit, ⟨0, 0, 0⟩, none, none, none⟩
      else
        let drifted : VendoredArtifactCheck :=
          ⟨.changed, acquisition.resolvedCommit, vendored.recordedCommit, driftCounts current vendored taken, none, none, none⟩
        match version with
        | none => return drifted
        | some version => do
            let package ← revendoredPackage current acquisition vendored taken version importerVersion
            let planned ← planRevendored readSetup snapshot current vendored.base package
            return { drifted with
              plan := some planned.1, assessment := some planned.2, delivery := packageDelivery package }

/-! ## The audit -/

omit [LicenseText] [ScanRuntime] in
/-- `_shipped_digest`. -/
def VendoredArtifactOrigin.shippedDigest (vendored : VendoredArtifactOrigin) (files : List SnapshotEntry) : ObjectDigest :=
  match vendored.verify files with
  | .error _ => vendored.inputDigest
  | .ok integrity => integrity.recomputed

abbrev NativeAcquirer := String → String → Result NativeReferenceAcquisition

/-- The disposition of `_vendored_upstream_findings`. -/
def upstreamDisposition (acquirer : NativeAcquirer) (files : List SnapshotEntry) (vendored : VendoredArtifactOrigin) :
    NativeReferenceDisposition :=
  match acquirer vendored.url vendored.ref with
  | .error _ => .unreachable
  | .ok acquired =>
      match takeSubtree acquired.snapshot vendored.path {} with
      | .error _ => .changed
      | .ok taken => if taken.inputDigest = vendored.shippedDigest files then .upToDate else .changed

/-- What the audit reads as a vendored copy at the manifest of a package. -/
def auditedCopy (files : List SnapshotEntry) (item : SnapshotEntry) : Option VendoredArtifactOrigin := do
  let base := removeSuffix "/artifact.json" item.path.str
  let manifest ← (parseArtifactManifest item.content).toOption
  let entry ← (entryAt files (base ++ "/provenance.json")).filter SnapshotEntry.isFile
  let provenance ← (parseProvenance entry.content).toOption
  if provenance.importer.id = vendorImporterId then (readVendoredPackage files base manifest).toOption else none

/-- The part of `audit_registry_workspace` that checks the copies against their upstreams. -/
def auditUpstream (acquirer : NativeAcquirer) (snapshot : SourceSnapshot) :
    Result (List (VendoredArtifactOrigin × NativeReferenceDisposition)) := do
  let (_, source, _) ← registryInputs snapshot
  let current ← files snapshot
  let manifests := (sortedBy (fun entry => entry.path.str) current).filter fun item =>
    item.isFile && endsWith "/artifact.json" item.path.str &&
      source.artifactRoots.any fun root => startsWith (root.str ++ "/") item.path.str
  return (manifests.filterMap (auditedCopy current)).map fun vendored =>
    (vendored, upstreamDisposition acquirer current vendored)

end Revendoring

end AgentArtifacts.RegistryCommands
