import AgentArtifacts.Protocol.Rereading
import AgentArtifacts.Registry.NativeSource

/-!
# A source that is loaded

What each stage of loading gives, put together: a package from its parts, and a source from
its packages.
-/

namespace AgentArtifacts.Registry

open Schema (refuse refuse_eq_ok)

variable [StandardLibrary]

section Package

variable {readSetup : Native.ArtifactManifest → PackageEntries → Result SetupInstaller} {members : PackageEntries}
  {expected : Option ArtifactIdentity} {manifest : Native.ArtifactManifest} {installer : Option SetupInstaller}
  {provenance : Option Native.Provenance} {digest : ObjectDigest}

theorem compilePackageEntries_of_parts (hmanifest : packageManifest members = .ok manifest)
    (hexpected : ∀ identity, expected = some identity → manifest.identity = identity)
    (hroots : packageRoots members = .ok ()) (hprimary : validatePrimaryPayload manifest.identity.kind members = .ok ())
    (hsetup : packageSetup readSetup manifest members = .ok installer)
    (hprovenance : packageProvenance members = .ok provenance) (hpayload : payloadDigest members = .ok digest) :
    compilePackageEntries readSetup members expected =
      .ok { manifest := declared manifest, provenance := provenance.map pinned,
            manifestDigest := jsonDigest (Native.artifactManifestToJson manifest), payloadDigest := digest,
            setupInstaller := installer } := by
  have hnamed : (expected.any fun identity => identity != manifest.identity) = false := by
    cases expected with
    | none => rfl
    | some identity => simp [hexpected identity rfl]
  simp only [compilePackageEntries, hmanifest, hnamed, hroots, hprimary, hsetup, hprovenance, hpayload, refuse, bind,
    Except.bind]
  rfl

theorem loadPackage_of_parts {executable : Executable} {entries : List SnapshotEntry} {candidate : PackageCandidate}
    {name : Slug} {package : NativeArtifactPackage}
    (hmembers : relativePackageEntries entries
      (candidate.root.str ++ "/" ++ candidate.kind.value ++ "/" ++ candidate.name) = members)
    (hname : Manifest.slugOf candidate.name = some name)
    (hpackage : compilePackageEntries executable.readSetup members (some ⟨candidate.kind, name⟩) = .ok package)
    (hprovenance : packageProvenance members = .ok provenance) :
    loadPackage executable entries candidate = .ok ⟨package, provenance⟩ := by
  rw [loadPackage, hmembers]
  simp only [hname, hpackage, hprovenance, bind, Except.bind]
  rfl

end Package

theorem loadNext_of_loaded {executable : Executable} {entries : List SnapshotEntry} {candidate : PackageCandidate}
    {loaded : List LoadedPackage} {found : LoadedPackage} (hfound : loadPackage executable entries candidate = .ok found)
    (hnew : found.package.manifest.identity ∉ loaded.map (·.package.manifest.identity)) :
    loadNext executable entries loaded candidate = .ok (loaded ++ [found]) := by
  rw [loadNext, hfound]
  simp only [refuse, hnew, bind, Except.bind, decide_false]
  rfl

theorem loadNativeSource_of_parts {executable : Executable} {snapshot : SourceSnapshot}
    {origins : ArtifactIdentity → Option String} {marker : SnapshotEntry} {manifest : Native.SourceManifest}
    {candidates : List PackageCandidate} {packages : List LoadedPackage} {collections : List Native.CollectionManifest}
    (hentries : validatedEntries snapshot = .ok snapshot.entries)
    (hmarker : (entryAt snapshot.entries "aart-source.json").filter SnapshotEntry.isFile = some marker)
    (hmanifest : Native.parseSourceManifest marker.content = .ok manifest)
    (hkinds : validateProtocolEntryKinds snapshot.entries manifest = .ok ())
    (hcompatible : compatibilityDiagnostics executable manifest = [])
    (hcandidates : packageCandidates snapshot.entries manifest = .ok candidates)
    (hpackages : candidates.foldlM (loadNext executable snapshot.entries) [] = .ok packages)
    (hdependencies : validateDeclaredDependencies (packages.map LoadedPackage.package) origins = .ok ())
    (hcollections : loadCollections snapshot.entries manifest = .ok collections) :
    loadNativeSource executable snapshot origins =
      .ok { manifest, collections, artifacts := sortedBy (fun loaded => loaded.package.manifest.identity.str) packages } := by
  rw [loadNativeSource, hentries]
  simp only [bind, Except.bind, hmarker, hmanifest, hkinds, hcandidates, hcompatible, hpackages, hdependencies,
    hcollections]
  rfl

end AgentArtifacts.Registry
