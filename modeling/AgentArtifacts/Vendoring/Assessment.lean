import AgentArtifacts.Security.Attestations
import AgentArtifacts.Vendoring.Projection

/-!
# Assessing a projected package

Before a package is written the whole of it is assessed, the wrapper of the maintainer with
the copied payload, and the evidence is a document of its own. What a consumer receives of
the payload is found beside it.
-/

namespace AgentArtifacts.Vendoring

open Registry (compileNativePackage indexArtifactFromPackage sortedSet)
open Security (BaselineScanRequest ScanRuntime SecurityAssessment SecurityAttestation SetupReader assessInstallationRisk
  assessmentCacheKey attestationBytes attestationDigest baselineProviderId baselineProviderVersion baselineRulesDigest
  emptyCacheInputDigest securityAttestation)

/-! ## Delivery -/

/-- What installing an artifact delivers, where that is not all of its payload. -/
structure DeliveryFinding where
  withheld : Nat
  referenced : List String
  note : String
  startsNothing : Bool := false
deriving DecidableEq

/-- A text names a file of the payload only where the file is there. -/
def namesPayloadFile (payload : List (String × Bytes)) (raw : String) : Bool :=
  let candidate := removePrefix "./" raw
  payload.any fun file => file.1 == candidate || file.1 == payloadRootName ++ "/" ++ candidate

/-- The command of a server and the texts among its arguments. -/
def serverTexts (server : Dict) : List String :=
  (match Dict.get? server "command" with
    | some (.str command) => [command]
    | _ => []) ++
  match Dict.get? server "args" with
  | some (.arr items) => items.filterMap fun item => match item with | .str text => some text | _ => none
  | _ => []

section Delivery

variable [StandardLibrary]

/-- `describe_delivery`. -/
def describeDelivery (kind : ArtifactKind) (payload : List (String × Bytes)) : Option DeliveryFinding :=
  if kind ≠ .mcp then none
  else
    let withheld := payload.countP fun file => file.1 != "payload/mcp.json"
    let note := "installing this artifact merges the server entry from payload/mcp.json into the profile's MCP file and copies nothing; " ++
      toString withheld ++ " copied payload " ++ (if withheld = 1 then "file is" else "files are") ++ " not delivered to consumers"
    match payload.lookup "payload/mcp.json" with
    | none => some ⟨withheld, [], note, false⟩
    | some document =>
        match parseJson document with
        | .ok (.obj descriptor) =>
            let server : Option Dict := match Dict.get? descriptor "server" with
              | some (.obj fields) => some fields
              | _ => none
            some ⟨withheld, sortedSet ((serverTexts (server.getD [])).filter (namesPayloadFile payload)), note,
              (server.getD []).isEmpty⟩
        | _ => some ⟨withheld, [], note, false⟩

/-- `_package_delivery`. -/
def packageDelivery (package : VendoredPackage) : Option DeliveryFinding :=
  let lead := package.base ++ "/"
  describeDelivery package.manifest.identity.kind
    ((package.files.filter fun file => startsWith (lead ++ package.manifest.payload.root.str ++ "/") file.path).map
      fun file => (removePrefix lead file.path, file.content))

end Delivery

/-! ## Assessment -/

section Assessment

variable [StandardLibrary] [ScanRuntime]

/-- The candidate and the attestation are seen no further than their digests. -/
structure VendorAssessment where
  assessment : SecurityAssessment
  documentPath : String
  document : Bytes

/-- A value error that nothing catches. -/
def uncaught {α : Type} : Raising α → Result α
  | .error message => raised message
  | .ok value => .ok value

/-- `_package_entries`; it asserts that the paths are read. -/
def packageEntry (base : String) (file : PackageFile) : Result SnapshotEntry :=
  let relative := removePrefix (base ++ "/") file.path
  match parseRelativePath relative with
  | .error _ => raised relative
  | .ok path => .ok ⟨path, .file, file.content, file.executable⟩

/-- The attestation that the maintainer's machine makes of an assessment. -/
def localAttestation (objectDigest : ObjectDigest) (assessment : SecurityAssessment) : Raising SecurityAttestation := do
  let key ← assessmentCacheKey ⟨objectDigest, baselineProviderId, baselineProviderVersion, baselineRulesDigest,
    emptyCacheInputDigest, emptyCacheInputDigest⟩
  securityAttestation ⟨key, assessment⟩

/-- `assess_vendored_package`. -/
def assessVendoredPackage (readSetup : SetupReader) (package : VendoredPackage) (sourceId : SourceId) :
    Result VendorAssessment := do
  let entries ← package.files.mapM (packageEntry package.base)
  let candidate ← makeObjectCandidate entries none
  let compiled ← compileNativePackage readSetup entries (some package.manifest.identity)
  let indexed := indexArtifactFromPackage compiled sourceId candidate.digest none []
  let assessment ← uncaught (assessInstallationRisk readSetup { objectCandidate := candidate, artifact := indexed })
  match localAttestation candidate.digest assessment with
  | .error message => vendorError message
  | .ok attestation =>
      return ⟨assessment, "security/attestations/" ++ (attestationDigest attestation).value ++ ".json",
        attestationBytes attestation⟩

end Assessment

end AgentArtifacts.Vendoring
