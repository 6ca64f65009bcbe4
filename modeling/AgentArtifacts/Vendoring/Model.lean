import AgentArtifacts.Protocol.NativeSchema
import AgentArtifacts.Sources.Subtree

/-!
# Vendoring values

Where a copy came from, what the maintainer authors beside it, and the instruction that the
provenance of the copy records.
-/

namespace AgentArtifacts.Vendoring

open Native (ArtifactManifest Provenance artifactInvalid)

def vendorError {α : Type} (message : String) : Result α := error artifactInvalid message

def vendorImporterId : Slug := ⟨"registry-vendor-v1", by decide⟩

def vendorRecordKey : String := "aart.vendor"

def payloadRootName : String := "payload"

/-- A file of a package: its path, its content, and whether it is executable. -/
structure PackageFile where
  path : String
  content : Bytes
  executable : Bool
deriving DecidableEq

structure VendorOrigin where
  url : String
  ref : String
  resolvedCommit : String
deriving DecidableEq

structure VendorOptions where
  identity : ArtifactIdentity
  version : SemVer
  summary : String
  profiles : List String
  platforms : List String
  scopes : List InstallScope
  modes : List InstallMode
  setupRecipe : Option SafeRelativePath := none
  setupPlatforms : List String := []
  authored : List PackageFile := []
  warnings : List String := []
  license : Option String := none
deriving DecidableEq

structure LicenseFinding where
  paths : List String
  identifier : Option String
  note : String
deriving DecidableEq

structure VendoredPackage where
  base : String
  files : List PackageFile
  manifest : ArtifactManifest
  provenance : Provenance
  license : LicenseFinding
deriving DecidableEq

/-- The standing instruction, and which files are not upstream's. -/
structure VendorRecord where
  ref : String
  authored : List String
deriving DecidableEq

def recordJson (record : VendorRecord) : Json :=
  .obj [("authored", .arr (record.authored.map .str)), ("ref", .str record.ref)]

section Digests

variable [StandardLibrary]

def vendorOptionsDigest (url ref : String) (path : SafeRelativePath) : ObjectDigest :=
  jsonDigest (.obj [("path", .str path.str), ("ref", .str ref), ("url", .str url)])

def acquisitionOptionsDigest (origin : VendorOrigin) (subtree : TakenSubtree) : ObjectDigest :=
  vendorOptionsDigest origin.url origin.ref subtree.path

/-- The paths that a record lists. -/
def recordedPaths : List Json → Option (List String)
  | [] => some []
  | .str path :: rest => if path = "" then none else (recordedPaths rest).map (path :: ·)
  | _ :: _ => none

/-- `read_vendor_record`. -/
def readVendorRecord (provenance : Provenance) : Result VendorRecord :=
  if provenance.importer.id ≠ vendorImporterId then
    vendorError "this artifact was not produced by registry-vendor-v1; only a vendored artifact can be re-vendored"
  else
    match Dict.get? provenance.extensions vendorRecordKey with
    | some (.obj raw) =>
        match Dict.get? raw "ref", Dict.get? raw "authored" with
        | some (.str ref), some (.arr items) =>
            if ref = "" then vendorError "aart.vendor must record a ref and the authored file list"
            else
              match recordedPaths items with
              | none => vendorError "aart.vendor.authored must be package-relative paths"
              | some paths =>
                  if vendorOptionsDigest provenance.origin.url ref provenance.origin.path ≠
                      provenance.importer.optionsDigest then
                    vendorError "the recorded vendoring instruction does not match its options digest; provenance.json has been edited by hand"
                  else .ok ⟨ref, paths⟩
        | _, _ => vendorError "aart.vendor must record a ref and the authored file list"
    | _ => vendorError "provenance does not record aart.vendor"

end Digests

end AgentArtifacts.Vendoring
