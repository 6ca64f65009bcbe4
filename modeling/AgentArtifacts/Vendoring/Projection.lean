import AgentArtifacts.Vendoring.Model

/-!
# Projecting a package from a subtree

The taken files become the payload of an owned package, beside what the maintainer authors
and the two documents that the projection writes.
-/

namespace AgentArtifacts.Vendoring

open Native (ArtifactManifest Provenance payloadFormat installEffectsOf artifactManifestToJson provenanceToJson)
open Registry (InstallEffect sortedBy)

/-! ## Licences -/

/-- `str.lower`, and the decoding of UTF-8 that replaces what is malformed. -/
class LicenseText where
  lower : String → String
  decodeReplacing : Bytes → String

def licenseNames : List String := ["license", "licence", "copying", "license-mit", "license-apache", "unlicense"]

def licenseSuffixes : List String := ["", ".md", ".txt", ".rst"]

/-- The markers of a text, in the order in which they are tried. -/
def licenseTexts : List (String × List String) :=
  [("Apache-2.0", ["apache license", "version 2.0"]),
    ("MPL-2.0", ["mozilla public license", "version 2.0"]),
    ("ISC", ["permission to use, copy, modify, and/or distribute this software"]),
    ("MIT", ["permission is hereby granted, free of charge"]),
    ("BSD-3-Clause", ["redistribution and use in source and binary forms", "endorse or promote products"]),
    ("BSD-2-Clause", ["redistribution and use in source and binary forms"]),
    ("Unlicense", ["this is free and unencumbered software released into the public domain"])]

def licenseFamilies : List (String × String) :=
  [("gnu affero general public license", "GNU Affero General Public License"),
    ("gnu lesser general public license", "GNU Lesser General Public License"),
    ("gnu general public license", "GNU General Public License")]

def licensePrefixBytes : Nat := 4096

/-- `" ".join(text.split())`. -/
def joinWords (text : String) : String :=
  String.intercalate " " (((text.toList.splitOnP isSpace).filter (!·.isEmpty)).map String.ofList)

section License

variable [LicenseText]

def isLicenseName (relative : String) : Bool :=
  let name := LicenseText.lower ((splitChar '/' relative).getLastD "")
  licenseSuffixes.any fun suffix => endsWith suffix name && licenseNames.contains (removeSuffix suffix name)

/-- The identifier or the family that a licence file settles. -/
def identifyLicense (content : Bytes) : Option String × Option String :=
  let text := joinWords (LicenseText.lower (LicenseText.decodeReplacing (content.take licensePrefixBytes)))
  match licenseFamilies.find? fun family => pyIn family.1 text with
  | some family => (none, some family.2)
  | none => ((licenseTexts.find? fun license => license.2.all fun marker => pyIn marker text).map Prod.fst, none)

/-- `discover_license`. -/
def discoverLicense (subtree : TakenSubtree) : LicenseFinding :=
  let files := subtree.snapshot.entries.filter SnapshotEntry.isFile
  let found := sortedBy id ((files.map (·.path.str)).filter isLicenseName)
  let listed := String.intercalate ", " found
  match found, found.filter fun path => !pyIn "/" path with
  | [], _ => ⟨[], none, "no license file in the taken subtree"⟩
  | _ :: _, [] =>
      ⟨found, none, "license files were found only below the subtree root, where they cover what sits beside them rather than the taken work: " ++ listed⟩
  | _ :: _, [path] =>
      match identifyLicense (((files.find? fun entry => entry.path.str == path).map (·.content)).getD []) with
      | (some identifier, _) => ⟨found, some identifier, path ++ ": " ++ identifier⟩
      | (none, some family) =>
          ⟨found, none, path ++ ": " ++ family ++ ", whose text does not say whether the grant is -only or -or-later; state the identifier with --license"⟩
      | (none, none) => ⟨found, none, path ++ ": text not recognised; state the identifier with --license"⟩
  | _ :: _, _ :: _ :: _ =>
      ⟨found, none, "several license files at the subtree root, so none was adopted: " ++ listed⟩

end License

/-! ## Authored files -/

def projectedRoots : List String := ["artifact.json", "provenance.json"]

def allowedAuthoredRoots : List String := ["README.md", "SETUP.md", "payload", "setup"]

/-- The document that the payload of a kind cannot load without. -/
def requiredPayloadDocument : ArtifactKind → Option String
  | .skill => some "payload/SKILL.md"
  | .mcp => some "payload/mcp.json"
  | .hook => some "payload/hook.json"
  | .guideline => none
  | .memory => none

/-- Where an entry of the subtree stands in the package. -/
def takenPath (entry : SnapshotEntry) : String := payloadRootName ++ "/" ++ entry.path.str

def takenFiles (subtree : TakenSubtree) : List PackageFile :=
  (subtree.snapshot.entries.filter SnapshotEntry.isFile).map fun entry =>
    ⟨takenPath entry, entry.content, entry.executable⟩

section Projection

variable [StandardLibrary]

/-- One authored file; those accepted so far precede it. -/
def authoredFile (taken : List String) (accepted : List PackageFile) (file : PackageFile) : Result (List PackageFile) :=
  match parseRelativePath file.path with
  | .error _ => vendorError ("authored package path is unsafe: " ++ pyRepr file.path)
  | .ok path =>
      let relative := path.str
      let root := (splitChar '/' relative).headD ""
      if root ∈ projectedRoots then
        vendorError ("the vendoring writes " ++ root ++ "; it is not authored alongside the payload")
      else if root ∉ allowedAuthoredRoots then
        vendorError ("authored file is not canonical package content: " ++ relative)
      else if relative ∈ accepted.map PackageFile.path then
        vendorError ("authored file is given twice: " ++ relative)
      else if relative ∈ taken then
        vendorError ("authored file collides with the taken subtree: " ++ relative ++
          "; upstream already provides this file")
      else .ok (accepted ++ [⟨relative, file.content, file.executable⟩])

/-- `_authored_files`. -/
def authoredFiles (options : VendorOptions) (taken : List String) : Result (List PackageFile) :=
  options.authored.foldlM (authoredFile taken) []

variable [LicenseText]

/-- `tuple(sorted(set(warnings)))`. -/
def sortedWarnings (warnings : List String) : List String := sortedBy id warnings.dedup

/-- The manifest that the maintainer's options and the licence finding give. -/
def vendorManifest (subtree : TakenSubtree) (options : VendorOptions) : ArtifactManifest where
  schemaVersion := 1
  identity := options.identity
  version := options.version
  summary := options.summary
  payload := ⟨⟨[payloadRootName]⟩, payloadFormat options.identity.kind⟩
  compatibility := ⟨options.profiles, options.platforms⟩
  install := ⟨options.scopes, options.modes, sortedBy InstallEffect.value (installEffectsOf options.identity.kind)⟩
  setup := options.setupRecipe.map fun recipe =>
    ⟨recipe, if options.setupPlatforms.isEmpty then options.platforms else options.setupPlatforms⟩
  license := (options.license.filter (· != "")) <|> (discoverLicense subtree).identifier

omit [LicenseText] in
/-- The provenance of a copy. -/
def vendorProvenance (subtree : TakenSubtree) (origin : VendorOrigin) (options : VendorOptions) (importerVersion : SemVer)
    (authored : List PackageFile) : Provenance where
  schemaVersion := 1
  origin := ⟨"git", origin.url, origin.resolvedCommit, subtree.path, subtree.inputDigest⟩
  importer := ⟨vendorImporterId, importerVersion, acquisitionOptionsDigest origin subtree⟩
  warnings := sortedWarnings options.warnings
  extensions := [(vendorRecordKey, recordJson ⟨origin.ref, sortedBy id (authored.map PackageFile.path)⟩)]

def packageRoot (artifactRoot : SafeRelativePath) (identity : ArtifactIdentity) : String :=
  artifactRoot.str ++ "/" ++ identity.kind.value ++ "/" ++ identity.name.value

def below (base : String) (file : PackageFile) : PackageFile := { file with path := base ++ "/" ++ file.path }

/-- `project_vendored_package`; every kind has a payload format. -/
def projectVendoredPackage (subtree : TakenSubtree) (origin : VendorOrigin) (options : VendorOptions)
    (artifactRoot : SafeRelativePath) (importerVersion : SemVer) : Result VendoredPackage := do
  let kind := options.identity.kind
  let taken := takenFiles subtree
  let base := packageRoot artifactRoot options.identity
  let authored ← authoredFiles options (taken.map PackageFile.path)
  let payloadPaths := taken.map PackageFile.path ++
    (authored.map PackageFile.path).filter fun path => startsWith "payload/" path
  match (requiredPayloadDocument kind).filter fun required => !payloadPaths.contains required with
  | some required =>
      vendorError ("a vendored " ++ kind.value ++ " needs " ++ required ++
        "; the taken subtree does not contain it, so the maintainer supplies it at " ++ base ++ "/" ++ required)
  | none =>
      if (kind = .guideline ∨ kind = .memory) ∧ (payloadPaths.length ≠ 1 ∨ !payloadPaths.all (endsWith ".md")) then
        vendorError ("a vendored " ++ kind.value ++
          " carries exactly one Markdown document; the taken subtree contributes " ++ toString payloadPaths.length ++
          " payload files")
      else
        let manifest := vendorManifest subtree options
        let provenance := vendorProvenance subtree origin options importerVersion authored
        let documents : List PackageFile :=
          [⟨"artifact.json", canonicalJsonBytes (artifactManifestToJson manifest), false⟩,
            ⟨"provenance.json", canonicalJsonBytes (provenanceToJson provenance), false⟩]
        return { base, manifest, provenance, license := discoverLicense subtree
                 files := sortedBy PackageFile.path ((documents ++ taken ++ authored).map (below base)) }

end Projection

end AgentArtifacts.Vendoring
