import AgentArtifacts.InstallState.ManifestFields
import AgentArtifacts.Security.Model

/-!
# Baseline rules

The rules of the standard-library baseline, and the findings that they make of a place.
-/

namespace AgentArtifacts.Security

/-- The rules in their order. -/
inductive RuleId where
  | objectDigestMismatch
  | manifestMissing
  | manifestInvalid
  | manifestDigestMismatch
  | manifestIndexMismatch
  | payloadDigestMismatch
  | provenanceMissing
  | provenanceUnexpected
  | provenanceInvalid
  | provenanceIndexMismatch
  | reviewMissing
  | reviewPending
  | reviewRejected
  | lockMissing
  | lockEvidenceMismatch
  | sourceMovingRef
  | importerWarning
  | installEffectCopyTree
  | installEffectWriteFile
  | installEffectMergeJson
  | installEffectManagedBlock
  | setupCapabilityKeychain
  | setupCapabilityFilesystem
  | setupCapabilityManagedFile
  | setupCapabilityDocker
  | setupCapabilityDockerPull
  | setupCapabilityDockerBuild
  | setupCapabilityTrustStore
  | setupCapabilityNetwork
  | setupCapabilityProcess
  | setupCapabilityCustomCode
  | setupCapabilityVerifyCommand
  | setupCapabilityUnknown
  | setupCapabilitiesUndeclared
  | setupCapabilityMismatch
  | setupRecipeMissing
  | setupRecipeInvalid
  | customSetupEntrypoint
  | fileScanLimit
  | textDecodeFailed
  | embeddedCredential
  | pythonParseFailed
  | pythonNodeLimit
  | pythonDynamicExecution
  | pythonSubprocessShell
  | pythonOsSystem
  | pythonUnsafeDeserialization
  | jsonParseFailed
  | mcpShellDispatch
  | shellPipeToInterpreter
  | shellPrivilegeEscalation
  | shellDestructiveBroadPath
  | shellDynamicEvaluation
  | unpinnedPackageInstall
  | insecureTransport
  | unpinnedContainerImage
  | findingsTruncated
deriving DecidableEq

def RuleId.all : List RuleId :=
  [.objectDigestMismatch, .manifestMissing, .manifestInvalid, .manifestDigestMismatch, .manifestIndexMismatch,
    .payloadDigestMismatch, .provenanceMissing, .provenanceUnexpected, .provenanceInvalid,
    .provenanceIndexMismatch, .reviewMissing, .reviewPending, .reviewRejected, .lockMissing,
    .lockEvidenceMismatch, .sourceMovingRef, .importerWarning, .installEffectCopyTree, .installEffectWriteFile,
    .installEffectMergeJson, .installEffectManagedBlock, .setupCapabilityKeychain, .setupCapabilityFilesystem,
    .setupCapabilityManagedFile, .setupCapabilityDocker, .setupCapabilityDockerPull,
    .setupCapabilityDockerBuild, .setupCapabilityTrustStore, .setupCapabilityNetwork, .setupCapabilityProcess,
    .setupCapabilityCustomCode, .setupCapabilityVerifyCommand, .setupCapabilityUnknown,
    .setupCapabilitiesUndeclared, .setupCapabilityMismatch, .setupRecipeMissing, .setupRecipeInvalid,
    .customSetupEntrypoint, .fileScanLimit, .textDecodeFailed, .embeddedCredential, .pythonParseFailed,
    .pythonNodeLimit, .pythonDynamicExecution, .pythonSubprocessShell, .pythonOsSystem,
    .pythonUnsafeDeserialization, .jsonParseFailed, .mcpShellDispatch, .shellPipeToInterpreter,
    .shellPrivilegeEscalation, .shellDestructiveBroadPath, .shellDynamicEvaluation, .unpinnedPackageInstall,
    .insecureTransport, .unpinnedContainerImage, .findingsTruncated]

structure Rule where
  id : String
  severity : FindingSeverity
  message : String
  remediation : String
deriving DecidableEq

def RuleId.rule : RuleId → Rule
  | .objectDigestMismatch => ⟨"object-digest-mismatch", .critical,
      "Canonical object bytes do not match the indexed object digest.",
      "Reacquire and verify the exact indexed object before installation."⟩
  | .manifestMissing => ⟨"manifest-missing", .critical,
      "The canonical object has no regular artifact manifest.",
      "Rebuild the object from a valid native artifact package."⟩
  | .manifestInvalid => ⟨"manifest-invalid", .critical,
      "The artifact manifest cannot be validated as protocol v1.",
      "Correct the manifest and rebuild the immutable object."⟩
  | .manifestDigestMismatch => ⟨"manifest-digest-mismatch", .critical,
      "The artifact manifest does not match the indexed manifest digest.",
      "Regenerate the index and lock from the exact artifact manifest."⟩
  | .manifestIndexMismatch => ⟨"manifest-index-mismatch", .critical,
      "Manifest identity, compatibility, effects, or setup metadata differs from the index.",
      "Recompile the source and review the resulting index change."⟩
  | .payloadDigestMismatch => ⟨"payload-digest-mismatch", .critical,
      "Payload bytes do not match the indexed payload digest.",
      "Reacquire or rebuild the exact immutable artifact object."⟩
  | .provenanceMissing => ⟨"provenance-missing", .high,
      "Indexed origin provenance is absent from the object.",
      "Rebuild the object with matching canonical provenance evidence."⟩
  | .provenanceUnexpected => ⟨"provenance-unexpected", .medium,
      "The object contains provenance that is absent from the index.",
      "Recompile the source so index and object provenance agree."⟩
  | .provenanceInvalid => ⟨"provenance-invalid", .high,
      "Object provenance cannot be validated as protocol v1.",
      "Correct provenance metadata and rebuild the object."⟩
  | .provenanceIndexMismatch => ⟨"provenance-index-mismatch", .high,
      "Object provenance differs from indexed origin evidence.",
      "Resolve the origin to one immutable commit and rebuild the index."⟩
  | .reviewMissing => ⟨"review-missing", .medium,
      "No registry review decision is attached to this artifact.",
      "Review the exact object and record the decision in a controlled registry when appropriate."⟩
  | .reviewPending => ⟨"review-pending", .medium,
      "Registry review is still pending for this artifact.",
      "Complete review of the exact object before broad distribution."⟩
  | .reviewRejected => ⟨"review-rejected", .high,
      "Registry review rejected this artifact.",
      "Do not install until the rejection is resolved and a new object is reviewed."⟩
  | .lockMissing => ⟨"lock-missing", .high,
      "Reviewed external provenance has no matching committed lock evidence.",
      "Generate and commit a lock that binds origin, commit, manifest, payload, and object digests."⟩
  | .lockEvidenceMismatch => ⟨"lock-evidence-mismatch", .critical,
      "Committed lock evidence differs from the indexed object or provenance.",
      "Regenerate the lock from the reviewed immutable source and investigate unexpected drift."⟩
  | .sourceMovingRef => ⟨"source-moving-ref", .low,
      "The authored source selector is moving, while this object is pinned by a resolved commit.",
      "Review lock updates before accepting newly resolved content."⟩
  | .importerWarning => ⟨"importer-warning", .low,
      "The importer recorded one or more conversion warnings.",
      "Inspect importer warnings in the trusted maintainer workflow and correct lossy conversion."⟩
  | .installEffectCopyTree => ⟨"install-effect-copy-tree", .low,
      "Installation copies a directory tree into a harness destination.",
      "Review the exact destination and object file list before finalization."⟩
  | .installEffectWriteFile => ⟨"install-effect-write-file", .low,
      "Installation writes a managed file into a harness destination.",
      "Review the exact destination and replacement behavior before finalization."⟩
  | .installEffectMergeJson => ⟨"install-effect-merge-json", .medium,
      "Installation merges values into harness JSON configuration.",
      "Review the JSON target, identity, and managed rollback evidence."⟩
  | .installEffectManagedBlock => ⟨"install-effect-managed-block", .medium,
      "Installation edits a managed block inside a user-controlled file.",
      "Review the marker, target, and preserved foreign content."⟩
  | .setupCapabilityKeychain => ⟨"setup-capability-keychain", .high,
      "Setup requests credential-store access.",
      "Review credential identity and consent without exposing credential values."⟩
  | .setupCapabilityFilesystem => ⟨"setup-capability-filesystem", .medium,
      "Setup requests filesystem mutation authority.",
      "Review every managed path and rollback effect."⟩
  | .setupCapabilityManagedFile => ⟨"setup-capability-managed-file", .medium,
      "Setup requests managed-file mutation authority.",
      "Review every managed path and rollback effect."⟩
  | .setupCapabilityDocker => ⟨"setup-capability-docker", .high,
      "Setup requests container runtime execution.",
      "Require digest-pinned images and review runtime effects."⟩
  | .setupCapabilityDockerPull => ⟨"setup-capability-docker-pull", .high,
      "Setup requests a container image pull.",
      "Require an immutable image digest and approved network access."⟩
  | .setupCapabilityDockerBuild => ⟨"setup-capability-docker-build", .high,
      "Setup builds a container image from artifact bytes.",
      "Read the build file: its instructions execute with network access during installation."⟩
  | .setupCapabilityTrustStore => ⟨"setup-capability-trust-store", .medium,
      "Setup reads the machine's public certificate list.",
      "Review the subject filter; certificates are public and no private key is exported."⟩
  | .setupCapabilityNetwork => ⟨"setup-capability-network", .high,
      "Setup requests network access.",
      "Review exact endpoints and pin all remotely executed content."⟩
  | .setupCapabilityProcess => ⟨"setup-capability-process", .medium,
      "Setup requests local process execution.",
      "Review fixed argv, executable identity, environment, and timeout."⟩
  | .setupCapabilityCustomCode => ⟨"setup-capability-custom-code", .critical,
      "Setup requests execution of custom artifact code.",
      "Require explicit trust, policy approval, digest binding, and immutable run-copy review."⟩
  | .setupCapabilityVerifyCommand => ⟨"setup-capability-verify-command", .medium,
      "Setup requests a verification command.",
      "Review the fixed executable argv, working directory, and timeout."⟩
  | .setupCapabilityUnknown => ⟨"setup-capability-unknown", .high,
      "Setup declares a capability unknown to the baseline rules.",
      "Review and explicitly allow the capability only after understanding its effects."⟩
  | .setupCapabilitiesUndeclared => ⟨"setup-capabilities-undeclared", .high,
      "Setup exists without indexed capability evidence.",
      "Compile and review the complete setup capability set."⟩
  | .setupCapabilityMismatch => ⟨"setup-capability-mismatch", .high,
      "Setup recipe capabilities differ from indexed capability evidence.",
      "Recompile the object and review the exact declared capability set."⟩
  | .setupRecipeMissing => ⟨"setup-recipe-missing", .high,
      "Indexed setup recipe bytes are missing from the object.",
      "Rebuild the object with the exact declared setup recipe."⟩
  | .setupRecipeInvalid => ⟨"setup-recipe-invalid", .high,
      "Setup recipe is not strict JSON with a reviewable top-level object.",
      "Correct and validate the declarative setup recipe."⟩
  | .customSetupEntrypoint => ⟨"custom-setup-entrypoint", .critical,
      "Setup declares a custom code entrypoint.",
      "Review its exact digest and require explicit custom-code authorization."⟩
  | .fileScanLimit => ⟨"file-scan-limit", .unknown,
      "A text-like file exceeds the bounded baseline scan limit.",
      "Inspect the file separately or use an independently installed analyzer with declared limits."⟩
  | .textDecodeFailed => ⟨"text-decode-failed", .unknown,
      "A text-like file is not valid UTF-8 and was not fully inspected.",
      "Convert it to reviewable UTF-8 or inspect it with an appropriate external analyzer."⟩
  | .embeddedCredential => ⟨"embedded-credential", .critical,
      "A credential-like literal is embedded in artifact content.",
      "Remove the value, rotate it if real, and use runtime credential indirection."⟩
  | .pythonParseFailed => ⟨"python-parse-failed", .unknown,
      "Python source could not be parsed by the running standard-library AST parser.",
      "Correct the syntax or inspect it with a compatible external analyzer."⟩
  | .pythonNodeLimit => ⟨"python-node-limit", .unknown,
      "Python AST exceeds the bounded baseline node limit.",
      "Split or inspect the source with an independently installed analyzer."⟩
  | .pythonDynamicExecution => ⟨"python-dynamic-execution", .high,
      "Python invokes dynamic code compilation or execution.",
      "Replace dynamic execution with explicit reviewed operations."⟩
  | .pythonSubprocessShell => ⟨"python-subprocess-shell", .critical,
      "Python starts a subprocess with shell interpretation enabled.",
      "Use fixed argv with shell interpretation disabled."⟩
  | .pythonOsSystem => ⟨"python-os-system", .high,
      "Python invokes a command through os.system.",
      "Use a fixed argv subprocess call with shell interpretation disabled."⟩
  | .pythonUnsafeDeserialization => ⟨"python-unsafe-deserialization", .high,
      "Python invokes a code-capable deserialization API.",
      "Use a data-only format and validate the parsed schema."⟩
  | .jsonParseFailed => ⟨"json-parse-failed", .unknown,
      "A JSON file is not valid strict bounded JSON.",
      "Correct duplicate keys, encoding, structure, or size before installation."⟩
  | .mcpShellDispatch => ⟨"mcp-shell-dispatch", .high,
      "MCP configuration dispatches through a command shell.",
      "Use a direct executable and fixed argument array."⟩
  | .shellPipeToInterpreter => ⟨"shell-pipe-to-interpreter", .critical,
      "Shell content pipes downloaded bytes directly to an interpreter.",
      "Download, verify a pinned digest, inspect, and execute as separate steps."⟩
  | .shellPrivilegeEscalation => ⟨"shell-privilege-escalation", .high,
      "Shell content requests privilege escalation.",
      "Remove privilege escalation or isolate it in an explicitly reviewed administrator procedure."⟩
  | .shellDestructiveBroadPath => ⟨"shell-destructive-broad-path", .critical,
      "Shell content performs recursive deletion against a broad path.",
      "Restrict deletion to an exact validated managed path with recoverable behavior."⟩
  | .shellDynamicEvaluation => ⟨"shell-dynamic-evaluation", .high,
      "Shell content dynamically evaluates constructed text.",
      "Replace eval with fixed commands and quoted arguments."⟩
  | .unpinnedPackageInstall => ⟨"unpinned-package-install", .medium,
      "Shell content installs a package without an exact version or digest constraint.",
      "Pin the package version and verify it through the approved package source."⟩
  | .insecureTransport => ⟨"insecure-transport", .high,
      "Artifact content references plaintext HTTP transport.",
      "Use authenticated HTTPS or another approved encrypted transport."⟩
  | .unpinnedContainerImage => ⟨"unpinned-container-image", .high,
      "Setup references a container image without an immutable SHA-256 digest.",
      "Pin the exact image digest and review registry provenance."⟩
  | .findingsTruncated => ⟨"findings-truncated", .unknown,
      "Additional baseline findings were omitted at the bounded result limit.",
      "Inspect the artifact with narrower inputs or additional independent analyzers."⟩

def baselineProviderId : String := "aart-baseline"

def baselineProviderVersion : String := "1"

def rulesetRevision : String := "baseline-v1.1"

def maxScannedFileBytes : Nat := 1024 * 1024

def maxAstNodes : Nat := 50000

def maxShellLines : Nat := 20000

def ruleJson (rule : Rule) : Json :=
  .obj [("id", .str rule.id), ("message", .str rule.message), ("remediation", .str rule.remediation),
    ("severity", .str rule.severity.value)]

/-- The value that the digest of the rules is made of. -/
def baselineRulesJson : Json :=
  .obj [("ast_node_limit", .int maxAstNodes), ("finding_limit", .int maxFindings), ("revision", .str rulesetRevision),
    ("rules", .arr (RuleId.all.map fun rule => ruleJson rule.rule)), ("shell_line_limit", .int maxShellLines),
    ("text_file_byte_limit", .int maxScannedFileBytes)]

def baselineRulesDigest [StandardLibrary] : ObjectDigest := jsonDigest baselineRulesJson

theorem RuleId.mem_all (rule : RuleId) : rule ∈ RuleId.all := by
  cases rule <;> simp [RuleId.all]

/-- A line, letter by letter. -/
def lineChars (maximum : Nat) (chars : List Char) : Bool :=
  Nat.ble chars.length maximum && !chars.isEmpty && chars.head?.all (!isSpace ·) && chars.getLast?.all (!isSpace ·) &&
    chars.all fun c => Nat.ble 32 c.toNat

theorem oneLineWithin_of_chars {maximum : Nat} {text : String} {chars : List Char} (htext : text = String.ofList chars)
    (h : lineChars maximum chars = true) : oneLineWithin maximum text = true := by
  subst htext
  simp only [lineChars, Bool.and_eq_true, Nat.ble_eq, Bool.not_eq_true', List.isEmpty_eq_false_iff, List.all_eq_true,
    Option.all_eq_true] at h
  obtain ⟨⟨⟨⟨hlength, hne⟩, hfirst⟩, hlast⟩, hcontrol⟩ := h
  have hstrip : pyStrip (String.ofList chars) = String.ofList chars := by
    have hall : Text.strip isSpace ([] ++ chars ++ []) = chars :=
      Text.strip_append_of_all (by simp) (by simp) hfirst hlast
    rw [pyStrip, String.toList_ofList]
    simpa using congrArg String.ofList hall
  have hnot {c : Char} (hlow : c.toNat < 32) : c ∉ chars := fun hc => absurd (hcontrol c hc) (by omega)
  have hreturn : pyIn "\r" (String.ofList chars) = false :=
    Manifest.pyIn_eq_false (List.mem_singleton_self '\r') (by rw [String.toList_ofList]; exact hnot (by decide))
  have hnewline : pyIn "\n" (String.ofList chars) = false :=
    Manifest.pyIn_eq_false (List.mem_singleton_self '\n') (by rw [String.toList_ofList]; exact hnot (by decide))
  have hnonempty : String.ofList chars ≠ "" := by
    intro hempty
    exact hne (by simpa using congrArg String.toList hempty)
  simp [oneLineWithin, oneLine, hnonempty, hstrip, hreturn, hnewline, hlength]

theorem isProviderId_of_chars {text : String} {chars : List Char} (htext : text = String.ofList chars)
    (h : (match chars.splitOnP (fun c => c == '.' || c == '-') with
      | [] => false
      | first :: more =>
          first.head?.any isLowerLetter && first.all isLowerAlphanumeric &&
            more.all fun part => !part.isEmpty && part.all isLowerAlphanumeric) = true) : isProviderId text = true := by
  subst htext
  unfold isProviderId
  rw [String.toList_ofList]
  exact h

/-- Every rule makes a finding that its constructor accepts. -/
theorem RuleId.valid (rule : RuleId) : isProviderId rule.rule.id = true ∧ oneLineWithin 1024 rule.rule.message = true ∧
    oneLineWithin 512 rule.rule.remediation = true := by
  cases rule <;> exact ⟨isProviderId_of_chars rfl (by decide +kernel), oneLineWithin_of_chars rfl (by decide +kernel),
    oneLineWithin_of_chars rfl (by decide +kernel)⟩

theorem RuleId.id_injective {a b : RuleId} (h : a.rule.id = b.rule.id) : a = b := by
  have hnodup : (RuleId.all.map fun rule => rule.rule.id).Nodup := by
    simp [RuleId.all, RuleId.rule]
  exact List.inj_on_of_nodup_map hnodup a.mem_all b.mem_all h

/-! ## Findings -/

/-- Where a rule applies. -/
structure Hit where
  rule : RuleId
  path : Option SafeRelativePath := none
  line : Option Nat := none
deriving DecidableEq

/-- The check that the constructor makes of a line. -/
def Hit.placed (hit : Hit) : Bool :=
  match hit.line with
  | none => true
  | some number => decide (1 ≤ number ∧ number ≤ 10000000) && hit.path.isSome

def Hit.severity (hit : Hit) : FindingSeverity := hit.rule.rule.severity

theorem Hit.placed_line {hit : Hit} (h : hit.placed = true) :
    ∀ number, hit.line = some number → 1 ≤ number ∧ number ≤ 10000000 ∧ hit.path ≠ none := by
  intro number hline
  rw [Hit.placed, hline] at h
  simp only [Bool.and_eq_true, decide_eq_true_eq, Option.isSome_iff_ne_none] at h
  exact ⟨h.1.1, h.1.2, h.2⟩

/-- The finding of a hit that stands in a place. -/
def findingOf (hit : Hit) (h : hit.placed = true) : SecurityFinding where
  providerId := baselineProviderId
  ruleId := hit.rule.rule.id
  severity := hit.rule.rule.severity
  message := hit.rule.rule.message
  remediation := hit.rule.rule.remediation
  path := hit.path
  line := hit.line
  provider_valid := by decide
  rule_valid := hit.rule.valid.1
  line_valid := Hit.placed_line h
  message_line := hit.rule.valid.2.1
  remediation_line := hit.rule.valid.2.2

/-- `_finding`. -/
def makeFinding (hit : Hit) : Raising SecurityFinding :=
  if h : hit.placed = true then .ok (findingOf hit h) else .error "security finding is invalid"

/-- The value that a fingerprint is the digest of. -/
def placeJson (hit : Hit) : Json :=
  .obj [("line", match hit.line with | none => .null | some number => .int (number : Nat)),
    ("path", match hit.path with | none => .null | some path => .str path.str),
    ("provider_id", .str baselineProviderId), ("rule_id", .str hit.rule.rule.id)]

theorem frozen_placeJson (hit : Hit) : Frozen (placeJson hit) := by
  have hline : Frozen (match hit.line with | none => Json.null | some number => .int (number : Nat)) := by
    cases hit.line <;> simp [Frozen]
  have hpath : Frozen (match hit.path with | none => Json.null | some path => .str path.str) := by
    cases hit.path <;> simp [Frozen]
  rw [placeJson, Frozen]
  refine ⟨by simp only [List.map_cons, List.map_nil]; decide, ?_⟩
  simp only [FrozenEntries, and_true]
  exact ⟨hline, hpath, by simp [Frozen], by simp [Frozen]⟩

end AgentArtifacts.Security
