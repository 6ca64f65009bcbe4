import AgentArtifacts.Installation.Steps
import AgentArtifacts.Setup.StateFile

/-!
# Persisting a setup record

`persist_setup` writes the setup record, points the installation at it and retains the
object, in this order and under the lock of the scope. Each write may fail, and a failed
one may leave anything; what was written before is restored.
-/

namespace AgentArtifacts.Setup

open Manifest (isSetupRef)

def setupIoFailed : DiagnosticCode := ⟨"setup-io-failed"⟩

/-- Which steps of one call fail, and how. -/
structure PersistFaults where
  lock : Option String := none
  readReferences : Option (List Diagnostic) := none
  setup : Option WriteFault := none
  install : Option WriteFault := none
  references : ReferenceFault := .none
  unlock : Option String := none
  restoreInstall : Option WriteFault := none
  restoreSetup : Option WriteFault := none

def CanonicalSetupPlan.ownerDigests (plan : CanonicalSetupPlan) (index : ReferenceIndex) : List ObjectDigest :=
  index.ownerDigests .setup plan.setupReferenceOwner

/-- An installation that points at the record of its setup. -/
def CanonicalSetupPlan.pointed (plan : CanonicalSetupPlan) (record : InstallationRecord) : InstallationRecord :=
  { record with setupStateRef := some plan.setupStateRef }

section Persisting

variable [StandardLibrary] [ManifestCodec] [Redaction] [PlainJson]

/-! ## Preconditions -/

/-- The records of a setup state file. -/
def fileRecords : Observed → Option (List SetupStateRecord)
  | .file content _ => (decodeUtf8 content).bind fun text => (parseSetupState text).toOption
  | _ => none

/-- The setup file is as it was reviewed, or it has the record that is expected. -/
def stateMatches (plan : CanonicalSetupPlan) (found : Observed) : Option SetupStateRecord → Bool
  | none => found == plan.setupStatePrecondition
  | some expected =>
      match fileRecords found with
      | some [record] => record.same expected
      | _ => false

/-- What a call finds under the lock. -/
structure Inspection where
  state : InstallState
  current : InstallationRecord
  setupBefore : Observed
  installBefore : Observed

def inspectSetup (faults : PersistFaults) (world : World) (plan : CanonicalSetupPlan)
    (expected : Option SetupStateRecord) : Result Inspection :=
  match world.readState plan.installStatePath with
  | .ok (some state) =>
      match selectedRecord state plan.request with
      | some current =>
          if current ≠ plan.installation ∧ current ≠ plan.pointed plan.installation then
            error setupIoFailed "installed payload changed before setup persistence"
          else
            match world.inspectPath plan.setupStatePath, world.inspectState plan.installStatePath,
              faults.readReferences with
            | .ok setupBefore, .ok installBefore, none =>
                if stateMatches plan setupBefore expected &&
                    plan.ownerDigests world.references == plan.setupReferencePrecondition then
                  .ok ⟨state, current, setupBefore, installBefore⟩
                else error setupIoFailed "setup state or object reference changed after Review"
            | _, _, _ => error setupIoFailed "setup persistence preconditions cannot be inspected"
      | none => error setupIoFailed "installed payload changed before setup persistence"
  | _ => error setupIoFailed "installed payload state is unavailable during setup persistence"

/-! ## Writes -/

/-- The manifest with the selected installation pointed at the record. -/
def pointedState (plan : CanonicalSetupPlan) (found : Inspection) : Except String InstallState :=
  if isSetupRef plan.setupStateRef then
    InstallState.make (found.state.installations.map fun item =>
      if item.key = (plan.pointed found.current).key then plan.pointed found.current else item)
  else .error "installation record is invalid"

/-- The bytes of the setup file. -/
def recordBytes (record : SetupStateRecord) : Except String Bytes :=
  (dumpSetupState [record]).map fun text => encodeUtf8 (text ++ "\n")

def Raised.message : Raised → String
  | .caught message => message
  | .escaped => "reference index is invalid"

/-- Where the writes stopped and why. -/
structure Written where
  world : World
  wroteSetup : Bool := false
  wroteInstall : Bool := false
  raised : Option String := none

/-- The writes of one call, once their contents are known. -/
def writeAll (faults : PersistFaults) (world : World) (plan : CanonicalSetupPlan) (content : Bytes)
    (state : InstallState) : Written :=
  let setup := settle faults.setup (world.files plan.setupStatePath)
    (atomicWrite content (world.files plan.setupStatePath))
  let recorded := world.setFile plan.setupStatePath setup.1
  match setup.2 with
  | some message => { world := recorded, raised := some message }
  | none =>
      let install := settle faults.install (recorded.manifests plan.installStatePath)
        (atomicWrite (installStateBytes state) (recorded.manifests plan.installStatePath))
      let pointed := recorded.setManifest plan.installStatePath install.1
      match install.2 with
      | some message => { world := pointed, wroteSetup := true, raised := some message }
      | none =>
          let referenced := updateReferences faults.references pointed .setup plan.setupReferenceOwner
            [plan.objectDigest] "cannot retain setup object reference"
          { world := referenced.1, wroteSetup := true, wroteInstall := true, raised := referenced.2.map Raised.message }

def writeSetup (faults : PersistFaults) (world : World) (plan : CanonicalSetupPlan) (record : SetupStateRecord)
    (found : Inspection) : Written :=
  match pointedState plan found, recordBytes record with
  | .ok state, .ok content => writeAll faults world plan content state
  | .error message, _ => { world, raised := some message }
  | .ok _, .error message => { world, raised := some message }

/-! ## The call -/

/-- The world after a call, its result, and the errors of its restores. -/
structure PersistReport where
  world : World
  result : Result Unit
  restoreErrors : List String := []

/-- What was written is put back, the manifest first. -/
def compensate (faults : PersistFaults) (plan : CanonicalSetupPlan) (found : Inspection) (written : Written)
    (message : String) : PersistReport :=
  let install :=
    if written.wroteInstall then
      restoreFiles (fun _ => faults.restoreInstall) [⟨plan.installStatePath, "install state", found.installBefore⟩]
        written.world.manifests
    else (written.world.manifests, [])
  let setup :=
    if written.wroteSetup then
      restoreFiles (fun _ => faults.restoreSetup) [⟨plan.setupStatePath, "setup state", found.setupBefore⟩]
        written.world.files
    else (written.world.files, [])
  let errors := install.2 ++ setup.2
  { world := { written.world with manifests := install.1, files := setup.1 }
    result := error setupIoFailed ("cannot persist canonical setup state: " ++ message ++
      if errors.isEmpty then "" else "; rollback incomplete: " ++ String.intercalate "; " errors)
    restoreErrors := errors }

def persistSetup (faults : PersistFaults) (world : World) (plan : CanonicalSetupPlan) (record : SetupStateRecord)
    (expected : Option SetupStateRecord) : PersistReport :=
  match faults.lock with
  | some message => ⟨world, error setupIoFailed ("cannot persist canonical setup state: " ++ message), []⟩
  | none =>
      match inspectSetup faults world plan expected with
      | .error diagnostics =>
          match faults.unlock with
          | some message => ⟨world, error setupIoFailed ("cannot persist canonical setup state: " ++ message), []⟩
          | none => ⟨world, .error diagnostics, []⟩
      | .ok found =>
          let written := writeSetup faults world plan record found
          -- An error while the lock is released takes the place of the error before it.
          match faults.unlock <|> written.raised with
          | some message => compensate faults plan found written message
          | none => ⟨written.world, .ok (), []⟩

end Persisting

end AgentArtifacts.Setup
