import AgentArtifacts.Protocol.Hashing
import AgentArtifacts.Setup.FrozenText
import AgentArtifacts.Setup.Model

/-!
# Reviewing and running an undo

The review of an undo projects every receipt to its module, one subject and what becomes of
it, and its digest binds this projection. The rollback reads the receipts themselves.
-/

namespace AgentArtifacts.Setup

/-- `receipt.get(key)`. -/
def Receipt.at (receipt : Receipt) (key : String) : Json := (Dict.get? receipt key).getD .null

/-- `receipt.get(key) is True`. -/
def Receipt.is (receipt : Receipt) (key : String) : Bool := receipt.at key == .bool true

def Receipt.holds (receipt : Receipt) (key : String) : Bool := truthy (receipt.at key)

def Receipt.has (receipt : Receipt) (key : String) : Bool := (Dict.get? receipt key).isSome

def Receipt.compensated (receipt : Receipt) : Bool := receipt.at "setup_disposition" == .str "compensated"

def keychainModule : String := "macos-keychain.store@1"

def blockModules : List String := ["shell.env-from-keychain@1", "shell.env-from-input@1", "file.managed-block@1"]

def directoryModule : String := "directory.create@1"

def mergeModule : String := "json.managed-merge@1"

def customModule : String := "custom.install@1"

def pullModule : String := "docker.pull@1"

def buildModule : String := "docker.build@1"

def inertModules : List String := ["restart.notice@1", "command.verify@1", "trust-store.export-certificates@1"]

/-- `receipt.get("module") == name`. -/
def Receipt.isModule (receipt : Receipt) (name : String) : Bool := receipt.at "module" == .str name

section Undo

variable [UnicodeTable]

/-- `str(receipt.get("module", ""))`. -/
def Receipt.module (receipt : Receipt) : String := strFrozen ((Dict.get? receipt "module").getD (.str ""))

/-! ## The review -/

inductive Disposition where
  | reverses
  | keeps
deriving DecidableEq

def Disposition.value : Disposition → String
  | .reverses => "reverses"
  | .keeps => "keeps"

structure UndoStep where
  index : Nat
  module : String
  subject : String
  disposition : Disposition
  reason : String
deriving DecidableEq

def subjectKeys : List String := ["tag", "image", "path", "output", "script"]

/-- The key that names the subject of a receipt. -/
def Receipt.subjectKey (receipt : Receipt) : Option String := subjectKeys.find? receipt.holds

/-- What the subject says of a Keychain item. -/
def keychainSubject (service account : String) : String :=
  String.ofList ("Keychain item service=".toList ++ quoted service ++ (" account=".toList ++ quoted account))

/-- `_subject`. -/
def Receipt.subject (receipt : Receipt) : String :=
  match receipt.subjectKey with
  | some key => strFrozen (receipt.at key)
  | none =>
      if receipt.holds "service" && receipt.holds "account" then
        keychainSubject (strFrozen (receipt.at "service")) (strFrozen (receipt.at "account"))
      else strFrozen ((Dict.get? receipt "step_id").getD (.str "unnamed step"))

/-- `_disposition`. -/
def Receipt.disposition (receipt : Receipt) : Disposition × String :=
  if receipt.compensated then (.keeps, "the failed setup already compensated this step")
  else if receipt.module = keychainModule then
    if receipt.is "replaced" then
      (.keeps, "this step overwrote a value the run did not create, so the undo will not delete it; the receipt's recovery line has the manual restore")
    else if receipt.is "created" then (.reverses, "deletes the Keychain item this run created")
    else (.keeps, "this step stored nothing, so there is nothing to delete")
  else if receipt.module ∈ blockModules then
    if receipt.is "changed" then
      if receipt.at "file_existed" == .bool false then
        (.reverses, "removes the file this run created for the managed block")
      else (.reverses, "restores the file to the block it held before this run")
    else (.keeps, "the file already held this block, so this run changed nothing")
  else if receipt.module = directoryModule then
    if receipt.is "created" then (.reverses, "removes the directory this run created, if it is empty")
    else (.keeps, "the directory existed before this run")
  else if receipt.module = mergeModule then
    if receipt.is "replaced" then (.keeps, "this step overwrote a value the run did not create")
    else if receipt.is "changed" then (.reverses, "removes the key this run merged in")
    else (.keeps, "the file already held this value")
  else if receipt.module = customModule then
    if receipt.is "reversible" then (.reverses, "runs the recipe's own rollback phase")
    else (.keeps, "this recipe declares no rollback, so the undo will report incomplete")
  else if receipt.module = pullModule then
    if receipt.is "preexisting" then (.keeps, "the image was on this machine before the run and is left alone")
    else (.keeps, "images may be shared, so this one is never removed automatically — and because it stays, the undo will report `rollback_incomplete` and keep the receipt")
  else if receipt.module = buildModule then
    if receipt.is "preexisting" then
      (.keeps, "the tag named an image before this run, so it is not removed — but it now points at what this run built, and the receipt never recorded the earlier image id, so the undo cannot restore the original binding (LAF-58)")
    else (.reverses, "removes the image tag this run created")
  else if receipt.module ∈ inertModules then (.keeps, "this step changed nothing that outlives the run")
  else if receipt.holds "changed" then
    (.keeps, "no compensation exists for this module, so the undo will report incomplete")
  else (.keeps, "this step changed nothing")

def Receipt.undoStep (receipt : Receipt) (index : Nat) : UndoStep :=
  ⟨index, receipt.module, receipt.subject, receipt.disposition.1, receipt.disposition.2⟩

/-- The steps of receipts that are already in the order of the rollback. -/
def undoSteps : List Receipt → List UndoStep
  | [] => []
  | receipt :: earlier => receipt.undoStep (earlier.length + 1) :: undoSteps earlier

/-- `plan_undo`: the last receipt is the first step. -/
def planUndo (record : SetupStateRecord) : List UndoStep := undoSteps record.receipt.reverse

def UndoStep.payload (step : UndoStep) : Json :=
  .obj [("step", .int step.index), ("module", .str step.module), ("subject", .str step.subject),
    ("disposition", .str step.disposition.value), ("reason", .str step.reason)]

/-- `undo_payload`. -/
def undoPayload (steps : List UndoStep) (coordinate profile scope : String) : Json :=
  .obj [("coordinate", .str coordinate), ("profile", .str profile), ("scope", .str scope),
    ("steps", .arr (steps.map UndoStep.payload)),
    ("reverses", .int (steps.countP fun step => step.disposition == .reverses)),
    ("keeps", .int (steps.countP fun step => step.disposition == .keeps))]

/-- `undo_digest`; a payload that is no canonical document has none. -/
def undoDigest [StandardLibrary] (payload : Json) : Option ObjectDigest :=
  match parseJson (encodeUtf8 (JsonText.dumps payload)) with
  | .ok parsed => some (jsonDigest parsed)
  | .error _ => none

/-- The digest that `undo_view` shows for a record. -/
def viewedDigest [StandardLibrary] (record : SetupStateRecord) (coordinate profile scope : String) : Option ObjectDigest :=
  undoDigest (undoPayload (planUndo record) coordinate profile scope)

/-! ## The rollback -/

/-- What a compensation does, apart from what it does it to. -/
inductive Action where
  | deleteItem
  | restoreBlock
  | removeDirectory
  | removeKey
  | runRollback
  | removeTag
deriving DecidableEq

/-- The keys of a receipt that name what an action is done to. -/
def Action.targets : Action → List String
  | .deleteItem => ["account", "service"]
  | .restoreBlock => ["path", "marker"]
  | .removeDirectory => ["path"]
  | .removeKey => ["path", "json_path"]
  | .runRollback => ["script"]
  | .removeTag => ["tag"]

/-- The keys without which an action ends the rollback with an error. -/
def Action.needs : Action → List String
  | .deleteItem => ["account", "service"]
  | .restoreBlock => ["path"]
  | .removeDirectory => ["path"]
  | .removeKey => ["path"]
  | .runRollback => ["script", "run_dir", "plan_hash", "script_hash"]
  | .removeTag => ["tag"]

mutual

/-- No mapping is a JSON document of `json.dumps`, at any depth. -/
def holdsMapping : Json → Bool
  | .obj _ => true
  | .arr items => holdsMappingItems items
  | _ => false

def holdsMappingItems : List Json → Bool
  | [] => false
  | item :: rest => holdsMapping item || holdsMappingItems rest

end

/-- An action comes to its target, or a value that it reads ends the rollback with an error. -/
def Action.starts (action : Action) (receipt : Receipt) : Bool :=
  action.needs.all receipt.has && (action != .runRollback || !holdsMapping (receipt.at "plan_hash"))

/-- The action that `_rollback_receipt` takes for a receipt, if it takes one. -/
def Receipt.action (receipt : Receipt) : Option Action :=
  if receipt.compensated then none
  else if receipt.isModule keychainModule then
    if receipt.is "replaced" then none else if receipt.is "created" then some .deleteItem else none
  else if blockModules.any receipt.isModule then if receipt.holds "changed" then some .restoreBlock else none
  else if receipt.isModule directoryModule then if receipt.is "created" then some .removeDirectory else none
  else if receipt.isModule mergeModule then
    if receipt.is "changed" then if receipt.is "replaced" then none else some .removeKey else none
  else if receipt.isModule customModule then if receipt.is "reversible" then some .runRollback else none
  else if receipt.isModule buildModule then if receipt.is "preexisting" then none else some .removeTag
  else none

/-- What an action reads at one of its target keys: the texts of the parts of a JSON path,
and otherwise the text of the value. -/
def Receipt.target (receipt : Receipt) (key : String) : Option (List String) :=
  if key = "json_path" then
    match receipt.at key with
    | .arr (part :: rest) => some ((part :: rest).map strFrozen)
    | _ => none
  -- Without the block it looks for, the marker finds none.
  else if key = "marker" ∧ receipt.has "installed_block" = false then none
  else (Dict.get? receipt key).map fun value => [strFrozen value]

/-- An action and what it is done to. -/
structure Compensation where
  action : Action
  targets : List (Option (List String))
deriving DecidableEq

inductive RollbackStep where
  /-- Nothing is touched. -/
  | leaves
  /-- A key is missing, which ends the rollback. -/
  | raises
  | performs (compensation : Compensation)
deriving DecidableEq

/-- `_rollback_receipt`, up to what the compensation finds in the world. -/
def Receipt.rollbackStep (receipt : Receipt) : RollbackStep :=
  match receipt.action with
  | none => .leaves
  | some action =>
      if action.starts receipt then .performs ⟨action, action.targets.map receipt.target⟩ else .raises

/-- `_rollback_all` over receipts in the order of the rollback. -/
def rollbackSteps : List Receipt → List RollbackStep
  | [] => []
  | receipt :: earlier =>
      match receipt.rollbackStep with
      | .raises => [.raises]
      | step => step :: rollbackSteps earlier

/-- The compensations of `rollback_record`, step by step. -/
def rollbackRecord (record : SetupStateRecord) : List RollbackStep := rollbackSteps record.receipt.reverse

end Undo

end AgentArtifacts.Setup
