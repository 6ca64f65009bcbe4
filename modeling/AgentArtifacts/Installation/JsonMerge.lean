import AgentArtifacts.InstallState.Model
import AgentArtifacts.Installation.Snapshot

/-!
# Merging into JSON documents

A merge descends to a container, creating the objects that are missing, and
sets one key of it or adds one item to a list. Without force it meets an
obstacle with a conflict, so what it accepts keeps every member that does not
lie on the path of its own identity.
-/

namespace AgentArtifacts

def installInvalid : DiagnosticCode := ⟨"install-invalid"⟩

def installConflict : DiagnosticCode := ⟨"install-conflict"⟩

def exceptionCode : DiagnosticCode := ⟨"exception"⟩

/-- An exception that no caller turns into a diagnostic. -/
def raised {α : Type} (message : String) : Result α := error exceptionCode message

/-! ## Values -/

namespace Json

mutual

/-- The value with the members of every object in key order. -/
def normalize : Json → Json
  | .null => .null
  | .bool b => .bool b
  | .int i => .int i
  | .str s => .str s
  | .arr items => .arr (normalizeItems items)
  | .obj entries => .obj (sortEntries (normalizeEntries entries))

def normalizeItems : List Json → List Json
  | [] => []
  | item :: rest => normalize item :: normalizeItems rest

def normalizeEntries : List (String × Json) → List (String × Json)
  | [] => []
  | (key, item) :: rest => (key, normalize item) :: normalizeEntries rest

end

mutual

/-- The first member of a name, members of the value itself before nested ones. -/
def identityValue (field : String) : Json → Option Json
  | .obj entries =>
      match Dict.get? entries field with
      | some value => some value
      | none => identityValueEntries field entries
  | .arr items => identityValueItems field items
  | _ => none

def identityValueItems (field : String) : List Json → Option Json
  | [] => none
  | item :: rest =>
      match identityValue field item with
      | some value => some value
      | none => identityValueItems field rest

def identityValueEntries (field : String) : List (String × Json) → Option Json
  | [] => none
  | (_, item) :: rest =>
      match identityValue field item with
      | some value => some value
      | none => identityValueEntries field rest

end

/-- The fields that identify an item of a list, if it has all of them. -/
def identityEvidence (value : Json) (identity : List String) : Option Json :=
  (identity.mapM fun field => (identityValue field value).map fun item => (field, normalize item)).map
    fun fields => .obj (sortEntries fields)

end Json

/-! ## Descending -/

def pathParts (jsonPath : String) : List String :=
  if jsonPath = "" then [] else splitChar '.' jsonPath

/-- The object below a field; a missing one is new, another value is an obstacle. -/
def childOf (jsonPath : String) (force : Bool) (node : Dict) (part : String) : Result Dict :=
  match node.get? part with
  | none => .ok []
  | some (.obj entries) => .ok entries
  | some _ =>
      if force then .ok []
      else error installConflict ("JSON merge path " ++ pyRepr jsonPath ++ " crosses non-object field " ++
        pyRepr part)

/-- The document with the container at the end of the path updated. -/
def descend (jsonPath : String) (force : Bool) (update : Dict → Result Dict) :
    List String → Dict → Result Dict
  | [], node => update node
  | part :: rest, node => do
      let child ← childOf jsonPath force node part
      let updated ← descend jsonPath force update rest child
      return node.set part (.obj updated)

/-! ## Merging -/

structure MergePayload where
  destination : String
  jsonPath : String
  mode : MergeMode
  value : Json
  identity : List String
deriving DecidableEq

def setKey (action : MergePayload) (force : Bool) (key : String) (container : Dict) : Result Dict :=
  match container.get? key with
  | none => .ok (container.set key action.value)
  | some current =>
      if !current.pyEq action.value && !force then
        error installConflict ("JSON merge identity " ++ action.jsonPath ++ "." ++ key ++ " already differs")
      else .ok (container.set key action.value)

def listAt (action : MergePayload) (force : Bool) (parent : Dict) (key : String) :
    Result (List Json) :=
  match parent.get? key with
  | none => .ok []
  | some (.arr items) => .ok items
  | some _ =>
      if force then .ok []
      else error installConflict ("JSON merge path " ++ pyRepr action.jsonPath ++ " is not a list")

/-- Places of the items that carry the identity. -/
def matchingPlaces (action : MergePayload) (evidence : Json) (items : List Json) : List Nat :=
  (items.zipIdx.filter fun item =>
    match item.1.identityEvidence action.identity with
    | none => false
    | some found => found.pyEq evidence).map (·.2)

def setItem (action : MergePayload) (evidence : Json) (force : Bool) (items : List Json) :
    Result (List Json) :=
  match matchingPlaces action evidence items with
  | [] => .ok (items ++ [action.value])
  | [place] =>
      if (items.getD place .null).pyEq action.value then .ok items
      else if force then .ok (items.set place action.value)
      else error installConflict ("JSON merge identity already differs at " ++ pyRepr action.jsonPath)
  | _ => error installConflict ("JSON merge identity is duplicated at " ++ pyRepr action.jsonPath)

def addToList (action : MergePayload) (evidence : Json) (force : Bool) (key : String)
    (parent : Dict) : Result Dict := do
  let items ← listAt action force parent key
  let updated ← setItem action evidence force items
  return parent.set key (.arr updated)

/-- The document a merge leaves. -/
def mergedDocument (action : MergePayload) (evidence : Json) (force : Bool) (root : Dict) :
    Result Dict :=
  match action.mode with
  | .key =>
      match action.identity with
      | [] => error installInvalid "key merge has no identity"
      | key :: _ =>
          descend action.jsonPath force (setKey action force key) (pathParts action.jsonPath) root
  | .list =>
      if action.jsonPath = "" then error installInvalid "list merge requires a JSON path"
      else
        let parts := splitChar '.' action.jsonPath
        let parent := String.intercalate "." parts.dropLast
        descend parent force (addToList action evidence force (parts.getLastD "")) (pathParts parent) root

def mergeIdentityEvidence (action : MergePayload) : Result Json :=
  match action.mode with
  | .key =>
      if action.identity = [] then error installInvalid "key merge has no identity"
      else .ok (.arr (action.identity.map .str))
  | .list =>
      match action.value.identityEvidence action.identity with
      | none => error installInvalid "list merge value has incomplete identity evidence"
      | some evidence =>
          if action.identity.Nodup then .ok evidence
          else raised "JsonObject entries must have unique keys"

section Contents

variable [StandardLibrary]

def strictMapping (content : Bytes) (path : String) : Result Dict :=
  match parseJson content with
  | .ok (.obj entries) => .ok entries
  | _ => error installInvalid ("install JSON input is invalid: " ++ path)

/-- The document at a merge destination; nothing there is an empty document. -/
def existingMapping (snapshot : PathSnapshot) : Result Dict :=
  match snapshot.state with
  | .absent => .ok []
  | .file content _ => strictMapping content snapshot.path
  | _ => error installConflict ("merge destination is not a regular file: " ++ snapshot.path)

def documentBytes (root : Dict) : Bytes := encodeUtf8 (StandardLibrary.jsonDumpsIndent (.obj root))

def mergedContent (action : MergePayload) (snapshot : PathSnapshot) (evidence : Json)
    (force : Bool) : Result Bytes := do
  let existing ← existingMapping snapshot
  let root ← mergedDocument action evidence force existing
  return documentBytes root

end Contents

/-! ## Members -/

/-- The member at a path of keys. -/
def Json.member : Json → List String → Option Json
  | value, [] => some value
  | .obj entries, key :: rest => (Dict.get? entries key).bind fun child => child.member rest
  | _, _ :: _ => none

@[simp] theorem Json.member_nil (value : Json) : value.member [] = some value := by
  cases value <;> rfl

@[simp] theorem Json.member_obj_cons (entries : Dict) (key : String) (rest : List String) :
    Json.member (.obj entries) (key :: rest) = (entries.get? key).bind fun child => child.member rest :=
  rfl

theorem Json.member_append (value : Json) (first second : List String) :
    value.member (first ++ second) = (value.member first).bind fun child => child.member second := by
  induction first generalizing value with
  | nil => simp
  | cons key rest ih =>
      cases value with
      | obj entries =>
          simp only [List.cons_append, Json.member_obj_cons, Option.bind_assoc, ih]
      | null => rfl
      | bool b => rfl
      | int i => rfl
      | str s => rfl
      | arr items => rfl

/-- Neither path leads through the other. -/
def Diverges (a b : List String) : Prop := ¬ a <+: b ∧ ¬ b <+: a

variable {key : String}

theorem diverges_cons_same {a b : List String} (h : Diverges (key :: a) (key :: b)) :
    Diverges a b := by
  refine ⟨fun hab => h.1 ?_, fun hba => h.2 ?_⟩
  · exact List.prefix_cons_inj key |>.mpr hab
  · exact List.prefix_cons_inj key |>.mpr hba

theorem Json.member_empty {path : List String} (h : path ≠ []) : Json.member (.obj []) path = none := by
  cases path with
  | nil => exact absurd rfl h
  | cons key rest => rfl

/-- A descent whose update keeps the members off its last step keeps every
member off the whole path. -/
theorem descend_member {jsonPath : String} {update : Dict → Result Dict} {last : String}
    (hupdate : ∀ container container' path, update container = .ok container' →
      Diverges path [last] → Json.member (.obj container') path = Json.member (.obj container) path)
    {parts : List String} {node node' : Dict}
    (h : descend jsonPath false update parts node = .ok node') {path : List String}
    (hpath : Diverges path (parts ++ [last])) :
    Json.member (.obj node') path = Json.member (.obj node) path := by
  induction parts generalizing node node' path with
  | nil => exact hupdate node node' path h hpath
  | cons part rest ih =>
      simp only [descend] at h
      obtain ⟨child, hchild, h⟩ := Result.of_bind_ok h
      obtain ⟨updated, hupdated, h⟩ := Result.of_bind_ok h
      obtain rfl : node.set part (.obj updated) = node' := Except.ok.inj h
      cases path with
      | nil => exact absurd (List.nil_prefix) hpath.1
      | cons key more =>
          by_cases hkey : key = part
          · subst hkey
            have hmore : Diverges more (rest ++ [last]) := diverges_cons_same hpath
            have hbelow := ih hupdated hmore
            rw [Json.member_obj_cons, Json.member_obj_cons, Dict.get?_set_self, Option.bind_some, hbelow]
            have hne : more ≠ [] := by
              rintro rfl
              exact hmore.1 List.nil_prefix
            unfold childOf at hchild
            split at hchild
            · rename_i hnone
              obtain rfl : [] = child := Except.ok.inj hchild
              rw [hnone, Json.member_empty hne]
              rfl
            · rename_i entries hobject
              obtain rfl : entries = child := Except.ok.inj hchild
              rw [hobject]
              rfl
            · exact absurd hchild (by simp [error])
          · rw [Json.member_obj_cons, Json.member_obj_cons, Dict.get?_set_of_ne _ _ hkey]

/-- The container a descent updates, as it was found and as it was left. -/
theorem descend_container {jsonPath : String} {update : Dict → Result Dict}
    {parts : List String} {node node' : Dict}
    (h : descend jsonPath false update parts node = .ok node') :
    ∃ container container', update container = .ok container' ∧
      Json.member (.obj node') parts = some (.obj container') ∧
      (Json.member (.obj node) parts = some (.obj container) ∨
        (Json.member (.obj node) parts = none ∧ container = [])) := by
  induction parts generalizing node node' with
  | nil => exact ⟨node, node', h, by simp, Or.inl (by simp)⟩
  | cons part rest ih =>
      simp only [descend] at h
      obtain ⟨child, hchild, h⟩ := Result.of_bind_ok h
      obtain ⟨updated, hupdated, h⟩ := Result.of_bind_ok h
      obtain rfl : node.set part (.obj updated) = node' := Except.ok.inj h
      obtain ⟨container, container', hstep, hafter, hbefore⟩ := ih hupdated
      refine ⟨container, container', hstep, by simpa using hafter, ?_⟩
      unfold childOf at hchild
      split at hchild
      · rename_i hnone
        obtain rfl : [] = child := Except.ok.inj hchild
        have hempty : container = [] := by
          rcases hbefore with hfound | ⟨_, hempty⟩
          · cases rest with
            | nil => simpa using hfound.symm
            | cons next others => exact absurd hfound (by simp)
          · exact hempty
        exact Or.inr ⟨by simp [hnone], hempty⟩
      · rename_i entries hobject
        obtain rfl : entries = child := Except.ok.inj hchild
        simpa [hobject] using hbefore
      · exact absurd hchild (by simp [error])

/-! ## What a merge keeps -/

/-- The parent of a merged list and its key there. -/
def listPath (jsonPath : String) : List String × String :=
  let parts := splitChar '.' jsonPath
  (pathParts (String.intercalate "." parts.dropLast), parts.getLastD "")

/-- The path of the member that a merge may set. -/
def identityPath (action : MergePayload) : List String :=
  match action.mode with
  | .key => pathParts action.jsonPath ++ action.identity.take 1
  | .list => (listPath action.jsonPath).1 ++ [(listPath action.jsonPath).2]

/-- Every member off the path of the identity is kept, and a list keeps its items
and gains at most the merged one. -/
structure KeepsOtherMembers (action : MergePayload) (before after : Dict) : Prop where
  members : ∀ path, Diverges path (identityPath action) →
    Json.member (.obj after) path = Json.member (.obj before) path
  items : action.mode = .list → ∃ items,
    (Json.member (.obj before) (identityPath action) = some (.arr items) ∨
      (Json.member (.obj before) (identityPath action) = none ∧ items = [])) ∧
    (Json.member (.obj after) (identityPath action) = some (.arr items) ∨
      Json.member (.obj after) (identityPath action) = some (.arr (items ++ [action.value])))

theorem member_set_of_diverges {container : Dict} {value : Json} {path : List String}
    (h : Diverges path [key]) :
    Json.member (.obj (container.set key value)) path = Json.member (.obj container) path := by
  cases path with
  | nil => exact absurd List.nil_prefix h.1
  | cons first rest =>
      have hne : first ≠ key := by
        rintro rfl
        exact h.2 (by simp)
      rw [Json.member_obj_cons, Json.member_obj_cons, Dict.get?_set_of_ne _ _ hne]

theorem setKey_eq_ok {action : MergePayload} {force : Bool} {container container' : Dict}
    (h : setKey action force key container = .ok container') :
    container' = container.set key action.value := by
  unfold setKey at h
  split at h
  · exact (Except.ok.inj h).symm
  · exact (Except.ok.inj (Result.of_check_ok h).2).symm

theorem addToList_eq_ok {action : MergePayload} {evidence : Json}
    {parent parent' : Dict} (h : addToList action evidence false key parent = .ok parent') :
    ∃ items items', parent' = parent.set key (.arr items') ∧
      (parent.get? key = some (.arr items) ∨ (parent.get? key = none ∧ items = [])) ∧
      (items' = items ∨ items' = items ++ [action.value]) := by
  unfold addToList at h
  obtain ⟨items, hitems, h⟩ := Result.of_bind_ok h
  obtain ⟨items', hitems', h⟩ := Result.of_bind_ok h
  refine ⟨items, items', (Except.ok.inj h).symm, ?_, ?_⟩
  · unfold listAt at hitems
    split at hitems
    · rename_i hnone
      exact Or.inr ⟨hnone, (Except.ok.inj hitems).symm⟩
    · rename_i found harray
      rw [Except.ok.inj hitems] at harray
      exact Or.inl harray
    · exact absurd hitems (by simp [error])
  · unfold setItem at hitems'
    split at hitems'
    · exact Or.inr (Except.ok.inj hitems').symm
    · split at hitems'
      · exact Or.inl (Except.ok.inj hitems').symm
      · exact absurd hitems' (by simp [error])
    · exact absurd hitems' (by simp [error])

/-- An accepted merge without force keeps every member outside its identity. -/
theorem mergedDocument_keeps {action : MergePayload} {evidence : Json} {root root' : Dict}
    (h : mergedDocument action evidence false root = .ok root') :
    KeepsOtherMembers action root root' := by
  unfold mergedDocument at h
  cases hmode : action.mode with
  | key =>
      rw [hmode] at h
      cases hidentity : action.identity with
      | nil => exact absurd h (by simp [hidentity, error])
      | cons key others =>
          simp only [hidentity] at h
          refine ⟨?_, fun hlist => absurd hlist (by simp [hmode])⟩
          intro path hpath
          simp only [identityPath, hmode, hidentity, List.take_succ_cons, List.take_zero] at hpath
          refine descend_member ?_ h hpath
          intro container container' path hset hdiverges
          rw [setKey_eq_ok hset]
          exact member_set_of_diverges hdiverges
  | list =>
      rw [hmode] at h
      simp only at h
      split at h
      · exact absurd h (by simp [error])
      · have hpathEq : identityPath action =
            (listPath action.jsonPath).1 ++ [(listPath action.jsonPath).2] := by
          simp [identityPath, hmode]
        have hdescend : descend (String.intercalate "." (splitChar '.' action.jsonPath).dropLast) false
            (addToList action evidence false (listPath action.jsonPath).2)
            (listPath action.jsonPath).1 root = .ok root' := h
        refine ⟨?_, fun _ => ?_⟩
        · intro path hpath
          rw [hpathEq] at hpath
          refine descend_member ?_ hdescend hpath
          intro container container' path hset hdiverges
          obtain ⟨_, _, rfl, _, _⟩ := addToList_eq_ok hset
          exact member_set_of_diverges hdiverges
        · obtain ⟨container, container', hset, hafter, hbefore⟩ := descend_container hdescend
          obtain ⟨items, items', rfl, hfound, hadded⟩ := addToList_eq_ok hset
          refine ⟨items, ?_, ?_⟩
          · rw [hpathEq]
            rcases hbefore with hobject | ⟨hmissing, hempty⟩
            · rw [Json.member_append, hobject]
              simpa using hfound
            · subst hempty
              refine Or.inr ⟨by rw [Json.member_append, hmissing]; rfl, ?_⟩
              simpa using hfound
          · rw [hpathEq, Json.member_append, hafter]
            rcases hadded with rfl | rfl
            · exact Or.inl (by simp)
            · exact Or.inr (by simp)

end AgentArtifacts
