import AgentArtifacts.Library.Search
import Mathlib.Data.List.Nodup

/-!
# Depth-first search with one dictionary

The dictionary of what was found serves as result and as visited set: a node is
entered before the nodes it leads to. Failures are collected and do not stop the
search. Where there are none, the search has met the same nodes as the memoised
search that finishes a node after those it leads to.
-/

namespace Search

/-- What an exploration does at its nodes. Nodes of one key are one entry of the dictionary. -/
structure Explorer (ν κ β ε : Type) where
  nodes : List ν
  key : ν → κ
  /-- The value of a node and, in order, the nodes it leads to or why it does not. -/
  expand : ν → Except ε (β × List (Except ε ν))
  expand_mem : ∀ {node value next}, expand node = .ok (value, next) → node ∈ nodes
  cycle : List ν → ν → ε

/-- The dictionary, in the order of its insertions, and the failures so far. -/
structure Explored (κ β ε : Type) where
  found : List (κ × β) := []
  failures : List ε := []

namespace Explored

variable {κ β ε : Type}

def fail (state : Explored κ β ε) (failure : ε) : Explored κ β ε :=
  { state with failures := state.failures ++ [failure] }

def add (state : Explored κ β ε) (key : κ) (value : β) : Explored κ β ε :=
  { state with found := state.found ++ [(key, value)] }

@[simp] theorem fail_found (state : Explored κ β ε) (failure : ε) : (state.fail failure).found = state.found := rfl

@[simp] theorem fail_failures (state : Explored κ β ε) (failure : ε) :
    (state.fail failure).failures = state.failures ++ [failure] := rfl

@[simp] theorem add_found (state : Explored κ β ε) (key : κ) (value : β) :
    (state.add key value).found = state.found ++ [(key, value)] := rfl

@[simp] theorem add_failures (state : Explored κ β ε) (key : κ) (value : β) :
    (state.add key value).failures = state.failures := rfl

end Explored

variable {ν κ β ε : Type} [DecidableEq ν] [DecidableEq κ]

namespace Explorer

variable (explorer : Explorer ν κ β ε)

/-- The memoised search along the same edges; a node with a failing edge does not expand. -/
def visitor : Visitor ν β Unit ε where
  nodes := explorer.nodes
  expand node :=
    match explorer.expand node with
    | .error failure => .error failure
    | .ok (value, next) => (next.mapM id).map fun nodes => (value, nodes)
  expand_mem := by
    intro node own next h
    split at h
    · exact absurd h (by simp)
    · rename_i hexpand
      exact explorer.expand_mem hexpand
  combine _ _ := ()
  cycle := explorer.cycle
  trailFirst := true

mutual

def visit (trail : List ν) (state : Explored κ β ε) (node : ν) : Explored κ β ε :=
  if _hnew : node ∈ trail then state.fail (explorer.cycle trail node)
  else if explorer.key node ∈ state.found.map Prod.fst then state
  else
    match _hexpand : explorer.expand node with
    | .error failure => state.fail failure
    | .ok (value, next) => visitAll (trail ++ [node]) (state.add (explorer.key node) value) next
termination_by (explorer.visitor.remaining trail, 0)
decreasing_by
  exact Prod.Lex.left _ _ (explorer.visitor.remaining_append_lt (explorer.expand_mem _hexpand) _hnew)

def visitAll (trail : List ν) (state : Explored κ β ε) : List (Except ε ν) → Explored κ β ε
  | [] => state
  | .error failure :: rest => visitAll trail (state.fail failure) rest
  | .ok node :: rest => visitAll trail (visit trail state node) rest
termination_by next => (explorer.visitor.remaining trail, next.length + 1)

end

/-- One step from a node that expands. -/
def Leads (a b : ν) : Prop := ∃ value next, explorer.expand a = .ok (value, next) ∧ .ok b ∈ next

/-- The node expands and all it leads to is there. -/
def Resolves (node : ν) : Prop :=
  ∃ value next, explorer.expand node = .ok (value, next) ∧ ∀ edge ∈ next, ∃ other, edge = .ok other

/-- Nodes that keys tell apart, with all they lead to. -/
structure Keyed (proper : ν → Prop) : Prop where
  injective : ∀ {a b}, proper a → proper b → explorer.key a = explorer.key b → a = b
  closed : ∀ {a b}, proper a → explorer.Leads a b → proper b

variable {explorer}

/-! ## Nodes that resolve -/

omit [DecidableEq ν] [DecidableEq κ] in
theorem edges_cases (next : List (Except ε ν)) :
    (∃ nodes : List ν, next = nodes.map .ok) ∨ ∃ failure, .error failure ∈ next := by
  induction next with
  | nil => exact Or.inl ⟨[], rfl⟩
  | cons edge rest ih =>
      rcases ih with ⟨nodes, rfl⟩ | ⟨failure, hfailure⟩
      · cases edge with
        | error failure => exact Or.inr ⟨failure, List.mem_cons_self⟩
        | ok node => exact Or.inl ⟨node :: nodes, rfl⟩
      · exact Or.inr ⟨failure, List.mem_cons_of_mem _ hfailure⟩

omit [DecidableEq ν] [DecidableEq κ] in
theorem mapM_edges_ok (nodes : List ν) : (nodes.map .ok : List (Except ε ν)).mapM id = .ok nodes := by
  induction nodes with
  | nil => rfl
  | cons node rest ih =>
      rw [List.map_cons, List.mapM_cons, ih]
      rfl

omit [DecidableEq ν] [DecidableEq κ] in
theorem mapM_edges_error {next : List (Except ε ν)} {failure : ε} (h : .error failure ∈ next) :
    ∃ first, next.mapM id = .error first := by
  induction next with
  | nil => exact absurd h (by simp)
  | cons edge rest ih =>
      rw [List.mapM_cons]
      cases edge with
      | error first => exact ⟨first, rfl⟩
      | ok node =>
          obtain ⟨first, hfirst⟩ := ih (by simpa using h)
          rw [hfirst]
          exact ⟨first, rfl⟩

omit [DecidableEq ν] [DecidableEq κ] in
theorem visitor_expand_ok {node : ν} {value : β} {nodes : List ν}
    (h : explorer.expand node = .ok (value, nodes.map .ok)) : explorer.visitor.expand node = .ok (value, nodes) := by
  simp only [visitor, h, mapM_edges_ok]
  rfl

omit [DecidableEq ν] [DecidableEq κ] in
theorem visitor_expand_eq_ok {node : ν} {value : β} {nodes : List ν}
    (h : explorer.visitor.expand node = .ok (value, nodes)) : explorer.expand node = .ok (value, nodes.map .ok) := by
  simp only [visitor] at h
  split at h
  · exact absurd h (by simp)
  · rename_i found next hexpand
    rcases edges_cases next with ⟨others, rfl⟩ | ⟨failure, hfailure⟩
    · rw [mapM_edges_ok] at h
      obtain ⟨rfl, rfl⟩ := Prod.mk.inj (Except.ok.inj h)
      exact hexpand
    · obtain ⟨first, hfirst⟩ := mapM_edges_error hfailure
      rw [hfirst] at h
      exact absurd h (by simp [Except.map])

omit [DecidableEq ν] [DecidableEq κ] in
theorem visitor_expands_iff {node : ν} :
    (∃ value nodes, explorer.visitor.expand node = .ok (value, nodes)) ↔ explorer.Resolves node := by
  constructor
  · rintro ⟨value, nodes, h⟩
    refine ⟨value, _, visitor_expand_eq_ok h, fun edge hedge => ?_⟩
    obtain ⟨other, _, rfl⟩ := List.mem_map.mp hedge
    exact ⟨other, rfl⟩
  · rintro ⟨value, next, hexpand, hedges⟩
    rcases edges_cases next with ⟨nodes, rfl⟩ | ⟨failure, hfailure⟩
    · exact ⟨value, nodes, visitor_expand_ok hexpand⟩
    · obtain ⟨other, hother⟩ := hedges _ hfailure
      exact absurd hother (by simp)

omit [DecidableEq ν] [DecidableEq κ] in
theorem leads_of_edge {a b : ν} (h : explorer.visitor.Edge a b) : explorer.Leads a b := by
  obtain ⟨value, nodes, hexpand, hb⟩ := h
  exact ⟨value, _, visitor_expand_eq_ok hexpand, List.mem_map.mpr ⟨b, hb, rfl⟩⟩

omit [DecidableEq ν] [DecidableEq κ] in
theorem edge_of_leads {a b : ν} (ha : explorer.Resolves a) (h : explorer.Leads a b) : explorer.visitor.Edge a b := by
  obtain ⟨value, nodes, hexpand⟩ := visitor_expands_iff.mpr ha
  obtain ⟨other, next, hnext, hb⟩ := h
  rw [visitor_expand_eq_ok hexpand] at hnext
  obtain ⟨rfl, rfl⟩ := Prod.mk.inj (Except.ok.inj hnext)
  exact ⟨value, nodes, hexpand, by simpa using hb⟩

/-! ## What a search adds -/

variable (explorer) in
/-- A search among some nodes adds entries of theirs, each key once, and failures. -/
structure Grown (among : ν → Prop) (before after : Explored κ β ε) : Prop where
  entries : ∀ entry ∈ after.found, entry ∈ before.found ∨
    ∃ node value next, among node ∧ explorer.expand node = .ok (value, next) ∧ entry = (explorer.key node, value)
  keys : (before.found.map Prod.fst).Nodup → (after.found.map Prod.fst).Nodup
  failures : before.failures <+: after.failures

section Growth

variable {among : ν → Prop} {before middle after : Explored κ β ε}

omit [DecidableEq ν] [DecidableEq κ] in
theorem Grown.refl (state : Explored κ β ε) : explorer.Grown among state state :=
  ⟨fun _ hentry => Or.inl hentry, id, List.prefix_rfl⟩

omit [DecidableEq ν] [DecidableEq κ] in
theorem Grown.trans (h : explorer.Grown among before middle) (h' : explorer.Grown among middle after) :
    explorer.Grown among before after := by
  refine ⟨fun entry hentry => ?_, fun hkeys => h'.keys (h.keys hkeys), h.failures.trans h'.failures⟩
  rcases h'.entries entry hentry with hmiddle | hnew
  · exact h.entries entry hmiddle
  · exact Or.inr hnew

omit [DecidableEq ν] [DecidableEq κ] in
theorem grown_fail (state : Explored κ β ε) (failure : ε) : explorer.Grown among state (state.fail failure) :=
  ⟨fun _ hentry => Or.inl hentry, id, List.prefix_append _ _⟩

omit [DecidableEq ν] [DecidableEq κ] in
theorem grown_add {state : Explored κ β ε} {node : ν} {value : β} {next : List (Except ε ν)} (hnode : among node)
    (hfresh : explorer.key node ∉ state.found.map Prod.fst) (hexpand : explorer.expand node = .ok (value, next)) :
    explorer.Grown among state (state.add (explorer.key node) value) := by
  refine ⟨fun entry hentry => ?_, fun hkeys => ?_, List.prefix_rfl⟩
  · rcases List.mem_append.mp hentry with hold | hnew
    · exact Or.inl hold
    · exact Or.inr ⟨node, value, next, hnode, hexpand, List.mem_singleton.mp hnew⟩
  · rw [Explored.add_found, List.map_append]
    exact hkeys.append (List.nodup_singleton _) (by simpa using hfresh)

theorem grown_visitAll {trail : List ν} {next : List (Except ε ν)}
    (hvisit : ∀ state node, .ok node ∈ next → explorer.Grown among state (explorer.visit trail state node))
    (state : Explored κ β ε) : explorer.Grown among state (explorer.visitAll trail state next) := by
  induction next generalizing state with
  | nil =>
      rw [visitAll]
      exact Grown.refl state
  | cons edge rest ih =>
      have hrest := ih fun state node hnode => hvisit state node (List.mem_cons_of_mem _ hnode)
      cases edge with
      | error failure =>
          rw [visitAll]
          exact (grown_fail state failure).trans (hrest _)
      | ok node =>
          rw [visitAll]
          exact (hvisit state node List.mem_cons_self).trans (hrest _)

theorem grown_visit (hclosed : ∀ {a b}, among a → explorer.Leads a b → among b) (trail : List ν)
    (state : Explored κ β ε) {node : ν} (hnode : among node) :
    explorer.Grown among state (explorer.visit trail state node) := by
  -- The nodes that are not on the trail become fewer with every expansion.
  induction hremaining : explorer.visitor.remaining trail using Nat.strongRecOn generalizing trail state node with
  | _ n ih =>
      rw [visit]
      split
      · exact grown_fail state _
      · rename_i hnew
        split
        · exact Grown.refl state
        · rename_i hfresh
          split
          · exact grown_fail state _
          · rename_i value next hexpand
            have hless := explorer.visitor.remaining_append_lt (explorer.expand_mem hexpand) hnew
            refine (grown_add hnode hfresh hexpand).trans (grown_visitAll (fun state other hother => ?_) _)
            exact ih _ (hremaining ▸ hless) _ _ (hclosed hnode ⟨value, next, hexpand, hother⟩) rfl

end Growth

/-- A search that has failed stays failed. -/
theorem failures_visitAll {state : Explored κ β ε} (h : state.failures ≠ []) (trail : List ν)
    (next : List (Except ε ν)) : (explorer.visitAll trail state next).failures ≠ [] := by
  have hgrown : explorer.Grown (fun _ => True) state (explorer.visitAll trail state next) :=
    grown_visitAll (fun state _ _ => grown_visit (fun _ _ => trivial) trail state trivial) state
  intro hnone
  have hprefix := hgrown.failures
  rw [hnone, List.prefix_nil] at hprefix
  exact h hprefix

/-- Where an edge fails the search fails. -/
theorem failures_of_error {trail : List ν} {next : List (Except ε ν)} {failure : ε} (h : .error failure ∈ next)
    (state : Explored κ β ε) : (explorer.visitAll trail state next).failures ≠ [] := by
  induction next generalizing state with
  | nil => exact absurd h (by simp)
  | cons edge rest ih =>
      cases edge with
      | error first =>
          rw [visitAll]
          exact failures_visitAll (by simp) trail rest
      | ok node =>
          rw [visitAll]
          exact ih (by simpa using h) _

/-! ## The memoised search meets the same nodes -/

variable (explorer) in
/-- The dictionary holds what the memo has finished and what is being expanded. -/
def Matches (proper : ν → Prop) (trail : List ν) (state : Explored κ β ε) (memo : List (ν × Unit)) : Prop :=
  ∀ node, proper node →
    (explorer.key node ∈ state.found.map Prod.fst ↔ node ∈ memo.map Prod.fst ∨ node ∈ trail)

variable (explorer) in
/-- Both searches fail, or none does and they have met the same nodes. -/
def Agrees {γ : Type} (proper : ν → Prop) (trail : List ν) (state : Explored κ β ε) :
    Except ε (γ × List (ν × Unit)) → Prop
  | .ok (_, memo) => state.failures = [] ∧ explorer.Matches proper trail state memo
  | .error _ => state.failures ≠ []

variable {proper : ν → Prop}

theorem visitAll_agrees {trail : List ν} {nodes : List ν}
    (hvisit : ∀ {state memo node}, node ∈ nodes → state.failures = [] → explorer.Matches proper trail state memo →
      explorer.Agrees proper trail (explorer.visit trail state node) (explorer.visitor.visit trail memo node))
    {state : Explored κ β ε} {memo : List (ν × Unit)} (hclean : state.failures = [])
    (hmatch : explorer.Matches proper trail state memo) :
    explorer.Agrees proper trail (explorer.visitAll trail state (nodes.map .ok))
      (explorer.visitor.visitAll trail memo nodes) := by
  induction nodes generalizing state memo with
  | nil =>
      rw [List.map_nil, visitAll, Visitor.visitAll]
      exact ⟨hclean, hmatch⟩
  | cons node rest ih =>
      have hfirst := hvisit List.mem_cons_self hclean hmatch
      rw [List.map_cons, visitAll, Visitor.visitAll]
      split
      · rename_i failure hfailed
        rw [hfailed] at hfirst
        exact failures_visitAll hfirst trail _
      · rename_i value finished hdone
        rw [hdone] at hfirst
        have hothers := ih (fun hmem => hvisit (List.mem_cons_of_mem _ hmem)) hfirst.1 hfirst.2
        split
        · rename_i hfailed
          rw [hfailed] at hothers
          exact hothers
        · rename_i hall
          rw [hall] at hothers
          exact hothers

theorem visit_agrees (hkeyed : explorer.Keyed proper) {trail : List ν} {state : Explored κ β ε}
    {memo : List (ν × Unit)} {node : ν} (hnode : proper node) (hclean : state.failures = [])
    (hmatch : explorer.Matches proper trail state memo) :
    explorer.Agrees proper trail (explorer.visit trail state node) (explorer.visitor.visit trail memo node) := by
  induction hremaining : explorer.visitor.remaining trail using Nat.strongRecOn
    generalizing trail state memo node with
  | _ n ih =>
      by_cases hnew : node ∈ trail
      · have hknown : explorer.visitor.known trail memo node = none := by simp [Visitor.known, visitor, hnew]
        rw [visit, dif_pos hnew, Visitor.visit, hknown]
        simp [hnew, Agrees]
      have hmet : explorer.key node ∈ state.found.map Prod.fst ↔ node ∈ memo.map Prod.fst := by
        rw [hmatch node hnode]
        simp [hnew]
      rw [visit, dif_neg hnew, Visitor.visit]
      cases hknown : explorer.visitor.known trail memo node with
      | some value =>
          rw [if_pos (hmet.mpr (List.mem_map.mpr ⟨_, Visitor.mem_of_known hknown, rfl⟩))]
          exact ⟨hclean, hmatch⟩
      | none =>
          rw [if_neg fun hmem => Visitor.not_mem_of_known hknown hnew (hmet.mp hmem)]
          dsimp only
          rw [dif_neg hnew]
          split
          · -- A node that does not expand for the one does not expand for the other.
            rename_i hexpand
            split
            · simp [Agrees]
            · rename_i hother
              rw [visitor_expand_eq_ok hother] at hexpand
              exact absurd hexpand (by simp)
          · rename_i value next hexpand
            rcases edges_cases next with ⟨nodes, rfl⟩ | ⟨failure, hfailure⟩
            · have hless := explorer.visitor.remaining_append_lt (explorer.expand_mem hexpand) hnew
              have hbelow : explorer.Matches proper (trail ++ [node]) (state.add (explorer.key node) value) memo := by
                intro other hother
                have hsame : explorer.key other = explorer.key node ↔ other = node :=
                  ⟨hkeyed.injective hother hnode, fun heq => heq ▸ rfl⟩
                simp [hmatch other hother, hsame, or_assoc]
              have hall : explorer.Agrees proper (trail ++ [node])
                  (explorer.visitAll (trail ++ [node]) (state.add (explorer.key node) value) (nodes.map .ok))
                  (explorer.visitor.visitAll (trail ++ [node]) memo nodes) := by
                refine visitAll_agrees (fun hmem hclean hmatch => ?_) hclean hbelow
                have hleads : explorer.Leads node _ := ⟨value, _, hexpand, List.mem_map.mpr ⟨_, hmem, rfl⟩⟩
                exact ih _ (hremaining ▸ hless) (hkeyed.closed hnode hleads) hclean hmatch rfl
              split
              · rename_i hother
                rw [visitor_expand_ok hexpand] at hother
                exact absurd hother (by simp)
              · rename_i hother
                rw [visitor_expand_ok hexpand] at hother
                obtain ⟨rfl, rfl⟩ := Prod.mk.inj (Except.ok.inj hother)
                split
                · rename_i hfailed
                  rw [hfailed] at hall
                  exact hall
                · rename_i values done hdone
                  rw [hdone] at hall
                  refine ⟨hall.1, fun other hother => (hall.2 other hother).trans ?_⟩
                  simp [or_assoc, or_comm, or_left_comm]
            · have hfails : (explorer.visitAll (trail ++ [node]) (state.add (explorer.key node) value) next).failures ≠ [] :=
                failures_of_error hfailure _
              split
              · exact hfails
              · rename_i hother
                rw [visitor_expand_eq_ok hother] at hexpand
                obtain ⟨_, rfl⟩ := Prod.mk.inj (Except.ok.inj hexpand)
                exact absurd hfailure (by simp)

/-! ## The whole search -/

/-- What is found below some roots. -/
def explore (explorer : Explorer ν κ β ε) (roots : List ν) : Explored κ β ε :=
  explorer.visitAll [] {} (roots.map .ok)

variable {roots : List ν}

theorem explore_agrees (hkeyed : explorer.Keyed proper) (hroots : ∀ root ∈ roots, proper root) :
    explorer.Agrees proper [] (explorer.explore roots) (explorer.visitor.visitAll [] [] roots) :=
  visitAll_agrees (fun hmem hclean hmatch => visit_agrees hkeyed (hroots _ hmem) hclean hmatch) rfl
    fun node _ => by simp

/-- The search has no failures exactly when every node below the roots resolves and none of
these leads back to itself. -/
theorem explore_clean_iff (hkeyed : explorer.Keyed proper) (hroots : ∀ root ∈ roots, proper root) :
    (explorer.explore roots).failures = [] ↔
      ∀ root ∈ roots, ∀ node, Relation.ReflTransGen explorer.Leads root node →
        explorer.Resolves node ∧ ¬ Relation.TransGen explorer.Leads node node := by
  have hverdict : (explorer.explore roots).failures = [] ↔
      ∃ result, explorer.visitor.visitAll [] [] roots = .ok result := by
    have hagrees := explore_agrees hkeyed hroots
    cases hresult : explorer.visitor.visitAll [] [] roots with
    | ok result =>
        rw [hresult] at hagrees
        exact ⟨fun _ => ⟨result, rfl⟩, fun _ => hagrees.1⟩
    | error failure =>
        rw [hresult] at hagrees
        exact ⟨fun hclean => absurd hclean hagrees, by simp⟩
  rw [hverdict, Visitor.visitAll_ok_iff]
  constructor
  · intro h root hroot
    -- Every node on a path from the root resolves, so the path is one of the other search too.
    have hpath {node : ν} (hleads : Relation.ReflTransGen explorer.Leads root node) :
        Relation.ReflTransGen explorer.visitor.Edge root node := by
      induction hleads with
      | refl => exact .refl
      | tail _ hstep ih => exact ih.tail (edge_of_leads (visitor_expands_iff.mp (h root hroot _ ih).1) hstep)
    have hcycle {a b : ν} (ha : Relation.ReflTransGen explorer.Leads root a)
        (hleads : Relation.TransGen explorer.Leads a b) : Relation.TransGen explorer.visitor.Edge a b := by
      induction hleads with
      | single hstep => exact .single (edge_of_leads (visitor_expands_iff.mp (h root hroot _ (hpath ha)).1) hstep)
      | tail hbefore hstep ih =>
          have hmiddle := ha.trans hbefore.to_reflTransGen
          exact ih.tail (edge_of_leads (visitor_expands_iff.mp (h root hroot _ (hpath hmiddle)).1) hstep)
    intro node hleads
    obtain ⟨hexpands, hacyclic⟩ := h root hroot node (hpath hleads)
    exact ⟨visitor_expands_iff.mp hexpands, fun hback => hacyclic (hcycle hleads hback)⟩
  · intro h root hroot node hpath
    have hleads (a b : ν) (hstep : explorer.visitor.Edge a b) : explorer.Leads a b := leads_of_edge hstep
    obtain ⟨hresolves, hacyclic⟩ := h root hroot node (Relation.ReflTransGen.mono hleads _ _ hpath)
    exact ⟨visitor_expands_iff.mpr hresolves, fun hback => hacyclic (Relation.TransGen.mono hleads _ _ hback)⟩

theorem explore_grown (roots : List ν) :
    explorer.Grown (fun node => ∃ root ∈ roots, Relation.ReflTransGen explorer.Leads root node) {}
      (explorer.explore roots) := by
  refine grown_visitAll (fun state node hnode => ?_) _
  refine grown_visit (fun ⟨root, hroot, hpath⟩ hstep => ⟨root, hroot, hpath.tail hstep⟩) [] state ?_
  exact ⟨node, by simpa using hnode, .refl⟩

theorem explore_nodup (roots : List ν) : ((explorer.explore roots).found.map Prod.fst).Nodup :=
  (explore_grown roots).keys List.nodup_nil

/-- Without failures the dictionary holds every node below the roots and nothing else. -/
theorem mem_explore_iff (hkeyed : explorer.Keyed proper) (hroots : ∀ root ∈ roots, proper root)
    (hclean : (explorer.explore roots).failures = []) (entry : κ × β) :
    entry ∈ (explorer.explore roots).found ↔
      ∃ root ∈ roots, ∃ node value next, Relation.ReflTransGen explorer.Leads root node ∧
        explorer.expand node = .ok (value, next) ∧ entry = (explorer.key node, value) := by
  have hfrom {entry : κ × β} (hentry : entry ∈ (explorer.explore roots).found) :
      ∃ root ∈ roots, ∃ node value next, Relation.ReflTransGen explorer.Leads root node ∧
        explorer.expand node = .ok (value, next) ∧ entry = (explorer.key node, value) := by
    rcases (explore_grown roots).entries entry hentry with hnone | hreached
    · exact absurd hnone (by simp)
    · obtain ⟨node, value, next, ⟨root, hroot, hpath⟩, hexpand, heq⟩ := hreached
      exact ⟨root, hroot, node, value, next, hpath, hexpand, heq⟩
  refine ⟨hfrom, ?_⟩
  rintro ⟨root, hroot, node, value, next, hpath, hexpand, rfl⟩
  have hproper {root node : ν} (hroot : root ∈ roots) (hpath : Relation.ReflTransGen explorer.Leads root node) :
      proper node := by
    induction hpath with
    | refl => exact hroots root hroot
    | tail _ hstep ih => exact hkeyed.closed ih hstep
  have hsound := (explore_clean_iff hkeyed hroots).mp hclean
  have hagrees := explore_agrees hkeyed hroots
  cases hresult : explorer.visitor.visitAll [] [] roots with
  | error failure =>
      rw [hresult] at hagrees
      exact absurd hclean hagrees
  | ok result =>
      obtain ⟨values, memo⟩ := result
      rw [hresult] at hagrees
      obtain ⟨hfinished, hvalues⟩ := Visitor.visitAll_finished hresult
      have hmemo : node ∈ memo.map Prod.fst := by
        have hstart := Visitor.mem_keys_of_forall₂ hvalues hroot
        clear hexpand
        induction hpath with
        | refl => exact hstart
        | tail hbefore hstep ih => exact hfinished.closed ih (edge_of_leads (hsound root hroot _ hbefore).1 hstep)
      have hkey := (hagrees.2 node (hproper hroot hpath)).mpr (Or.inl hmemo)
      obtain ⟨⟨key, other⟩, hother, rfl⟩ := List.mem_map.mp hkey
      obtain ⟨root', hroot', node', value', next', hpath', hexpand', heq⟩ := hfrom hother
      obtain ⟨hsame, rfl⟩ := Prod.mk.inj heq
      obtain rfl := hkeyed.injective (hproper hroot hpath) (hproper hroot' hpath') hsame
      rw [hexpand] at hexpand'
      obtain ⟨rfl, _⟩ := Prod.mk.inj (Except.ok.inj hexpand')
      exact hother

end Explorer

end Search
