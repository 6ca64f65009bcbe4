import Mathlib.Data.List.Forall2
import Mathlib.Logic.Relation

/-!
# Memoised depth-first search

A node is expanded into its own part and the nodes it leads to; its value is
combined from that part and their values. Finished nodes are kept in a memo, and
a node that is met again on its own trail is a cycle. The search of all nodes
below some roots succeeds exactly when every one of them expands and none leads
back to itself.
-/

namespace Search

/-- What a search does at its nodes; only finitely many nodes expand. -/
structure Visitor (α γ β ε : Type) where
  nodes : List α
  expand : α → Except ε (γ × List α)
  expand_mem : ∀ {node own next}, expand node = .ok (own, next) → node ∈ nodes
  combine : γ → List β → β
  cycle : List α → α → ε
  /-- Whether the trail is looked at before the memo. -/
  trailFirst : Bool

variable {α γ β ε : Type} [DecidableEq α]

namespace Visitor

variable (visitor : Visitor α γ β ε)

/-- The nodes that are not on the trail yet. -/
def remaining (trail : List α) : Nat := (visitor.nodes.filter fun node => node ∉ trail).length

theorem remaining_append_lt {trail : List α} {node : α} (hmem : node ∈ visitor.nodes) (hnew : node ∉ trail) :
    visitor.remaining (trail ++ [node]) < visitor.remaining trail := by
  unfold remaining
  have hfilter : visitor.nodes.filter (fun other => other ∉ trail ++ [node]) =
      (visitor.nodes.filter fun other => other ∉ trail).filter fun other => other ≠ node := by
    rw [List.filter_filter]
    refine List.filter_congr fun other _ => ?_
    by_cases h : other = node <;> simp [h]
  rw [hfilter]
  refine List.length_filter_lt_length_iff_exists.mpr ⟨node, ?_, by simp⟩
  simp [hmem, hnew]

def known (trail : List α) (memo : List (α × β)) (node : α) : Option β :=
  if visitor.trailFirst && decide (node ∈ trail) then none else memo.lookup node

mutual

/-- The value of a node and the memo after it; `trail` are the nodes being expanded. -/
def visit (trail : List α) (memo : List (α × β)) (node : α) : Except ε (β × List (α × β)) :=
  match visitor.known trail memo node with
  | some value => .ok (value, memo)
  | none =>
      if _hnew : node ∈ trail then .error (visitor.cycle trail node)
      else
        match _hexpand : visitor.expand node with
        | .error failure => .error failure
        | .ok (own, next) =>
            match visitAll (trail ++ [node]) memo next with
            | .error failure => .error failure
            | .ok (values, finished) =>
                .ok (visitor.combine own values, (node, visitor.combine own values) :: finished)
termination_by (visitor.remaining trail, 0)
decreasing_by
  exact Prod.Lex.left _ _ (visitor.remaining_append_lt (visitor.expand_mem _hexpand) _hnew)

def visitAll (trail : List α) (memo : List (α × β)) : List α → Except ε (List β × List (α × β))
  | [] => .ok ([], memo)
  | node :: rest =>
      match visit trail memo node with
      | .error failure => .error failure
      | .ok (value, finished) =>
          match visitAll trail finished rest with
          | .error failure => .error failure
          | .ok (values, done) => .ok (value :: values, done)
termination_by nodes => (visitor.remaining trail, nodes.length + 1)

end

/-! ## What the search goes along -/

/-- One step from a node that expands. -/
def Edge (a b : α) : Prop := ∃ own next, visitor.expand a = .ok (own, next) ∧ b ∈ next

/-- A memo in which every node was finished after the nodes it leads to. -/
inductive Finished : List (α × β) → Prop where
  | nil : Finished []
  | cons {memo : List (α × β)} {node : α} {own : γ} {next : List α} {values : List β} :
      Finished memo → node ∉ memo.map Prod.fst → visitor.expand node = .ok (own, next) →
      List.Forall₂ (fun node value => (node, value) ∈ memo) next values →
      Finished ((node, visitor.combine own values) :: memo)

variable {visitor}

omit [DecidableEq α] in
theorem Finished.expands {memo : List (α × β)} (h : visitor.Finished memo) {node : α}
    (hnode : node ∈ memo.map Prod.fst) : ∃ own next, visitor.expand node = .ok (own, next) := by
  induction h with
  | nil => exact absurd hnode (by simp)
  | cons _ _ hexpand _ ih =>
      rcases List.mem_cons.mp hnode with rfl | hrest
      · exact ⟨_, _, hexpand⟩
      · exact ih hrest

omit [DecidableEq α] in
theorem mem_keys_of_forall₂ {memo : List (α × β)} {next : List α} {values : List β}
    (h : List.Forall₂ (fun node value => (node, value) ∈ memo) next values) {node : α} (hnode : node ∈ next) :
    node ∈ memo.map Prod.fst := by
  induction h with
  | nil => exact absurd hnode (by simp)
  | cons hfirst _ ih =>
      rcases List.mem_cons.mp hnode with rfl | hrest
      · exact List.mem_map.mpr ⟨_, hfirst, rfl⟩
      · exact ih hrest

omit [DecidableEq α] in
/-- A finished node leads to finished nodes only. -/
theorem Finished.closed {memo : List (α × β)} (h : visitor.Finished memo) {a b : α}
    (ha : a ∈ memo.map Prod.fst) (hedge : visitor.Edge a b) : b ∈ memo.map Prod.fst := by
  induction h with
  | nil => exact absurd ha (by simp)
  | cons _ _ hexpand hvalues ih =>
      rcases List.mem_cons.mp ha with rfl | hrest
      · obtain ⟨own, next, hnext, hb⟩ := hedge
        rw [hexpand] at hnext
        obtain ⟨rfl, rfl⟩ := Prod.mk.inj (Except.ok.inj hnext)
        exact List.mem_cons_of_mem _ (mem_keys_of_forall₂ hvalues hb)
      · exact List.mem_cons_of_mem _ (ih hrest)

omit [DecidableEq α] in
theorem Finished.closed_path {memo : List (α × β)} (h : visitor.Finished memo) {a b : α}
    (ha : a ∈ memo.map Prod.fst) (hpath : Relation.ReflTransGen visitor.Edge a b) :
    b ∈ memo.map Prod.fst := by
  induction hpath with
  | refl => exact ha
  | tail _ hedge ih => exact h.closed ih hedge

omit [DecidableEq α] in
/-- The steps of a finished node go to nodes finished before it, so none comes back. -/
theorem Finished.acyclic {memo : List (α × β)} (h : visitor.Finished memo) {node : α}
    (hnode : node ∈ memo.map Prod.fst) : ¬ Relation.TransGen visitor.Edge node node := by
  induction h with
  | nil => exact absurd hnode (by simp)
  | cons hmemo hfresh hexpand hvalues ih =>
      rcases List.mem_cons.mp hnode with rfl | hrest
      · intro hcycle
        obtain ⟨first, hedge, hpath⟩ := Relation.TransGen.head'_iff.mp hcycle
        obtain ⟨own, next, hnext, hfirst⟩ := hedge
        rw [hexpand] at hnext
        obtain ⟨rfl, rfl⟩ := Prod.mk.inj (Except.ok.inj hnext)
        exact hfresh (hmemo.closed_path (mem_keys_of_forall₂ hvalues hfirst) hpath)
      · exact ih hrest

omit [DecidableEq α] in
/-- What holds of a combined value whenever it holds of its parts holds of every finished node. -/
theorem Finished.induction_on {memo : List (α × β)} (h : visitor.Finished memo) {P : α → β → Prop}
    (hstep : ∀ {node own next values}, visitor.expand node = .ok (own, next) → List.Forall₂ P next values →
      P node (visitor.combine own values)) {node : α} {value : β} (hmem : (node, value) ∈ memo) :
    P node value := by
  induction h generalizing node value with
  | nil => exact absurd hmem (by simp)
  | cons _ _ hexpand hvalues ih =>
      rcases List.mem_cons.mp hmem with heq | hrest
      · obtain ⟨rfl, rfl⟩ := Prod.mk.inj heq
        exact hstep hexpand (hvalues.imp fun _ _ hold => ih hold)
      · exact ih hrest

/-! ## Success -/

variable (visitor) in
/-- The search of one node finishes it and leaves the memo and the trail as they were. -/
structure Visited (trail : List α) (memo finished : List (α × β)) : Prop where
  sound : visitor.Finished finished
  extends_memo : ∀ entry ∈ memo, entry ∈ finished
  trail_kept : ∀ node ∈ trail, node ∈ finished.map Prod.fst → node ∈ memo.map Prod.fst

omit [DecidableEq α] in
theorem Visited.trans {trail : List α} {memo first second : List (α × β)}
    (h : visitor.Visited trail memo first) (h' : visitor.Visited trail first second) :
    visitor.Visited trail memo second :=
  ⟨h'.sound, fun entry hentry => h'.extends_memo entry (h.extends_memo entry hentry),
    fun node hnode hmem => h.trail_kept node hnode (h'.trail_kept node hnode hmem)⟩

theorem visitAll_visited {trail : List α}
    (hvisit : ∀ {memo finished : List (α × β)} {node : α} {value : β}, visitor.Finished memo →
      visitor.visit trail memo node = .ok (value, finished) →
      visitor.Visited trail memo finished ∧ (node, value) ∈ finished)
    {memo finished : List (α × β)} {nodes : List α} {values : List β} (hmemo : visitor.Finished memo)
    (h : visitor.visitAll trail memo nodes = .ok (values, finished)) :
    visitor.Visited trail memo finished ∧
      List.Forall₂ (fun node value => (node, value) ∈ finished) nodes values := by
  induction nodes generalizing memo values with
  | nil =>
      rw [visitAll] at h
      obtain ⟨rfl, rfl⟩ := Prod.mk.inj (Except.ok.inj h)
      exact ⟨⟨hmemo, fun _ hentry => hentry, fun _ _ hmem => hmem⟩, .nil⟩
  | cons node rest ih =>
      rw [visitAll] at h
      split at h
      · exact absurd h (by simp)
      · rename_i value first hfirst
        split at h
        · exact absurd h (by simp)
        · rename_i others done hrest
          obtain ⟨rfl, rfl⟩ := Prod.mk.inj (Except.ok.inj h)
          obtain ⟨hvisited, hvalue⟩ := hvisit hmemo hfirst
          obtain ⟨hall, hothers⟩ := ih hvisited.sound hrest
          exact ⟨hvisited.trans hall, .cons (hall.extends_memo _ hvalue) hothers⟩

theorem mem_of_known {trail : List α} {memo : List (α × β)} {node : α} {value : β}
    (h : visitor.known trail memo node = some value) : (node, value) ∈ memo := by
  unfold known at h
  split at h
  · exact absurd h (by simp)
  · obtain ⟨before, after, rfl, _⟩ := List.lookup_eq_some_iff.mp h
    simp

theorem not_mem_of_known {trail : List α} {memo : List (α × β)} {node : α}
    (h : visitor.known trail memo node = none) (hnew : node ∉ trail) : node ∉ memo.map Prod.fst := by
  unfold known at h
  simp only [hnew, decide_false, Bool.and_false, Bool.false_eq_true, if_false] at h
  intro hmem
  obtain ⟨entry, hentry, rfl⟩ := List.mem_map.mp hmem
  have hne := List.lookup_eq_none_iff.mp h entry hentry
  exact absurd hne (by simp)

theorem visit_visited {trail : List α} {memo finished : List (α × β)} {node : α} {value : β}
    (hmemo : visitor.Finished memo) (h : visitor.visit trail memo node = .ok (value, finished)) :
    visitor.Visited trail memo finished ∧ (node, value) ∈ finished := by
  -- The nodes that are not on the trail become fewer with every expansion.
  induction hremaining : visitor.remaining trail using Nat.strongRecOn
    generalizing trail memo finished node value with
  | _ n ih =>
      rw [visit] at h
      split at h
      · rename_i hknown
        obtain ⟨rfl, rfl⟩ := Prod.mk.inj (Except.ok.inj h)
        exact ⟨⟨hmemo, fun _ hentry => hentry, fun _ _ hmem => hmem⟩, mem_of_known hknown⟩
      · rename_i hunknown
        split at h
        · exact absurd h (by simp)
        · rename_i hnew
          split at h
          · exact absurd h (by simp)
          · rename_i own next hexpand
            split at h
            · exact absurd h (by simp)
            · rename_i values done hall
              obtain ⟨rfl, rfl⟩ := Prod.mk.inj (Except.ok.inj h)
              have hless := visitor.remaining_append_lt (visitor.expand_mem hexpand) hnew
              obtain ⟨hvisited, hvalues⟩ := visitAll_visited
                (fun hfinished hvisit => ih _ (hremaining ▸ hless) hfinished hvisit rfl) hmemo hall
              have hfresh : node ∉ done.map Prod.fst := fun hmem =>
                not_mem_of_known hunknown hnew (hvisited.trail_kept node (by simp) hmem)
              refine ⟨⟨.cons hvisited.sound hfresh hexpand hvalues, ?_, ?_⟩, by simp⟩
              · intro entry hentry
                exact List.mem_cons_of_mem _ (hvisited.extends_memo entry hentry)
              · intro other hother hmem
                rcases List.mem_cons.mp hmem with rfl | hmem
                · exact absurd hother hnew
                · exact hvisited.trail_kept other (by simp [hother]) hmem

/-- A search from the start finishes its roots. -/
theorem visitAll_finished {roots : List α} {values : List β} {memo : List (α × β)}
    (h : visitor.visitAll [] [] roots = .ok (values, memo)) :
    visitor.Finished memo ∧ List.Forall₂ (fun root value => (root, value) ∈ memo) roots values := by
  obtain ⟨hvisited, hvalues⟩ := visitAll_visited (fun hmemo hvisit => visit_visited hmemo hvisit) .nil h
  exact ⟨hvisited.sound, hvalues⟩

/-! ## Failure -/

variable (visitor) in
/-- Below a node lies one that does not expand or one that leads back to itself. -/
def Fails (node : α) : Prop :=
  (∃ failure below, Relation.ReflTransGen visitor.Edge node below ∧ visitor.expand below = .error failure) ∨
    ∃ below, Relation.ReflTransGen visitor.Edge node below ∧ Relation.TransGen visitor.Edge below below

omit [DecidableEq α] in
theorem Fails.of_edge {a b : α} (hedge : visitor.Edge a b) (h : visitor.Fails b) : visitor.Fails a := by
  rcases h with ⟨failure, below, hpath, hexpand⟩ | ⟨below, hpath, hcycle⟩
  · exact Or.inl ⟨failure, below, .head hedge hpath, hexpand⟩
  · exact Or.inr ⟨below, .head hedge hpath, hcycle⟩

theorem visitAll_error {trail : List α} {nodes : List α}
    (hvisit : ∀ {memo : List (α × β)} {node : α} {failure : ε}, node ∈ nodes →
      visitor.visit trail memo node = .error failure → visitor.Fails node)
    {memo : List (α × β)} {failure : ε} (h : visitor.visitAll trail memo nodes = .error failure) :
    ∃ node ∈ nodes, visitor.Fails node := by
  induction nodes generalizing memo failure with
  | nil =>
      rw [visitAll] at h
      exact absurd h (by simp)
  | cons node rest ih =>
      rw [visitAll] at h
      split at h
      · rename_i hfirst
        exact ⟨node, List.mem_cons_self, hvisit List.mem_cons_self hfirst⟩
      · split at h
        · rename_i hrest
          obtain ⟨other, hother, hfails⟩ :=
            ih (fun hmem hvisited => hvisit (List.mem_cons_of_mem _ hmem) hvisited) hrest
          exact ⟨other, List.mem_cons_of_mem _ hother, hfails⟩
        · exact absurd h (by simp)

theorem visit_error {trail : List α} {memo : List (α × β)} {node : α} {failure : ε}
    (htrail : ∀ other ∈ trail, Relation.TransGen visitor.Edge other node)
    (h : visitor.visit trail memo node = .error failure) : visitor.Fails node := by
  induction hremaining : visitor.remaining trail using Nat.strongRecOn
    generalizing trail memo node failure with
  | _ n ih =>
      rw [visit] at h
      split at h
      · exact absurd h (by simp)
      · split at h
        · rename_i hmem
          exact Or.inr ⟨node, .refl, htrail node hmem⟩
        · rename_i hnew
          split at h
          · rename_i hexpand
            exact Or.inl ⟨_, node, .refl, hexpand⟩
          · rename_i own next hexpand
            split at h
            · rename_i hall
              have hless := visitor.remaining_append_lt (visitor.expand_mem hexpand) hnew
              have hedge {other : α} (hother : other ∈ next) : visitor.Edge node other :=
                ⟨own, next, hexpand, hother⟩
              obtain ⟨other, hother, hfails⟩ := visitAll_error
                (fun hnode hvisit => ih _ (hremaining ▸ hless) (by
                  intro ancestor hancestor
                  rcases List.mem_append.mp hancestor with hold | hnode'
                  · exact (htrail ancestor hold).tail (hedge hnode)
                  · obtain rfl := List.mem_singleton.mp hnode'
                    exact .single (hedge hnode)) hvisit rfl) hall
              exact Fails.of_edge (hedge hother) hfails
            · exact absurd h (by simp)

/-- The search of some roots succeeds exactly when every node below them expands and
no one of these leads back to itself. -/
theorem visitAll_ok_iff (roots : List α) :
    (∃ result, visitor.visitAll [] ([] : List (α × β)) roots = .ok result) ↔
      ∀ root ∈ roots, ∀ node, Relation.ReflTransGen visitor.Edge root node →
        (∃ own next, visitor.expand node = .ok (own, next)) ∧ ¬ Relation.TransGen visitor.Edge node node := by
  constructor
  · rintro ⟨⟨values, memo⟩, h⟩ root hroot node hpath
    obtain ⟨hfinished, hvalues⟩ := visitAll_finished h
    have hnode := hfinished.closed_path (mem_keys_of_forall₂ hvalues hroot) hpath
    exact ⟨hfinished.expands hnode, hfinished.acyclic hnode⟩
  · intro hsound
    cases h : visitor.visitAll [] ([] : List (α × β)) roots with
    | ok result => exact ⟨result, rfl⟩
    | error failure =>
        obtain ⟨root, hroot, hfails⟩ :=
          visitAll_error (fun _ hvisit => visit_error (by simp) hvisit) h
        rcases hfails with ⟨other, below, hpath, hexpand⟩ | ⟨below, hpath, hcycle⟩
        · obtain ⟨⟨own, next, hok⟩, _⟩ := hsound root hroot below hpath
          rw [hexpand] at hok
          exact absurd hok (by simp)
        · exact absurd hcycle (hsound root hroot below hpath).2

end Visitor

end Search
