import Mathlib.Data.List.Perm.Basic
import Mathlib.Logic.Function.Basic

/-!
# Runs

A system is a partial step function on its states. A state is reached when a
sequence of steps leads to it, each allowed in the state it is taken from. Claimants
that share a slot are such a system, and guarded steps that are apart from each other
may be taken in every order.
-/

namespace Runs

variable {σ τ α β : Type}

/-- The states that allowed steps reach. -/
inductive Reach (step : σ → α → Option σ) (allowed : σ → α → Prop) (start : σ) : σ → Prop
  | start : Reach step allowed start start
  | step {s t : σ} {action : α} (hreach : Reach step allowed start s) (hallowed : allowed s action)
      (hstep : step s action = some t) : Reach step allowed start t

variable {step : σ → α → Option σ} {allowed : σ → α → Prop} {start s t : σ}

/-- What holds at the start and is kept by every allowed step holds of every state reached. -/
theorem Reach.invariant {P : σ → Prop} (h : Reach step allowed start s) (hstart : P start)
    (hkeeps : ∀ s action t, P s → allowed s action → step s action = some t → P t) : P s := by
  induction h with
  | start => exact hstart
  | step _ hallowed hstep ih => exact hkeeps _ _ _ ih hallowed hstep

theorem Reach.trans (h : Reach step allowed start s) (hmore : Reach step allowed s t) :
    Reach step allowed start t := by
  induction hmore with
  | start => exact h
  | step _ hallowed hstep ih => exact ih.step hallowed hstep

/-- A system whose allowed steps are allowed steps of another one, or change nothing there. -/
theorem Reach.simulates {step' : τ → β → Option τ} {allowed' : τ → β → Prop} (view : σ → τ)
    (hsteps : ∀ s action t, allowed s action → step s action = some t →
      view t = view s ∨ ∃ label, allowed' (view s) label ∧ step' (view s) label = some (view t))
    (h : Reach step allowed start s) : Reach step' allowed' (view start) (view s) := by
  induction h with
  | start => exact .start
  | @step s t action _ hallowed hstep ih =>
      rcases hsteps s action t hallowed hstep with hsame | ⟨label, hlabel, hview⟩
      · rw [hsame]
        exact ih
      · exact ih.step hlabel hview

/-- The state a list of allowed steps leads to. -/
def runAll (step : σ → α → Option σ) (allowed : σ → α → Prop) [∀ s a, Decidable (allowed s a)] :
    σ → List α → Option σ
  | s, [] => some s
  | s, action :: rest =>
      if allowed s action then (step s action).bind fun t => runAll step allowed t rest else none

theorem reach_of_runAll [∀ s a, Decidable (allowed s a)] {actions : List α}
    (h : runAll step allowed start actions = some s) : Reach step allowed start s := by
  induction actions generalizing start with
  | nil =>
      cases h
      exact .start
  | cons action rest ih =>
      rw [runAll] at h
      split at h
      · rename_i hallowed
        obtain ⟨t, hstep, hrest⟩ := Option.bind_eq_some_iff.mp h
        exact (Reach.start.step hallowed hstep).trans (ih hrest)
      · cases h

end Runs

/-! ## A slot with one occupant -/

namespace Slot

variable {P : Type}

/-- Who filled the slot, and who relies on it. -/
structure View (P : Type) where
  maker : Option P
  relies : P → Prop

/-- Whoever relies on the slot has filled it. -/
def View.Exclusive (view : View P) : Prop := ∀ p, view.relies p → view.maker = some p

inductive Moves (before after : View P) : Prop
  /-- Nobody begins to rely on the slot. -/
  | kept (hmaker : after.maker = before.maker) (hrelies : ∀ p, after.relies p → before.relies p)
  /-- The empty slot is filled by `p`. -/
  | filled (p : P) (hempty : before.maker = none) (hmaker : after.maker = some p)
      (hrelies : ∀ q, after.relies q → q = p ∨ before.relies q)
  /-- The slot is emptied, and its maker does not rely on it. -/
  | emptied (hmaker : after.maker = none)
      (hrelies : ∀ p, after.relies p → before.relies p ∧ before.maker ≠ some p)

variable {before after : View P}

theorem Moves.exclusive (h : Moves before after) (hbefore : before.Exclusive) : after.Exclusive := by
  intro p hp
  cases h with
  | kept hmaker hrelies =>
      rw [hmaker]
      exact hbefore p (hrelies p hp)
  | filled q hempty hmaker hrelies =>
      rcases hrelies p hp with rfl | hp
      · exact hmaker
      · have hfull := hbefore p hp
        rw [hempty] at hfull
        cases hfull
  | emptied _ hrelies =>
      obtain ⟨hp, hne⟩ := hrelies p hp
      exact absurd (hbefore p hp) hne

theorem View.Exclusive.unique {view : View P} (h : view.Exclusive) {p q : P} (hp : view.relies p)
    (hq : view.relies q) : p = q := by
  have hboth := (h p hp).symm.trans (h q hq)
  exact Option.some.inj hboth

end Slot

/-! ## Guarded steps apart from each other -/

namespace Independence

variable {ε σ α : Type}

/-- What a step does, and when; actions that are apart leave each other's guards as they are. -/
structure Guarded (step : σ → α → Except ε σ) (guard : σ → α → Prop) (perform : σ → α → σ) (apart : α → α → Prop) :
    Prop where
  ok : ∀ s a t, step s a = .ok t ↔ guard s a ∧ t = perform s a
  keeps : ∀ s a b, apart a b → (guard (perform s a) b ↔ guard s b)
  symm : ∀ a b, apart a b → apart b a

variable {step : σ → α → Except ε σ} {guard : σ → α → Prop} {perform : σ → α → σ} {apart : α → α → Prop}

theorem Guarded.foldlM_eq_ok (h : Guarded step guard perform apart) {actions : List α}
    (hapart : actions.Pairwise apart) (s t : σ) :
    actions.foldlM step s = .ok t ↔ (∀ a ∈ actions, guard s a) ∧ t = actions.foldl perform s := by
  induction actions generalizing s with
  | nil =>
      simp only [List.foldlM_nil, List.foldl_nil, List.not_mem_nil, false_imp_iff, implies_true, true_and]
      exact ⟨fun heq => (Except.ok.inj heq).symm, fun heq => congrArg Except.ok heq.symm⟩
  | cons a rest ih =>
      obtain ⟨hfirst, hrest⟩ := List.pairwise_cons.mp hapart
      rw [List.foldlM_cons, List.foldl_cons, List.forall_mem_cons]
      have hlater : (∀ b ∈ rest, guard (perform s a) b) ↔ ∀ b ∈ rest, guard s b :=
        forall₂_congr fun b hb => h.keeps s a b (hfirst b hb)
      cases hstep : step s a with
      | ok next =>
          obtain ⟨hguard, rfl⟩ := (h.ok s a next).mp hstep
          show rest.foldlM step (perform s a) = .ok t ↔ _
          rw [ih hrest, hlater, and_iff_right hguard]
      | error failure =>
          have hguard : ¬ guard s a := by
            intro hguard
            rw [(h.ok s a (perform s a)).mpr ⟨hguard, rfl⟩] at hstep
            exact absurd hstep (by simp)
          refine iff_of_false (fun heq => ?_) fun hall => hguard hall.1.1
          exact absurd heq (by simp [bind, Except.bind])

/-- Actions that go through in one order go through in every other. -/
theorem Guarded.foldlM_ok_of_perm (h : Guarded step guard perform apart) {actions others : List α}
    (hapart : actions.Pairwise apart) (hperm : actions.Perm others) {s t : σ} (hok : actions.foldlM step s = .ok t) :
    others.foldlM step s = .ok (others.foldl perform s) := by
  have hothers : others.Pairwise apart := (hperm.pairwise_iff fun {a b} => h.symm a b).mp hapart
  refine (h.foldlM_eq_ok hothers s _).mpr ⟨fun a ha => ?_, rfl⟩
  exact ((h.foldlM_eq_ok hapart s t).mp hok).1 a (hperm.mem_iff.mpr ha)

end Independence
