import Mathlib.Algebra.BigOperators.Group.Finset.Basic
import Mathlib.Algebra.Order.BigOperators.Group.Finset
import Mathlib.Data.Fintype.Basic
import AgentArtifacts.Library.Runs

/-!
# Interleavings

Parties take turns on a state that they share. A turn is one step of one party: it changes
the shared state and the party's own, and no other party's.
-/

namespace Interleaving

open Runs

variable {σ ι κ : Type}

structure System (σ ι κ : Type) where
  shared : σ
  parties : ι → κ

variable [DecidableEq ι] (move : σ → κ → Option (σ × κ))

/-- The turn of one party, which has none once it is done. -/
def turn (s : System σ ι κ) (i : ι) : Option (System σ ι κ) :=
  (move s.shared (s.parties i)).map fun next => ⟨next.1, Function.update s.parties i next.2⟩

/-- The states that turns reach, in any order. -/
abbrev Reached (start s : System σ ι κ) : Prop := Reach (turn move) (fun _ _ => True) start s

variable {move} {start s t : System σ ι κ} {i : ι}

theorem turn_eq_some : turn move s i = some t ↔
    ∃ next, move s.shared (s.parties i) = some next ∧ t = ⟨next.1, Function.update s.parties i next.2⟩ := by
  unfold turn
  rw [Option.map_eq_some_iff]
  constructor
  · rintro ⟨next, hnext, rfl⟩
    exact ⟨next, hnext, rfl⟩
  · rintro ⟨next, hnext, rfl⟩
    exact ⟨next, hnext, rfl⟩

theorem turn_eq_none : turn move s i = none ↔ move s.shared (s.parties i) = none := by
  unfold turn
  rw [Option.map_eq_none_iff]

theorem Reached.turn (h : Reached move start s) (hturn : turn move s i = some t) : Reached move start t :=
  Reach.step h trivial hturn

/-- What holds of every party at the start, is kept by its own turns and is not disturbed by
the turns of the others holds of every party whatever the order of the turns. -/
theorem Reached.keeps {Holds : σ → κ → Prop} (h : Reached move start s)
    (hstart : ∀ i, Holds start.shared (start.parties i))
    (hown : ∀ shared party next, Holds shared party → move shared party = some next → Holds next.1 next.2)
    (hothers : ∀ i j : ι, i ≠ j → ∀ shared party other next, Holds shared party → Holds shared other →
      move shared party = some next → Holds next.1 other) :
    ∀ i, Holds s.shared (s.parties i) := by
  have hkeeps (s : System σ ι κ) (i : ι) (t : System σ ι κ) (hs : ∀ i, Holds s.shared (s.parties i)) (_ : True)
      (hturn : Interleaving.turn move s i = some t) : ∀ i, Holds t.shared (t.parties i) := by
    obtain ⟨next, hnext, rfl⟩ := turn_eq_some.mp hturn
    intro j
    by_cases hij : j = i
    · subst hij
      dsimp only
      rw [Function.update_self]
      exact hown _ _ next (hs j) hnext
    · dsimp only
      rw [Function.update_of_ne hij]
      exact hothers i j (Ne.symm hij) _ _ _ next (hs i) (hs j) hnext
  exact @Reach.invariant _ _ _ _ _ _ (fun s => ∀ i, Holds s.shared (s.parties i)) h hstart hkeeps

/-- Turns that use up the work of their party come to an end. -/
theorem turns_end [Fintype ι] (work : κ → Nat)
    (hwork : ∀ shared party next, move shared party = some next → work next.2 < work party) :
    WellFounded fun t s : System σ ι κ => ∃ i, turn move s i = some t := by
  have htotal : WellFounded fun t s : System σ ι κ => ∑ i, work (t.parties i) < ∑ i, work (s.parties i) :=
    (measure fun s : System σ ι κ => ∑ i, work (s.parties i)).wf
  refine Subrelation.wf ?_ htotal
  intro t s hturn
  obtain ⟨i, hturn⟩ := hturn
  obtain ⟨next, hnext, rfl⟩ := turn_eq_some.mp hturn
  refine Finset.sum_lt_sum (fun j _ => ?_) ⟨i, Finset.mem_univ i, ?_⟩
  · by_cases hij : j = i
    · subst hij
      dsimp only
      rw [Function.update_self]
      exact le_of_lt (hwork _ _ next hnext)
    · dsimp only
      rw [Function.update_of_ne hij]
  · dsimp only
    rw [Function.update_self]
    exact hwork _ _ next hnext

/-! ## Two of the parties -/

/-- Some order of turns leaves the shared state and two parties so. -/
def Leaves (move : σ → κ → Option (σ × κ)) (start : System σ ι κ) (i j : ι) (shared : σ) (party other : κ) : Prop :=
  ∃ parties, Reached move start ⟨shared, parties⟩ ∧ parties i = party ∧ parties j = other

variable {j : ι} {shared after : σ} {party other next : κ}

theorem Leaves.first (h : Leaves move start i j shared party other) (hij : i ≠ j)
    (hmove : move shared party = some (after, next)) : Leaves move start i j after next other := by
  obtain ⟨parties, hreach, hi, hj⟩ := h
  refine ⟨Function.update parties i next, hreach.turn (turn_eq_some.mpr ⟨(after, next), ?_, rfl⟩), ?_, ?_⟩
  · dsimp only
    rw [hi]
    exact hmove
  · rw [Function.update_self]
  · rw [Function.update_of_ne hij.symm]
    exact hj

theorem Leaves.second (h : Leaves move start i j shared party other) (hij : i ≠ j)
    (hmove : move shared other = some (after, next)) : Leaves move start i j after party next := by
  obtain ⟨parties, hreach, hi, hj⟩ := h
  have hswap : Leaves move start j i shared other party := ⟨parties, hreach, hj, hi⟩
  obtain ⟨others, hothers, hj', hi'⟩ := hswap.first hij.symm hmove
  exact ⟨others, hothers, hi', hj'⟩

end Interleaving
