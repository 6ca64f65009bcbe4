import Mathlib.Data.List.Perm.Basic
import Mathlib.Data.List.Sort

/-!
# Arrangements

Two lists are arrangements of each other when one is a permutation of the other up to a relation
of the items. Sorting by a key that the relation keeps and that tells the items apart brings them
into step again.
-/

namespace Arrangements

variable {α β κ : Type} [LinearOrder κ] {related : α → β → Prop}

/-- The items of one list in another order, each one related. -/
abbrev Arranged (related : α → β → Prop) : List α → List β → Prop :=
  Relation.Comp List.Perm (List.Forall₂ related)

/-- `sorted` by a key. -/
abbrev sortOn (key : α → κ) (items : List α) : List α := items.insertionSort fun a b => key a ≤ key b

theorem pairwise_sortOn (key : α → κ) (items : List α) : (sortOn key items).Pairwise fun a b => key a ≤ key b := by
  have : Std.Total fun a b : α => key a ≤ key b := ⟨fun a b => le_total (key a) (key b)⟩
  have : IsTrans α fun a b => key a ≤ key b := ⟨fun a b c hab hbc => le_trans hab hbc⟩
  exact List.pairwise_insertionSort _ items

/-- Sorting by a key that tells the items of a list apart forgets their order. -/
theorem sortOn_eq_of_perm {key : α → κ} {left right : List α}
    (hkey : ∀ a ∈ left, ∀ b ∈ left, key a = key b → a = b) (h : left.Perm right) :
    sortOn key left = sortOn key right := by
  have hleft : (sortOn key left).Perm left := List.perm_insertionSort _ left
  have hright : (sortOn key right).Perm right := List.perm_insertionSort _ right
  refine List.Perm.eq_of_pairwise ?_ (pairwise_sortOn key left) (pairwise_sortOn key right)
    (hleft.trans (h.trans hright.symm))
  intro a b ha hb hab hba
  exact hkey a (hleft.mem_iff.mp ha) b (h.mem_iff.mpr (hright.mem_iff.mp hb)) (le_antisymm hab hba)

theorem forall₂_orderedInsert {key : α → κ} {key' : β → κ} (hkey : ∀ a b, related a b → key a = key' b) {a : α} {b : β}
    {left : List α} {right : List β} (hab : related a b) (h : List.Forall₂ related left right) :
    List.Forall₂ related (left.orderedInsert (fun x y => key x ≤ key y) a)
      (right.orderedInsert (fun x y => key' x ≤ key' y) b) := by
  induction h with
  | nil => exact .cons hab .nil
  | @cons x y left right hxy hrest ih =>
      have hle : key a ≤ key x ↔ key' b ≤ key' y := by rw [hkey a b hab, hkey x y hxy]
      rw [List.orderedInsert_cons, List.orderedInsert_cons]
      by_cases hbefore : key a ≤ key x
      · rw [if_pos hbefore, if_pos (hle.mp hbefore)]
        exact .cons hab (.cons hxy hrest)
      · rw [if_neg hbefore, if_neg (fun hright => hbefore (hle.mpr hright))]
        exact .cons hxy ih

/-- Lists that are in step stay in step when they are sorted. -/
theorem forall₂_sortOn {key : α → κ} {key' : β → κ} (hkey : ∀ a b, related a b → key a = key' b) {left : List α}
    {right : List β} (h : List.Forall₂ related left right) :
    List.Forall₂ related (sortOn key left) (sortOn key' right) := by
  induction h with
  | nil => exact .nil
  | cons hab _ ih => exact forall₂_orderedInsert hkey hab ih

/-- Arrangements of one list are in step after sorting. -/
theorem Arranged.sortOn (key : α → κ) (key' : β → κ) (hkey : ∀ a b, related a b → key a = key' b) {left : List α}
    {right : List β} (hdistinct : ∀ a ∈ left, ∀ b ∈ left, key a = key b → a = b) (h : Arranged related left right) :
    List.Forall₂ related (sortOn key left) (sortOn key' right) := by
  obtain ⟨middle, hperm, hrelated⟩ := h
  rw [sortOn_eq_of_perm hdistinct hperm]
  exact forall₂_sortOn hkey hrelated

theorem Arranged.flip {left : List α} {right : List β} (h : Arranged related left right) :
    Arranged (fun b a => related a b) right left := by
  obtain ⟨middle, hperm, hrelated⟩ := h
  have hcomposed : Relation.Comp (List.Forall₂ fun b a => related a b) List.Perm right left :=
    ⟨middle, hrelated.flip, hperm.symm⟩
  rw [List.forall₂_comp_perm_eq_perm_comp_forall₂] at hcomposed
  exact hcomposed

theorem Arranged.mono {other : α → β → Prop} (himp : ∀ a b, related a b → other a b) {left : List α} {right : List β}
    (h : Arranged related left right) : Arranged other left right := by
  obtain ⟨middle, hperm, hrelated⟩ := h
  exact ⟨middle, hperm, hrelated.imp himp⟩

/-- What holds of the items of the first list can be added to the relation. -/
theorem Arranged.and {holds : α → Prop} {left : List α} {right : List β} (h : Arranged related left right)
    (hleft : ∀ a ∈ left, holds a) : Arranged (fun a b => related a b ∧ holds a) left right := by
  obtain ⟨middle, hperm, hrelated⟩ := h
  refine ⟨middle, hperm, ?_⟩
  have hmiddle : ∀ a ∈ middle, holds a := fun a ha => hleft a (hperm.mem_iff.mpr ha)
  clear hperm hleft
  induction hrelated with
  | nil => exact .nil
  | cons hab _ ih =>
      exact .cons ⟨hab, hmiddle _ List.mem_cons_self⟩ (ih fun a ha => hmiddle a (List.mem_cons_of_mem _ ha))

theorem Arranged.exists_mem {left : List α} {right : List β} (h : Arranged related left right) {b : β} (hb : b ∈ right) :
    ∃ a ∈ left, related a b := by
  obtain ⟨middle, hperm, hrelated⟩ := h
  induction hrelated generalizing left with
  | nil => cases hb
  | @cons x y middle right hxy _ ih =>
      rcases List.mem_cons.mp hb with rfl | hb
      · exact ⟨x, hperm.mem_iff.mpr List.mem_cons_self, hxy⟩
      · obtain ⟨a, ha, hab⟩ := ih hb (List.Perm.refl middle)
        exact ⟨a, hperm.mem_iff.mpr (List.mem_cons_of_mem x ha), hab⟩

end Arrangements
