import Mathlib.Data.List.Perm.Basic

/-!
# Matching by trial

Items take in turn the only offer left that fits them; an item that none or more than one
fits fails the whole. Where each item has its offer, the trial succeeds exactly when no item
fits the offer of a later one, and then each item takes its own.
-/

namespace Matching

variable {α β : Type} {fits : α → β → Bool} {items : List α} {offers chosen : List β}

def assign [DecidableEq β] (fits : α → β → Bool) : List α → List β → Option (List β)
  | [], _ => some []
  | item :: rest, offers =>
      match offers.filter (fits item) with
      | [offer] => (assign fits rest (offers.erase offer)).map (offer :: ·)
      | _ => none

/-- No item fits the offer of a later one. -/
def Unmistakable (fits : α → β → Bool) (items : List α) (chosen : List β) : Prop :=
  (items.zip chosen).Pairwise fun first second => fits first.1 second.2 = false

theorem unmistakable_cons {item : α} {offer : β} :
    Unmistakable fits (item :: items) (offer :: chosen) ↔
      (∀ pair ∈ items.zip chosen, fits item pair.2 = false) ∧ Unmistakable fits items chosen := by
  rw [Unmistakable, List.zip_cons_cons, List.pairwise_cons]
  rfl

theorem mem_of_zip {related : α → β → Prop} (h : List.Forall₂ related items chosen) {offer : β} (hoffer : offer ∈ chosen) :
    ∃ item, (item, offer) ∈ items.zip chosen := by
  induction h with
  | nil => exact absurd hoffer List.not_mem_nil
  | @cons item first items chosen _ _ ih =>
      rcases List.mem_cons.mp hoffer with rfl | hoffer
      · exact ⟨item, List.mem_cons_self⟩
      · obtain ⟨other, hother⟩ := ih hoffer
        exact ⟨other, List.mem_cons_of_mem _ hother⟩

/-- What one item finds among the offers. -/
theorem filter_of_perm {item : α} {offer : β} (hperm : offers.Perm (offer :: chosen)) (hfits : fits item offer = true)
    {found : β} : offers.filter (fits item) = [found] ↔ found = offer ∧ ∀ other ∈ chosen, fits item other = false := by
  have hfilter : (offers.filter (fits item)).Perm (offer :: chosen.filter (fits item)) := by
    have hcons := hperm.filter (fits item)
    rwa [List.filter_cons_of_pos hfits] at hcons
  constructor
  · intro h
    rw [h] at hfilter
    have hnil : chosen.filter (fits item) = [] := by
      have hlength := hfilter.length_eq
      rw [List.length_singleton, List.length_cons] at hlength
      exact List.length_eq_zero_iff.mp (by omega)
    rw [hnil] at hfilter
    refine ⟨List.singleton_perm_singleton.mp hfilter, fun other hother => ?_⟩
    exact Bool.eq_false_iff.mpr (List.filter_eq_nil_iff.mp hnil other hother)
  · rintro ⟨rfl, hnone⟩
    have hnil : chosen.filter (fits item) = [] :=
      List.filter_eq_nil_iff.mpr fun other hother => by simp [hnone other hother]
    rw [hnil] at hfilter
    exact List.perm_singleton.mp hfilter

/-- By induction over the items, when the trial succeeds, whatever the order of the offers. -/
theorem assign_eq_some_iff [DecidableEq β] (hown : List.Forall₂ (fun item offer => fits item offer = true) items chosen)
    (hperm : offers.Perm chosen) {taken : List β} :
    assign fits items offers = some taken ↔ taken = chosen ∧ Unmistakable fits items chosen := by
  induction hown generalizing offers taken with
  | nil =>
      rw [assign, Option.some.injEq]
      exact ⟨fun h => ⟨h.symm, List.Pairwise.nil⟩, fun h => h.1.symm⟩
  | @cons item offer items chosen hfits hrest ih =>
      have hzip : (∀ other ∈ chosen, fits item other = false) ↔
          ∀ pair ∈ items.zip chosen, fits item pair.2 = false := by
        constructor
        · intro h pair hpair
          exact h pair.2 (List.of_mem_zip hpair).2
        · intro h other hother
          obtain ⟨first, hmem⟩ := mem_of_zip hrest hother
          exact h _ hmem
      rw [assign, unmistakable_cons, ← hzip]
      split
      · rename_i found hfound
        obtain ⟨rfl, hnone⟩ := (filter_of_perm hperm hfits).mp hfound
        have hleft : (offers.erase found).Perm chosen := by
          have herase := hperm.erase found
          rwa [List.erase_cons_head] at herase
        rw [Option.map_eq_some_iff]
        constructor
        · rintro ⟨others, hothers, rfl⟩
          obtain ⟨rfl, hlater⟩ := (ih hleft).mp hothers
          exact ⟨rfl, hnone, hlater⟩
        · rintro ⟨rfl, _, hlater⟩
          exact ⟨chosen, (ih hleft).mpr ⟨rfl, hlater⟩, rfl⟩
      · rename_i hmany
        refine iff_of_false (by simp) ?_
        rintro ⟨_, hnone, _⟩
        exact hmany offer ((filter_of_perm hperm hfits).mpr ⟨rfl, hnone⟩)

end Matching
