import Mathlib.Logic.Function.Basic

/-!
# Compensation

A store is a function from keys to values. Work that touched only some keys is
undone by putting the initial values of those keys back, in any order and any
number of times.
-/

namespace Compensation

variable {κ ν : Type}

/-- Two stores that agree outside some keys. -/
def AgreeOutside (keys : List κ) (a b : κ → ν) : Prop := ∀ key, key ∉ keys → a key = b key

theorem AgreeOutside.refl (keys : List κ) (a : κ → ν) : AgreeOutside keys a a :=
  fun _ _ => rfl

theorem AgreeOutside.trans {keys : List κ} {a b c : κ → ν} (hab : AgreeOutside keys a b)
    (hbc : AgreeOutside keys b c) : AgreeOutside keys a c := by
  intro key hkey
  rw [hab key hkey, hbc key hkey]

theorem AgreeOutside.mono {keys more : List κ} {a b : κ → ν} (h : AgreeOutside keys a b)
    (hsub : keys ⊆ more) : AgreeOutside more a b := by
  intro key hkey
  exact h key fun hmem => hkey (hsub hmem)

variable [DecidableEq κ]

theorem AgreeOutside.update {keys : List κ} {a b : κ → ν} (h : AgreeOutside keys a b) {key : κ}
    (hkey : key ∈ keys) (value : ν) : AgreeOutside keys (Function.update a key value) b := by
  intro other hother
  have hne : other ≠ key := fun heq => hother (heq ▸ hkey)
  rw [Function.update_of_ne hne]
  exact h other hother

/-- Values put back one key after the other. -/
def restoreAll (initial : κ → ν) : List κ → (κ → ν) → κ → ν
  | [], store => store
  | key :: rest, store => restoreAll initial rest (Function.update store key (initial key))

theorem restoreAll_apply (initial : κ → ν) (keys : List κ) (store : κ → ν) (key : κ) :
    restoreAll initial keys store key = if key ∈ keys then initial key else store key := by
  induction keys generalizing store with
  | nil => simp [restoreAll]
  | cons first rest ih =>
      simp only [restoreAll, ih, List.mem_cons]
      by_cases hrest : key ∈ rest
      · simp [hrest]
      · by_cases hfirst : key = first
        · simp [hfirst]
        · simp [hrest, hfirst]

/-- Restoring every touched key restores the store. -/
theorem restoreAll_eq {initial store : κ → ν} {keys : List κ}
    (h : AgreeOutside keys store initial) : restoreAll initial keys store = initial := by
  funext key
  rw [restoreAll_apply]
  by_cases hkey : key ∈ keys
  · simp [hkey]
  · simp [hkey, h key hkey]

end Compensation
