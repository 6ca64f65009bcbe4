import Mathlib.Data.List.Perm.Basic

/-!
# Histories of compare-and-swap

A register is only replaced by writes that name the value they expect to
replace. A history of such writes is serial when each of them replaced a value
of the name it expected.
-/

namespace CompareAndSwap

variable {ν δ : Type}

structure Write (ν δ : Type) where
  expected : δ
  value : ν
deriving DecidableEq

variable (name : ν → δ)

/-- Each write replaced a value it named, from the first value to the last one. -/
def Serial : ν → List (Write ν δ) → ν → Prop
  | value, [], last => last = value
  | value, write :: rest, last => name value = write.expected ∧ Serial write.value rest last

variable {name} {value last middle : ν} {writes more : List (Write ν δ)}

theorem Serial.append (h : Serial name value writes middle) (hmore : Serial name middle more last) :
    Serial name value (writes ++ more) last := by
  induction writes generalizing value with
  | nil =>
      cases h
      exact hmore
  | cons write rest ih => exact ⟨h.1, ih h.2⟩

theorem Serial.split (h : Serial name value (writes ++ more) last) :
    ∃ middle, Serial name value writes middle ∧ Serial name middle more last := by
  induction writes generalizing value with
  | nil => exact ⟨value, rfl, h⟩
  | cons write rest ih =>
      obtain ⟨middle, hrest, hmore⟩ := ih h.2
      exact ⟨middle, ⟨h.1, hrest⟩, hmore⟩

theorem Serial.snoc (h : Serial name value writes middle) {write : Write ν δ}
    (hexpected : name middle = write.expected) : Serial name value (writes ++ [write]) write.value :=
  h.append ⟨hexpected, rfl⟩

/-- The last value is that of one of the writes. -/
theorem Serial.mem_last (h : Serial name value writes last) (hne : writes ≠ []) : ∃ write ∈ writes, write.value = last := by
  induction writes generalizing value with
  | nil => exact absurd rfl hne
  | cons write rest ih =>
      cases rest with
      | nil => exact ⟨write, List.mem_cons_self, h.2.symm⟩
      | cons next rest =>
          obtain ⟨found, hfound, hvalue⟩ := ih h.2 (by simp)
          exact ⟨found, List.mem_cons_of_mem _ hfound, hvalue⟩

/-- Between two writes that expect the same name, a value of that name came back. -/
def Returns (name : ν → δ) (writes : List (Write ν δ)) : Prop :=
  ∀ before first between second after, writes = before ++ first :: between ++ second :: after →
    first.expected = second.expected → ∃ write ∈ first :: between, name write.value = second.expected

theorem Serial.returns (h : Serial name value writes last) : Returns name writes := by
  intro before first between second after hwrites _
  rw [hwrites] at h
  obtain ⟨standing, hupto, hsecond, _⟩ := h.split
  obtain ⟨_, _, hbetween⟩ := hupto.split
  obtain ⟨write, hmem, hvalue⟩ := hbetween.mem_last (by simp)
  refine ⟨write, hmem, ?_⟩
  rw [hvalue]
  exact hsecond

end CompareAndSwap
