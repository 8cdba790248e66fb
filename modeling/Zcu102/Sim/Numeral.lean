import Mathlib.Data.Nat.Digits.Defs

/-!
# Numerals of a fixed width

A number written with a fixed number of places, most significant digit first. What
does not fit is cut off at the top. The digits are symbols of any type, named by their
values.
-/

namespace Zcu102.Sim
set_option autoImplicit false

variable {α : Type} {digit : ℕ → α} {base k n : ℕ} {ds ds' : List α}

/-- `ds` writes `n` in `k` places. -/
def Writes (digit : ℕ → α) (base k n : ℕ) (ds : List α) : Prop :=
  ∃ values : List ℕ, ds = values.map digit ∧ values.length = k ∧ (∀ v ∈ values, v < base) ∧
    Nat.ofDigits base values.reverse = n % base ^ k

theorem writes_nil (digit : ℕ → α) (base n : ℕ) : Writes digit base 0 n [] := by
  refine ⟨[], rfl, rfl, fun v mem => absurd mem List.not_mem_nil, ?_⟩
  rw [pow_zero, Nat.mod_one]
  exact Nat.ofDigits_nil

/-- One more place at the top. -/
theorem Writes.cons (positive : 0 < base) (writes : Writes digit base k n ds) :
    Writes digit base (k + 1) n (digit (n / base ^ k % base) :: ds) := by
  obtain ⟨values, rfl, places, below, value⟩ := writes
  refine ⟨n / base ^ k % base :: values, rfl, by rw [List.length_cons, places], ?_, ?_⟩
  · intro v mem
    obtain rfl | later := List.mem_cons.mp mem
    · exact Nat.mod_lt _ positive
    · exact below v later
  · rw [List.reverse_cons, Nat.ofDigits_append, value, List.length_reverse, places, Nat.ofDigits_singleton,
      Nat.mod_pow_succ]

/-- A number is written in one way only. -/
theorem Writes.unique (large : 1 < base) (writes : Writes digit base k n ds) (writes' : Writes digit base k n ds') :
    ds = ds' := by
  obtain ⟨values, rfl, places, below, value⟩ := writes
  obtain ⟨values', rfl, places', below', value'⟩ := writes'
  have same : values.reverse = values'.reverse := by
    apply Nat.ofDigits_inj_of_len_eq large
    · rw [List.length_reverse, List.length_reverse, places, places']
    · exact fun v mem => below v (List.mem_reverse.mp mem)
    · exact fun v mem => below' v (List.mem_reverse.mp mem)
    · rw [value, value']
  rw [List.reverse_inj.mp same]

end Zcu102.Sim
