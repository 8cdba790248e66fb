import Mathlib.Data.Nat.Notation

/-!
# Shift registers

A register that moves one place down at an edge and takes a bit at the top.
Bit 0 leaves it, bit `n` is the last one in.
-/

namespace Zcu102.Sim
set_option autoImplicit false

variable {n : ℕ}

def shiftIn (b : Bool) (r : BitVec (n + 1)) : BitVec (n + 1) := BitVec.cons b (r.extractLsb' 1 n)

theorem getLsbD_shiftIn (b : Bool) (r : BitVec (n + 1)) {i : ℕ} (bound : i ≤ n) :
    (shiftIn b r).getLsbD i = if i = n then b else r.getLsbD (i + 1) := by
  rw [shiftIn, BitVec.getLsbD_cons]
  by_cases top : i = n
  · rw [if_pos top, if_pos top]
  · have below : i < n := by omega
    rw [if_neg top, if_neg top, BitVec.getLsbD_extractLsb', decide_eq_true below, Bool.true_and, Nat.add_comm 1 i]

/-- A word fed in from its lowest bit on stands at the top. -/
theorem shiftIn_shiftLeft (w : BitVec (n + 1)) {j : ℕ} (bound : j ≤ n) :
    shiftIn (w.getLsbD j) (w <<< (n + 1 - j)) = w <<< (n - j) := by
  apply BitVec.eq_of_getLsbD_eq
  intro i inside
  rw [getLsbD_shiftIn _ _ (Nat.le_of_lt_succ inside), BitVec.getLsbD_shiftLeft, BitVec.getLsbD_shiftLeft]
  by_cases top : i = n
  · have place : n - (n - j) = j := by omega
    have high : ¬ n < n - j := by omega
    rw [if_pos top, top, place, decide_eq_true (Nat.lt_succ_self n), decide_eq_false high, Bool.not_false,
      Bool.true_and, Bool.true_and]
  · have above : i + 1 < n + 1 := by omega
    have place : i + 1 - (n + 1 - j) = i - (n - j) := by omega
    have same : i + 1 < n + 1 - j ↔ i < n - j := by omega
    rw [if_neg top, place, decide_eq_true above, decide_eq_true inside, decide_eq_decide.mpr same]

/-- A place after the shift, by where its bit comes from. -/
theorem shiftIn_place {b level : Bool} {r : BitVec (n + 1)} {i : ℕ} (bound : i ≤ n) (top : i = n → b = level)
    (moved : i < n → r.getLsbD (i + 1) = level) : (shiftIn b r).getLsbD i = level := by
  rw [getLsbD_shiftIn b r bound]
  by_cases last : i = n
  · rw [if_pos last]
    exact top last
  · rw [if_neg last]
    exact moved (by omega)

/-- A level in every place from `low` on moves down with the shift. -/
theorem shiftIn_from {b : Bool} {r : BitVec (n + 1)} {low : ℕ}
    (level : ∀ i, i ≤ n → low ≤ i → r.getLsbD i = b) {i : ℕ} (bound : i ≤ n) (above : low ≤ i + 1) :
    (shiftIn b r).getLsbD i = b :=
  shiftIn_place bound (fun _ => rfl) fun below => level (i + 1) (by omega) above

/-- A level in every place below `high` moves down, whatever comes in. -/
theorem shiftIn_below {b c : Bool} {r : BitVec (n + 1)} {high : ℕ}
    (level : ∀ i, i ≤ n → i < high → r.getLsbD i = b) {i : ℕ} (bound : i < n) (below : i + 1 < high) :
    (shiftIn c r).getLsbD i = b :=
  shiftIn_place (by omega) (fun last => by omega) fun _ => level (i + 1) (by omega) below

end Zcu102.Sim
