import Mathlib.Algebra.Group.Nat.Defs
import Mathlib.Data.Nat.Size

/-!
# Unsigned arithmetic of Chisel

Widths as Chisel infers them: a literal is as wide as its value, at least one
bit; a difference is as wide as its wider operand and wraps there; a connection
truncates to the sink or extends with zeros.
-/

namespace Zcu102.Sim.Chisel
set_option autoImplicit false

variable {m n : ℕ}

/-- The width of the literal `v.U`. -/
def litWidth (v : ℕ) : ℕ := max 1 v.size

def lit (v : ℕ) : BitVec (litWidth v) := BitVec.ofNat _ v

/-- `a - b`. -/
def sub (a : BitVec m) (b : BitVec n) : BitVec (max m n) := a.setWidth _ - b.setWidth _

/-- `sink := a` for a sink of `w` bits. -/
def connect (w : ℕ) (a : BitVec m) : BitVec w := a.setWidth w

theorem lit_toNat (v : ℕ) : (lit v).toNat = v := by
  have fits : v < 2 ^ litWidth v :=
    Nat.lt_of_lt_of_le v.lt_size_self (Nat.pow_le_pow_right (by omega) (Nat.le_max_right 1 v.size))
  rw [lit, BitVec.toNat_ofNat, Nat.mod_eq_of_lt fits]

/-- A difference that is not negative does not wrap. -/
theorem sub_toNat {a : BitVec m} {b : BitVec n} (le : b.toNat ≤ a.toNat) : (sub a b).toNat = a.toNat - b.toNat := by
  have widerA : a.toNat < 2 ^ max m n :=
    Nat.lt_of_lt_of_le a.isLt (Nat.pow_le_pow_right (by omega) (Nat.le_max_left m n))
  have widerB : b.toNat < 2 ^ max m n :=
    Nat.lt_of_lt_of_le b.isLt (Nat.pow_le_pow_right (by omega) (Nat.le_max_right m n))
  rw [sub, BitVec.toNat_sub_of_le]
  · rw [BitVec.toNat_setWidth, BitVec.toNat_setWidth, Nat.mod_eq_of_lt widerA, Nat.mod_eq_of_lt widerB]
  · rw [BitVec.le_def, BitVec.toNat_setWidth, BitVec.toNat_setWidth, Nat.mod_eq_of_lt widerA, Nat.mod_eq_of_lt widerB]
    exact le

theorem connect_toNat (w : ℕ) (a : BitVec m) : (connect w a).toNat = a.toNat % 2 ^ w :=
  BitVec.toNat_setWidth w a

/-- Truncation is exact on the numbers below `d` only if they fit. -/
theorem mod_exact_iff {d w : ℕ} : (∀ x < d, x % 2 ^ w = x) ↔ d ≤ 2 ^ w := by
  constructor
  · intro kept
    apply Nat.le_of_not_lt
    intro big
    have := kept (2 ^ w) big
    rw [Nat.mod_self] at this
    have pos : 0 < 2 ^ w := Nat.two_pow_pos w
    omega
  · intro small x less
    exact Nat.mod_eq_of_lt (by omega)

end Zcu102.Sim.Chisel
