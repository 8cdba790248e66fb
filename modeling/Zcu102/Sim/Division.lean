import Mathlib.Data.Nat.Notation

/-!
# The division register

A register of `w` bits with the low coefficients `g` of a generator of degree `w`: a
bit comes in at the top, and `g` is added when a one leaves. The register is linear
over exclusive or in its state and its input together, and two linear functions that
agree on the single bits are the same.
-/

namespace Zcu102.Sim
set_option autoImplicit false

variable {w : ℕ}

/-- One step of the register. -/
def shift (g reg : BitVec w) (b : Bool) : BitVec w :=
  if reg.msb ^^ b then (reg <<< 1) ^^^ g else reg <<< 1

/-- A message, bit by bit. -/
def divide (g reg : BitVec w) (bits : List Bool) : BitVec w := bits.foldl (shift g) reg

theorem xor_pairs (a b c d : BitVec w) : (a ^^^ b) ^^^ (c ^^^ d) = (a ^^^ c) ^^^ (b ^^^ d) := by
  ac_rfl

/-- One more of the lowest bits. -/
theorem low_succ (x : BitVec w) (k : ℕ) :
    (x.setWidth (k + 1)).setWidth w =
      (x.setWidth k).setWidth w ^^^ if x.getLsbD k then BitVec.twoPow w k else 0#w := by
  apply BitVec.eq_of_getLsbD_eq
  intro i inside
  have below (n : ℕ) : ((x.setWidth n).setWidth w).getLsbD i = (decide (i < n) && x.getLsbD i) := by
    rw [BitVec.getLsbD_setWidth, BitVec.getLsbD_setWidth, decide_eq_true inside, Bool.true_and]
  rw [BitVec.getLsbD_xor, below, below]
  obtain less | rfl | more := Nat.lt_trichotomy i k
  · have other : k ≠ i := by omega
    cases x.getLsbD k <;> simp [less, Nat.lt_succ_of_lt less, other]
  · cases x.getLsbD i <;> simp [inside]
  · have other : k ≠ i := by omega
    have above : ¬ i < k + 1 := by omega
    cases x.getLsbD k <;> simp [above, Nat.not_lt_of_gt more, other]

/-- Linear functions that agree on the single bits are equal. -/
theorem xor_ext {v : ℕ} {f g : BitVec w → BitVec v} (f_xor : ∀ a b, f (a ^^^ b) = f a ^^^ f b)
    (g_xor : ∀ a b, g (a ^^^ b) = g a ^^^ g b) (bits : ∀ i < w, f (BitVec.twoPow w i) = g (BitVec.twoPow w i))
    (x : BitVec w) : f x = g x := by
  have zero : f 0#w = g 0#w := by
    have f_zero := f_xor 0#w 0#w
    have g_zero := g_xor 0#w 0#w
    rw [BitVec.xor_self, BitVec.xor_self] at f_zero g_zero
    rw [f_zero, g_zero]
  have low (k : ℕ) : f ((x.setWidth k).setWidth w) = g ((x.setWidth k).setWidth w) := by
    induction k with
    | zero =>
      rw [BitVec.of_length_zero (x := x.setWidth 0), BitVec.setWidth_zero]
      exact zero
    | succ k ih =>
      rw [low_succ, f_xor, g_xor, ih]
      by_cases set : x.getLsbD k
      · rw [if_pos set, bits k (BitVec.lt_of_getLsbD set)]
      · rw [if_neg set, zero]
  have all := low w
  rwa [BitVec.setWidth_eq, BitVec.setWidth_eq] at all

theorem shift_xor (g a b : BitVec w) (x y : Bool) : shift g (a ^^^ b) (x ^^ y) = shift g a x ^^^ shift g b y := by
  have bit : ((a ^^^ b).msb ^^ (x ^^ y)) = ((a.msb ^^ x) ^^ (b.msb ^^ y)) := by
    rw [BitVec.msb_xor]
    cases a.msb <;> cases b.msb <;> cases x <;> cases y <;> rfl
  unfold shift
  rw [bit, BitVec.shiftLeft_xor_distrib]
  cases a.msb ^^ x <;> cases b.msb ^^ y
  · rfl
  · exact BitVec.xor_assoc _ _ _
  · simp only [Bool.xor_false, if_true, Bool.false_eq_true, if_false]
    ac_rfl
  · simp only [Bool.xor_true, Bool.not_true, Bool.false_eq_true, if_false, if_true]
    rw [xor_pairs, BitVec.xor_self, BitVec.xor_zero]

theorem divide_append (g reg : BitVec w) (bits bits' : List Bool) :
    divide g reg (bits ++ bits') = divide g (divide g reg bits) bits' := List.foldl_append

/-- Two messages of one length can be divided together. -/
theorem divide_xor (g a b : BitVec w) {xs ys : List Bool} (same : xs.length = ys.length) :
    divide g (a ^^^ b) (List.zipWith xor xs ys) = divide g a xs ^^^ divide g b ys := by
  induction xs generalizing a b ys with
  | nil =>
    rw [List.length_eq_zero_iff.mp same.symm]
    rfl
  | cons x xs ih =>
    cases ys with
    | nil => cases same
    | cons y ys =>
      have tails := ih (shift g a x) (shift g b y) (Nat.succ.inj same)
      rw [← shift_xor] at tails
      exact tails

/-- Fed with zeros, the register does not come to one within `n` steps. -/
def away (g : BitVec w) : ℕ → BitVec w → Bool
  | 0, _ => true
  | n + 1, reg => shift g reg false != 1 && away g n (shift g reg false)

theorem divide_of_away {g reg : BitVec w} {n d : ℕ} (apart : away g n reg = true) (inside : d < n) :
    divide g reg (List.replicate (d + 1) false) ≠ 1 := by
  induction n generalizing reg d with
  | zero => omega
  | succ n ih =>
    rw [away, Bool.and_eq_true, bne_iff_ne] at apart
    cases d with
    | zero => exact apart.1
    | succ d =>
      have rest := ih apart.2 (Nat.lt_of_add_lt_add_right inside)
      exact rest

end Zcu102.Sim
