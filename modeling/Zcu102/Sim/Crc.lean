import Mathlib.Algebra.Field.ZMod
import Mathlib.Algebra.Polynomial.Div
import Mathlib.Algebra.Polynomial.Inductions
import Mathlib.RingTheory.Coprime.Lemmas
import Mathlib.Tactic.LinearCombination
import Zcu102.Sim.Division

/-!
# Cyclic redundancy checks

The division register computes remainders of polynomials over the field of two
elements: a message and a start value leave the remainder of
`start · X^n + message · X^w` by the generator (`poly_divide`). An error pattern is
missed exactly when the generator divides it, and the classical guarantees follow from
the generator alone: bursts up to its degree when its constant term is one, odd numbers
of errors when it vanishes at one, and two errors as long as the register does not come
back to one between them.
-/

namespace Zcu102.Sim
set_option autoImplicit false
open Polynomial

/-- A bit as a coefficient. -/
def coefficient (b : Bool) : ZMod 2 := if b then 1 else 0

theorem coefficient_xor (a b : Bool) : coefficient (a ^^ b) = coefficient a + coefficient b := by
  cases a <;> cases b <;> decide

theorem coefficient_inj {a b : Bool} (same : coefficient a = coefficient b) : a = b := by
  revert same
  cases a <;> cases b <;> decide

/-! ## Polynomials of registers and messages -/

/-- The most significant bit of a register is the coefficient of the highest power. -/
noncomputable def poly {w : ℕ} (v : BitVec w) : (ZMod 2)[X] :=
  ∑ i ∈ Finset.range w, C (coefficient (v.getLsbD i)) * X ^ i

/-- The first bit of a message is the coefficient of the highest power. -/
noncomputable def ofBits : List Bool → (ZMod 2)[X]
  | [] => 0
  | b :: bits => C (coefficient b) * X ^ bits.length + ofBits bits

/-- The bits of a vector, most significant first. -/
def bitsOf {w : ℕ} (v : BitVec w) : List Bool := (List.range w).map v.getMsbD

variable {w : ℕ}

theorem coeff_poly (v : BitVec w) (i : ℕ) : (poly v).coeff i = coefficient (v.getLsbD i) := by
  rw [poly, finsetSum_coeff]
  simp only [coeff_C_mul_X_pow]
  rw [Finset.sum_ite_eq]
  by_cases inside : i < w
  · rw [if_pos (Finset.mem_range.mpr inside)]
  · rw [if_neg (mt Finset.mem_range.mp inside), BitVec.getLsbD_of_ge v i (Nat.le_of_not_lt inside)]
    rfl

theorem poly_inj {u v : BitVec w} (same : poly u = poly v) : u = v := by
  apply BitVec.eq_of_getLsbD_eq
  intro i _
  apply coefficient_inj
  rw [← coeff_poly, ← coeff_poly, same]

theorem poly_zero : poly (0 : BitVec w) = 0 := by
  ext i
  rw [coeff_poly, coeff_zero]
  simp [coefficient]

theorem poly_one (pos : 0 < w) : poly (1 : BitVec w) = 1 := by
  ext i
  rw [coeff_poly, coeff_one]
  by_cases first : i = 0 <;> simp [first, pos, coefficient]

theorem degree_poly_lt (v : BitVec w) : (poly v).degree < w := by
  rw [degree_lt_iff_coeff_zero]
  intro i past
  rw [coeff_poly, BitVec.getLsbD_of_ge v i past]
  rfl

theorem poly_xor (u v : BitVec w) : poly (u ^^^ v) = poly u + poly v := by
  ext i
  rw [coeff_add, coeff_poly, coeff_poly, coeff_poly, BitVec.getLsbD_xor, coefficient_xor]

theorem ofBits_append (bits bits' : List Bool) :
    ofBits (bits ++ bits') = ofBits bits * X ^ bits'.length + ofBits bits' := by
  induction bits with
  | nil => rw [List.nil_append, ofBits, zero_mul, zero_add]
  | cons b bits ih =>
    rw [List.cons_append, ofBits, ofBits, ih, List.length_append]
    ring

theorem ofBits_of_clear {bits : List Bool} (clear : true ∉ bits) : ofBits bits = 0 := by
  induction bits with
  | nil => rfl
  | cons b bits ih =>
    cases b with
    | true => exact absurd List.mem_cons_self clear
    | false => rw [ofBits, ih fun mem => clear (List.mem_cons_of_mem _ mem)]; simp [coefficient]

theorem coeff_ofBits (bits : List Bool) (i : ℕ) :
    (ofBits bits).coeff i = coefficient (bits.reverse[i]?.getD false) := by
  induction bits with
  | nil => rfl
  | cons b bits ih =>
    rw [ofBits, coeff_add, coeff_C_mul_X_pow, ih, List.reverse_cons]
    by_cases last : i = bits.length
    · rw [if_pos last, last, ← List.length_reverse, List.getElem?_concat_length,
        List.getElem?_eq_none (Nat.le_refl _)]
      exact add_zero _
    · rw [if_neg last, zero_add]
      by_cases inside : i < bits.length
      · rw [List.getElem?_append_left (by rwa [List.length_reverse])]
      · rw [List.getElem?_eq_none (by rw [List.length_reverse]; omega),
          List.getElem?_eq_none (by rw [List.length_append, List.length_reverse, List.length_singleton]; omega)]

theorem clear_of_ofBits {bits : List Bool} (zero : ofBits bits = 0) : true ∉ bits := by
  intro mem
  obtain ⟨i, row⟩ := List.mem_iff_getElem?.mp (List.mem_reverse.mpr mem)
  have one := coeff_ofBits bits i
  rw [zero, row, coeff_zero] at one
  exact absurd one (by decide)

theorem degree_ofBits_lt (bits : List Bool) : (ofBits bits).degree < bits.length := by
  rw [degree_lt_iff_coeff_zero]
  intro i past
  rw [coeff_ofBits, List.getElem?_eq_none (by rwa [List.length_reverse])]
  rfl

theorem length_bitsOf (v : BitVec w) : (bitsOf v).length = w := by
  rw [bitsOf, List.length_map, List.length_range]

theorem bitsOf_append {w' : ℕ} (u : BitVec w) (v : BitVec w') : bitsOf (u ++ v) = bitsOf u ++ bitsOf v := by
  rw [bitsOf, List.range_add, List.map_append, List.map_map]
  congr 1
  · apply List.map_congr_left
    intro i mem
    rw [BitVec.getMsbD_append, if_neg (Nat.not_le.mpr (List.mem_range.mp mem))]
  · apply List.map_congr_left
    intro i _
    rw [Function.comp_apply, BitVec.getMsbD_append, if_pos (Nat.le_add_right w i), Nat.add_sub_cancel_left]

theorem bitsOf_xor (u v : BitVec w) : bitsOf (u ^^^ v) = List.zipWith xor (bitsOf u) (bitsOf v) := by
  rw [bitsOf, bitsOf, bitsOf, List.zipWith_map, List.zipWith_self]
  exact List.map_congr_left fun i _ => BitVec.getMsbD_xor

theorem ofBits_bitsOf (v : BitVec w) : ofBits (bitsOf v) = poly v := by
  ext i
  rw [coeff_ofBits, coeff_poly]
  congr 1
  by_cases inside : i < w
  · rw [List.getElem?_reverse (by rwa [length_bitsOf]), length_bitsOf, bitsOf, List.getElem?_map,
      List.getElem?_range (by omega), Option.map_some, Option.getD_some, BitVec.getMsbD_eq_getLsbD]
    have place : w - 1 - (w - 1 - i) = i := by omega
    have bound : w - 1 - i < w := by omega
    rw [place, decide_eq_true bound, Bool.true_and]
  · rw [List.getElem?_eq_none (by rw [List.length_reverse, length_bitsOf]; omega),
      BitVec.getLsbD_of_ge v i (Nat.le_of_not_lt inside)]
    rfl

theorem eval_ofBits (bits : List Bool) : (ofBits bits).eval 1 = bits.count true := by
  induction bits with
  | nil => simp [ofBits]
  | cons b bits ih =>
    rw [ofBits, eval_add, eval_mul, eval_C, eval_pow, eval_X, one_pow, mul_one, ih]
    cases b with
    | true => rw [List.count_cons_self, Nat.cast_succ, add_comm]; rfl
    | false => rw [List.count_cons_of_ne Bool.false_ne_true, show coefficient false = 0 from rfl, zero_add]

/-! ## The generator -/

noncomputable def generator (g : BitVec w) : (ZMod 2)[X] := X ^ w + poly g

theorem monic_generator (g : BitVec w) : (generator g).Monic := monic_X_pow_add (degree_poly_lt g)

theorem degree_generator (g : BitVec w) : (generator g).degree = w := by
  rw [generator, degree_add_eq_left_of_degree_lt]
  · exact degree_X_pow w
  · rw [degree_X_pow]
    exact degree_poly_lt g

/-- The generator divides nothing of smaller degree. -/
theorem eq_zero_of_generator_dvd {g : BitVec w} {p : (ZMod 2)[X]} (divides : generator g ∣ p) (small : p.degree < w) :
    p = 0 := by
  by_contra nonzero
  exact (monic_generator g).not_dvd_of_degree_lt nonzero (by rwa [degree_generator]) divides

theorem poly_shiftLeft (v : BitVec w) : poly (v <<< 1) = X * poly v + C (coefficient v.msb) * X ^ w := by
  ext i
  rw [coeff_poly, BitVec.getLsbD_shiftLeft, coeff_add, coeff_C_mul_X_pow]
  cases i with
  | zero =>
    rw [coeff_X_mul_zero, zero_add]
    by_cases none : 0 = w
    · subst none
      simp [coefficient, BitVec.of_length_zero]
    · simp [none, coefficient]
  | succ i =>
    rw [coeff_X_mul, coeff_poly]
    by_cases last : i + 1 = w
    · -- the bit that leaves is counted on the right twice
      subst last
      have twice (b : Bool) : coefficient b + coefficient b = 0 := by cases b <;> decide
      rw [if_pos rfl, BitVec.msb_eq_getLsbD_last, Nat.add_sub_cancel, twice]
      simp [coefficient]
    · rw [if_neg last, add_zero]
      by_cases inside : i + 1 < w
      · simp [inside]
      · rw [BitVec.getLsbD_of_ge v i (by omega)]
        simp [inside]

theorem poly_shift (g reg : BitVec w) (b : Bool) :
    poly (shift g reg b) =
      X * poly reg + C (coefficient b) * X ^ w + C (coefficient (reg.msb ^^ b)) * generator g := by
  have out : coefficient reg.msb = coefficient b + coefficient (reg.msb ^^ b) := by
    cases reg.msb <;> cases b <;> decide
  have added : poly (shift g reg b) = poly (reg <<< 1) + C (coefficient (reg.msb ^^ b)) * poly g := by
    rw [shift]
    cases reg.msb ^^ b with
    | true => rw [if_pos rfl, poly_xor]; simp [coefficient]
    | false => rw [if_neg Bool.false_ne_true]; simp [coefficient]
  rw [added, poly_shiftLeft, out, C_add, generator]
  ring

/-! ## Remainders -/

/-- The register goes on with the quotient dropped. -/
theorem exists_quotient (g reg : BitVec w) (bits : List Bool) :
    ∃ q, poly (divide g reg bits) = poly reg * X ^ bits.length + ofBits bits * X ^ w + q * generator g := by
  induction bits generalizing reg with
  | nil =>
    refine ⟨0, ?_⟩
    rw [divide, List.foldl_nil, ofBits, List.length_nil]
    ring
  | cons b bits ih =>
    obtain ⟨q, rest⟩ := ih (shift g reg b)
    refine ⟨C (coefficient (reg.msb ^^ b)) * X ^ bits.length + q, ?_⟩
    have step : divide g reg (b :: bits) = divide g (shift g reg b) bits := rfl
    rw [step, rest, poly_shift, ofBits, List.length_cons]
    ring

/-- **The register leaves the remainder** of its start and the message, the message moved up by the width. -/
theorem poly_divide (g reg : BitVec w) (bits : List Bool) :
    poly (divide g reg bits) = (poly reg * X ^ bits.length + ofBits bits * X ^ w) %ₘ generator g := by
  obtain ⟨q, same⟩ := exists_quotient g reg bits
  have small : poly (divide g reg bits) %ₘ generator g = poly (divide g reg bits) := by
    rw [modByMonic_eq_self_iff (monic_generator g), degree_generator]
    exact degree_poly_lt _
  rw [← small, same, add_modByMonic, mul_comm q, self_mul_modByMonic (monic_generator g), add_zero]

theorem divide_eq_zero_iff (g reg : BitVec w) (bits : List Bool) :
    divide g reg bits = 0 ↔ generator g ∣ poly reg * X ^ bits.length + ofBits bits * X ^ w := by
  rw [← modByMonic_eq_zero_iff_dvd (monic_generator g), ← poly_divide]
  constructor
  · intro zero
    rw [zero, poly_zero]
  · intro zero
    exact poly_inj (zero.trans poly_zero.symm)

/-! ## Errors that cannot be missed -/

section Odd

variable {g : BitVec w} (odd : g.getLsbD 0 = true)
include odd

theorem width_pos : 0 < w := BitVec.lt_of_getLsbD odd

/-- A generator with a constant term has no factor in common with a power of `X`. -/
theorem generator_dvd_mul_X_pow {p : (ZMod 2)[X]} {n : ℕ} : generator g ∣ p * X ^ n ↔ generator g ∣ p := by
  have constant : (generator g).coeff 0 = 1 := by
    rw [generator, coeff_add, coeff_X_pow, if_neg (width_pos odd).ne, coeff_poly, odd, zero_add]
    rfl
  have coprime : IsCoprime (generator g) X := by
    refine ⟨1, -divX (generator g), ?_⟩
    have split := divX_mul_X_add (generator g)
    rw [constant, C_1] at split
    linear_combination -split
  constructor
  · intro divides
    exact coprime.pow_right.dvd_of_dvd_mul_right divides
  · intro divides
    exact divides.mul_right _

theorem divide_zero_iff (bits : List Bool) : divide g 0 bits = 0 ↔ generator g ∣ ofBits bits := by
  rw [divide_eq_zero_iff, poly_zero, zero_mul, zero_add, generator_dvd_mul_X_pow odd]

/-- A register is brought to zero by its own bits, and by no others. -/
theorem divide_bitsOf_iff (reg v : BitVec w) : divide g reg (bitsOf v) = 0 ↔ reg = v := by
  rw [divide_eq_zero_iff, length_bitsOf, ofBits_bitsOf, ← add_mul, ← poly_xor, generator_dvd_mul_X_pow odd]
  constructor
  · intro divides
    have zero := eq_zero_of_generator_dvd divides (degree_poly_lt _)
    exact BitVec.xor_eq_zero_iff.mp (poly_inj (zero.trans poly_zero.symm))
  · intro same
    rw [same, BitVec.xor_self]
    exact poly_zero ▸ dvd_zero _

/-- **A burst no longer than the register is caught.** -/
theorem divide_burst {before burst after : List Bool} (clearBefore : true ∉ before) (clearAfter : true ∉ after)
    (short : burst.length ≤ w) (flips : true ∈ burst) : divide g 0 (before ++ burst ++ after) ≠ 0 := by
  rw [Ne, divide_zero_iff odd, ofBits_append, ofBits_append, ofBits_of_clear clearBefore, ofBits_of_clear clearAfter,
    zero_mul, zero_add, add_zero, generator_dvd_mul_X_pow odd]
  intro divides
  have zero := eq_zero_of_generator_dvd divides ((degree_ofBits_lt burst).trans_le (Nat.cast_le.mpr short))
  exact clear_of_ofBits zero flips

theorem divide_one {d : ℕ} (divides : generator g ∣ X ^ d + 1) : divide g 1 (List.replicate d false) = 1 := by
  obtain ⟨q, same⟩ := exists_quotient g 1 (List.replicate d false)
  have clear : true ∉ List.replicate d false := fun mem => absurd (List.eq_of_mem_replicate mem) (by decide)
  rw [poly_one (width_pos odd), ofBits_of_clear clear, List.length_replicate, one_mul, zero_mul, add_zero] at same
  have differs : generator g ∣ poly (divide g 1 (List.replicate d false) ^^^ 1) := by
    rw [poly_xor, same, poly_one (width_pos odd), add_right_comm]
    exact dvd_add divides (dvd_mul_left _ _)
  have zero := eq_zero_of_generator_dvd differs (degree_poly_lt _)
  exact BitVec.xor_eq_zero_iff.mp (poly_inj (zero.trans poly_zero.symm))

/-- **Two errors are caught** if the register does not come back to one between them. -/
theorem divide_double {n : ℕ} (apart : away g n 1 = true) {bits : List Bool} (length : bits.length ≤ n + 1)
    (double : bits.count true = 2) : divide g 0 bits ≠ 0 := by
  have present : 0 < bits.count true := by omega
  obtain ⟨before, rest, rfl, clearBefore⟩ := List.eq_append_cons_of_mem (List.count_pos_iff.mp present)
  have single : rest.count true = 1 := by
    rw [List.count_append, List.count_eq_zero_of_not_mem clearBefore, List.count_cons_self] at double
    omega
  have another : 0 < rest.count true := by omega
  obtain ⟨between, after, rfl, clearBetween⟩ := List.eq_append_cons_of_mem (List.count_pos_iff.mp another)
  have clearAfter : true ∉ after := by
    rw [List.count_append, List.count_eq_zero_of_not_mem clearBetween, List.count_cons_self] at single
    exact List.count_eq_zero.mp (by omega)
  have powers : ofBits (before ++ true :: (between ++ true :: after)) =
      (X ^ (between.length + 1) + 1) * X ^ after.length := by
    rw [ofBits_append, ofBits, ofBits_append, ofBits, ofBits_of_clear clearBefore, ofBits_of_clear clearBetween,
      ofBits_of_clear clearAfter, List.length_append, List.length_cons, List.length_cons]
    have one : C (coefficient true) = (1 : (ZMod 2)[X]) := C_1
    rw [one]
    ring
  rw [Ne, divide_zero_iff odd, powers, generator_dvd_mul_X_pow odd]
  intro divides
  rw [List.length_append, List.length_cons, List.length_append, List.length_cons] at length
  exact divide_of_away apart (by omega) (divide_one odd divides)

end Odd

/-- **An odd number of errors is caught** by a generator that vanishes at one. -/
theorem divide_odd {g : BitVec w} (root : (generator g).eval 1 = 0) {bits : List Bool} (odd : Odd (bits.count true)) :
    divide g 0 bits ≠ 0 := by
  rw [Ne, divide_eq_zero_iff, poly_zero, zero_mul, zero_add]
  intro divides
  have even : (ofBits bits * X ^ w).eval 1 = 0 := by
    have vanishes := eval_dvd divides (x := 1)
    rwa [root, zero_dvd_iff] at vanishes
  rw [eval_mul, eval_pow, eval_X, one_pow, mul_one, eval_ofBits, ZMod.natCast_eq_zero_iff_even] at even
  exact Nat.not_even_iff_odd.mpr odd even

end Zcu102.Sim
