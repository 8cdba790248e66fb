import Zcu102.Sim.Division

/-!
# Networks of exclusive ors

A combinational block whose every output bit is the exclusive or of some bits of two
inputs, written as the source of such a block writes it: one list of terms for each
output. A linear form over the inputs is a mask. A division register can be run with a
form in each of its bits, and a network computes the division by a word when its terms
are the forms that run ends with (`network_eq_divide`), which is a comparison of numbers.
-/

namespace Zcu102.Sim
set_option autoImplicit false

variable {u v w : ℕ}

/-! ## Linear forms -/

/-- The exclusive or of the first `n` inputs that the mask selects. -/
def selected (f : ℕ → Bool) (n m : ℕ) : Bool := ((List.range n).map fun i => m.testBit i && f i).foldr xor false

theorem foldr_xor_zip (f g : ℕ → Bool) (is : List ℕ) :
    (is.map fun i => f i ^^ g i).foldr xor false = ((is.map f).foldr xor false ^^ (is.map g).foldr xor false) := by
  induction is with
  | nil => rfl
  | cons i is ih =>
    simp only [List.map_cons, List.foldr_cons, ih]
    rw [Bool.xor_assoc, Bool.xor_assoc, Bool.xor_left_comm (g i)]

theorem selected_xor (f : ℕ → Bool) (n m m' : ℕ) :
    selected f n (m ^^^ m') = (selected f n m ^^ selected f n m') := by
  rw [selected, selected, selected, ← foldr_xor_zip]
  simp only [Nat.testBit_xor, Bool.and_xor_distrib_right]

theorem selected_zero (f : ℕ → Bool) (n : ℕ) : selected f n 0 = false := by
  rw [selected]
  induction List.range n with
  | nil => rfl
  | cons i is ih => simpa using ih

theorem foldr_xor_single (f : ℕ → Bool) (i : ℕ) {is : List ℕ} (nodup : is.Nodup) :
    (is.map fun j => decide (i = j) && f j).foldr xor false = (decide (i ∈ is) && f i) := by
  induction is with
  | nil => rfl
  | cons j is ih =>
    obtain ⟨fresh, nodup⟩ := List.nodup_cons.mp nodup
    rw [List.map_cons, List.foldr_cons, ih nodup]
    by_cases here : i = j
    · subst here
      simp [fresh]
    · simp [here]

theorem selected_bit (f : ℕ → Bool) (n i : ℕ) : selected f n (1 <<< i) = (decide (i < n) && f i) := by
  have single : selected f n (1 <<< i) = ((List.range n).map fun j => decide (i = j) && f j).foldr xor false := by
    rw [selected]
    congr 1
    apply List.map_congr_left
    intro j _
    rw [Nat.one_shiftLeft, Nat.testBit_two_pow]
  rw [single, foldr_xor_single f i List.nodup_range]
  simp only [List.mem_range]

/-! ## Networks -/

/-- A bit of the first input or of the second one. -/
inductive Term
  | c (i : ℕ)
  | d (i : ℕ)

def Term.read (x : BitVec u) (y : BitVec v) : Term → Bool
  | .c i => x.getLsbD i
  | .d i => y.getLsbD i

/-- One output bit. -/
def wire (x : BitVec u) (y : BitVec v) : List Term → Bool
  | [] => false
  | t :: terms => t.read x y ^^ wire x y terms

/-- All output bits, the lowest first. -/
def network (w : ℕ) (rows : List (List Term)) (x : BitVec u) (y : BitVec v) : BitVec w :=
  (BitVec.ofBoolListLE (rows.map (wire x y))).setWidth w

theorem getLsbD_network (rows : List (List Term)) (x : BitVec u) (y : BitVec v) {i : ℕ} (inside : i < w) :
    (network w rows x y).getLsbD i = (rows.map (wire x y))[i]?.getD false := by
  rw [network, BitVec.getLsbD_setWidth, decide_eq_true inside, Bool.true_and, BitVec.getLsbD_ofBoolListLE,
    List.getD_eq_getElem?_getD]

/-- The bits of the two inputs in turn. -/
def interleaved (x : BitVec u) (y : BitVec v) (k : ℕ) : Bool :=
  if k % 2 = 0 then x.getLsbD (k / 2) else y.getLsbD (k / 2)

/-- The value of a form over two inputs. -/
def value (x : BitVec u) (y : BitVec v) (m : ℕ) : Bool := selected (interleaved x y) (2 * (u + v)) m

def Term.mask : Term → ℕ
  | .c i => 1 <<< (2 * i)
  | .d i => 1 <<< (2 * i + 1)

def maskOf : List Term → ℕ
  | [] => 0
  | t :: terms => t.mask ^^^ maskOf terms

theorem Term.value_mask (x : BitVec u) (y : BitVec v) (t : Term) : value x y t.mask = t.read x y := by
  cases t with
  | c i =>
    have place : interleaved x y (2 * i) = x.getLsbD i := by
      rw [interleaved, if_pos (by omega), Nat.mul_div_cancel_left i (by omega)]
    rw [mask, value, selected_bit, place, read]
    by_cases inside : i < u
    · rw [decide_eq_true (by omega), Bool.true_and]
    · rw [BitVec.getLsbD_of_ge x i (Nat.le_of_not_lt inside), Bool.and_false]
  | d i =>
    have half : (2 * i + 1) / 2 = i := by omega
    have place : interleaved x y (2 * i + 1) = y.getLsbD i := by
      rw [interleaved, if_neg (by omega), half]
    rw [mask, value, selected_bit, place, read]
    by_cases inside : i < v
    · rw [decide_eq_true (by omega), Bool.true_and]
    · rw [BitVec.getLsbD_of_ge y i (Nat.le_of_not_lt inside), Bool.and_false]

theorem value_maskOf (x : BitVec u) (y : BitVec v) (terms : List Term) : value x y (maskOf terms) = wire x y terms := by
  induction terms with
  | nil => exact selected_zero _ _
  | cons t terms ih => rw [maskOf, value, selected_xor, ← value, ← value, Term.value_mask, ih, wire]

/-! ## The register, run on forms -/

/-- The bits of the register are the values of the masks, lowest first. -/
structure Represents (x : BitVec u) (y : BitVec v) (masks : List ℕ) (reg : BitVec w) : Prop where
  length : masks.length = w
  bits : ∀ i < w, masks[i]?.map (value x y) = some (reg.getLsbD i)

/-- One step of the division register whose generator has the bits `gs`. -/
def shiftMasks (gs : List Bool) (masks : List ℕ) (b : ℕ) : List ℕ :=
  List.zipWith (fun (g : Bool) m => if g then m ^^^ (masks.getLastD 0 ^^^ b) else m) gs (0 :: masks.dropLast)

theorem getLsbD_shift (g reg : BitVec w) (b : Bool) {i : ℕ} (inside : i < w) :
    (shift g reg b).getLsbD i = ((!decide (i < 1) && reg.getLsbD (i - 1)) ^^ (g.getLsbD i && (reg.msb ^^ b))) := by
  rw [shift]
  cases reg.msb ^^ b with
  | true => rw [if_pos rfl, BitVec.getLsbD_xor, BitVec.getLsbD_shiftLeft, decide_eq_true inside, Bool.and_true,
      Bool.true_and]
  | false => rw [if_neg Bool.false_ne_true, BitVec.getLsbD_shiftLeft, decide_eq_true inside, Bool.and_false,
      Bool.xor_false, Bool.true_and]

theorem Represents.shift {x : BitVec u} {y : BitVec v} {masks : List ℕ} {reg : BitVec w} (pos : 0 < w)
    (held : Represents x y masks reg) (g : BitVec w) (b : ℕ) :
    Represents x y (shiftMasks ((List.range w).map g.getLsbD) masks b) (Sim.shift g reg (value x y b)) := by
  have xor (m m' : ℕ) : value x y (m ^^^ m') = (value x y m ^^ value x y m') := selected_xor _ _ m m'
  have out : value x y (masks.getLastD 0) = reg.msb := by
    have last := held.bits (w - 1) (by omega)
    have place : masks[w - 1]? = masks.getLast? := by rw [List.getLast?_eq_getElem?, held.length]
    rw [place, ← BitVec.msb_eq_getLsbD_last, Option.map_eq_some_iff] at last
    obtain ⟨m, top, same⟩ := last
    rw [List.getLastD_eq_getLast?, top, Option.getD_some, same]
  have bit (i m : ℕ) :
      value x y (if g.getLsbD i then m ^^^ (masks.getLastD 0 ^^^ b) else m) =
        (value x y m ^^ (g.getLsbD i && (reg.msb ^^ value x y b))) := by
    cases g.getLsbD i with
    | true => rw [if_pos rfl, xor, xor, out, Bool.true_and]
    | false => rw [if_neg Bool.false_ne_true, Bool.false_and, Bool.xor_false]
  constructor
  · rw [shiftMasks, List.length_zipWith, List.length_map, List.length_range, List.length_cons, List.length_dropLast,
      held.length]
    omega
  · intro i inside
    rw [getLsbD_shift g reg _ inside, shiftMasks, List.getElem?_zipWith, List.getElem?_map,
      List.getElem?_range inside, Option.map_some]
    cases i with
    | zero =>
      rw [List.getElem?_cons_zero]
      exact congrArg some ((bit 0 0).trans (by rw [value, selected_zero]; rfl))
    | succ i =>
      obtain ⟨m, before, same⟩ := Option.map_eq_some_iff.mp (held.bits i (by omega))
      rw [List.getElem?_cons_succ, List.getElem?_dropLast, if_pos (by rw [held.length]; omega), before]
      exact congrArg some ((bit (i + 1) m).trans (by rw [same]; rfl))

/-- The register starts with the first input, and the lowest `n` bits of the second come in. -/
def divideMasks (gs : List Bool) : ℕ → List ℕ
  | 0 => (List.range gs.length).map fun i => Term.mask (.c i)
  | n + 1 => shiftMasks gs (divideMasks gs n) (Term.mask (.d n))

theorem represents_divideMasks (pos : 0 < w) (g x : BitVec w) (y : BitVec v) (n : ℕ) :
    Represents x y (divideMasks ((List.range w).map g.getLsbD) n) (divide g x ((List.range n).map y.getLsbD)) := by
  induction n with
  | zero =>
    rw [divideMasks, List.length_map, List.length_range]
    constructor
    · rw [List.length_map, List.length_range]
    · intro i inside
      rw [List.getElem?_map, List.getElem?_range inside, Option.map_some, Option.map_some, Term.value_mask]
      rfl
  | succ n ih =>
    have next := ih.shift pos g (Term.mask (.d n))
    rw [Term.value_mask] at next
    rw [divideMasks, List.range_succ, List.map_append, divide_append]
    exact next

/-- **A network whose terms are the forms of the register divides.** -/
theorem network_eq_divide (pos : 0 < w) {g : BitVec w} {rows : List (List Term)} {n : ℕ}
    (same : rows.map maskOf = divideMasks ((List.range w).map g.getLsbD) n) (x : BitVec w) (y : BitVec v) :
    network w rows x y = divide g x ((List.range n).map y.getLsbD) := by
  apply BitVec.eq_of_getLsbD_eq
  intro i inside
  have bit := (represents_divideMasks pos g x y n).bits i inside
  rw [← same, List.getElem?_map, Option.map_map] at bit
  obtain ⟨terms, row, here⟩ := Option.map_eq_some_iff.mp bit
  rw [getLsbD_network rows x y inside, List.getElem?_map, row, Option.map_some, Option.getD_some, ← here]
  exact (value_maskOf x y terms).symm

end Zcu102.Sim
