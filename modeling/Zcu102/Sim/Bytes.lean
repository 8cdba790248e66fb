import Zcu102.Sim.Crc

/-!
# Words as bytes

The bytes of a word from the lowest one up, how they go through slices and
concatenations, and the bits of a byte string in the order of a serial line, lowest bit
of each byte first.
-/

namespace Zcu102.Sim
set_option autoImplicit false

variable {v w : ℕ}

/-- Byte `i` of a word, counted from the lowest. -/
def byteAt (x : BitVec w) (i : ℕ) : BitVec 8 := x.extractLsb' (8 * i) 8

/-- The lowest `n` bytes. -/
def bytes (n : ℕ) (x : BitVec w) : List (BitVec 8) := (List.range n).map (byteAt x)

@[simp] theorem length_bytes (n : ℕ) (x : BitVec w) : (bytes n x).length = n := by
  rw [bytes, List.length_map, List.length_range]

theorem getLsbD_byteAt (x : BitVec w) (i j : ℕ) :
    (byteAt x i).getLsbD j = (decide (j < 8) && x.getLsbD (8 * i + j)) := BitVec.getLsbD_extractLsb' (8 * i) 8 x j

theorem byteAt_append (x : BitVec v) (y : BitVec w) (i : ℕ) (whole : w % 8 = 0) :
    byteAt (x ++ y) i = if i < w / 8 then byteAt y i else byteAt x (i - w / 8) := by
  split
  case isTrue low =>
    have inside : 8 * i + 8 ≤ w := by omega
    exact BitVec.extractLsb'_append_eq_of_add_le inside
  case isFalse high =>
    have past : w ≤ 8 * i := by omega
    have start : 8 * i - w = 8 * (i - w / 8) := by omega
    rw [byteAt, byteAt, BitVec.extractLsb'_append_eq_of_le past, start]

theorem byteAt_extract (x : BitVec w) (k n i : ℕ) (whole : k % 8 = 0) (inside : i < n / 8) :
    byteAt (x.extractLsb' k n) i = byteAt x (k / 8 + i) := by
  apply BitVec.eq_of_getLsbD_eq
  intro j less
  have bound : 8 * i + j < n := by omega
  have place : k + (8 * i + j) = 8 * (k / 8 + i) + j := by omega
  rw [getLsbD_byteAt, getLsbD_byteAt, BitVec.getLsbD_extractLsb', decide_eq_true bound, Bool.true_and, place]

theorem bytes_take (x : BitVec w) {k n : ℕ} (le : k ≤ n) : (bytes n x).take k = bytes k x := by
  rw [bytes, bytes, ← List.map_take, List.take_range, Nat.min_eq_left le]

theorem bytes_drop (x : BitVec w) (k n : ℕ) : (bytes (k + n) x).drop k = (List.range n).map fun i => byteAt x (k + i) := by
  rw [bytes, List.range_add, List.map_append, List.map_map, List.drop_left' (by rw [List.length_map, List.length_range])]
  rfl

/-- The low word comes first. -/
theorem bytes_append (m n : ℕ) (x : BitVec v) (y : BitVec w) (whole : w = 8 * m) :
    bytes (m + n) (x ++ y) = bytes m y ++ bytes n x := by
  have size : w / 8 = m := by omega
  rw [bytes, bytes, bytes, List.range_add, List.map_append, List.map_map]
  congr 1
  · apply List.map_congr_left
    intro i inside
    rw [byteAt_append x y i (by omega), size, if_pos (List.mem_range.mp inside)]
  · apply List.map_congr_left
    intro i _
    rw [Function.comp_apply, byteAt_append x y _ (by omega), size, if_neg (by omega), Nat.add_sub_cancel_left]

/-- A slice of whole bytes. -/
theorem bytes_extract (k n : ℕ) (x : BitVec w) {p q : ℕ} (start : p = 8 * k) (size : q = 8 * n) (m : ℕ) (le : k + n ≤ m) :
    bytes n (x.extractLsb' p q) = ((bytes m x).drop k).take n := by
  obtain ⟨more, rfl⟩ := Nat.exists_eq_add_of_le le
  rw [Nat.add_assoc, bytes_drop, ← List.map_take, List.take_range, Nat.min_eq_left (Nat.le_add_right n more), bytes]
  apply List.map_congr_left
  intro i inside
  have bound := List.mem_range.mp inside
  have place : p / 8 = k := by omega
  rw [byteAt_extract x p q i (by omega) (by omega), place]

/-- The bytes determine the word. -/
theorem bytes_inj {n : ℕ} {x y : BitVec w} (whole : w = 8 * n) (same : bytes n x = bytes n y) : x = y := by
  apply BitVec.eq_of_getLsbD_eq
  intro i less
  have inside : i / 8 ∈ List.range n := List.mem_range.mpr (by omega)
  have here : byteAt x (i / 8) = byteAt y (i / 8) := List.map_inj_left.mp same _ inside
  have place : 8 * (i / 8) + i % 8 = i := Nat.div_add_mod i 8
  have bit := congrArg (fun b => BitVec.getLsbD b (i % 8)) here
  simpa only [getLsbD_byteAt, place, decide_eq_true (Nat.mod_lt i (by decide : 0 < 8)), Bool.true_and] using bit

/-- The bits of a string of bytes, the lowest bit of each first. -/
def serial (bs : List (BitVec 8)) : List Bool := bs.flatMap fun b => (List.range 8).map b.getLsbD

@[simp] theorem serial_append (bs bs' : List (BitVec 8)) : serial (bs ++ bs') = serial bs ++ serial bs' :=
  List.flatMap_append

theorem serial_cons (b : BitVec 8) (bs : List (BitVec 8)) :
    serial (b :: bs) = (List.range 8).map b.getLsbD ++ serial bs := rfl

@[simp] theorem length_serial (bs : List (BitVec 8)) : (serial bs).length = 8 * bs.length := by
  rw [serial, List.length_flatMap]
  simp [Nat.mul_comm]

/-- The bits of a word, on the line. -/
theorem serial_bytes (n : ℕ) (x : BitVec w) : serial (bytes n x) = (List.range (8 * n)).map x.getLsbD := by
  induction n with
  | zero => rfl
  | succ n ih =>
    have last : (List.range 8).map (byteAt x n).getLsbD = (List.range 8).map fun j => x.getLsbD (8 * n + j) := by
      apply List.map_congr_left
      intro j inside
      rw [getLsbD_byteAt, decide_eq_true (List.mem_range.mp inside), Bool.true_and]
    have more : bytes (n + 1) x = bytes n x ++ [byteAt x n] := by
      rw [bytes, List.range_succ, List.map_append]
      rfl
    rw [more, serial_append, ih, Nat.mul_succ, List.range_add, List.map_append, List.map_map]
    exact congrArg _ last

end Zcu102.Sim
