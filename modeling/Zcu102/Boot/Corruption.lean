import Zcu102.Boot.Copy
import Zcu102.Boot.CrcPoly

/-!
# Corrupted sectors

The check of `copy` compares the CRC of the data with the one that follows it. With an
error added to a sector and its CRC the register ends at the remainder of the error
alone, so the guarantees of the generator apply: `X^16 + X^12 + X^5 + 1` has a constant
term, vanishes at one, and its register stays away from one for longer than a sector.
-/

namespace Zcu102.Boot
set_option autoImplicit false
open Sim Sim.Prog Polynomial

/-- A sector and its CRC, as they are sent. -/
def framed (sector : List Byte) : List Byte := sector ++ [highByte (crc16 sector), lowByte (crc16 sector)]

/-- Bytes received with an error. -/
def corrupted (sent error : List Byte) : List Byte := List.zipWith (· ^^^ ·) sent error

/-- A burst of at most 16 bits, two flipped bits, or an odd number of them. -/
inductive Detectable : List Bool → Prop
  | burst {before flips after : List Bool} :
      true ∉ before → true ∉ after → flips.length ≤ 16 → true ∈ flips → Detectable (before ++ flips ++ after)
  | double {bits : List Bool} : bits.count true = 2 → Detectable bits
  | odd {bits : List Bool} : Odd (bits.count true) → Detectable bits

/-! ## The generator of the check -/

theorem generator_odd : (0x1021 : BitVec 16).getLsbD 0 = true := rfl

theorem generator_root : (generator (0x1021 : BitVec 16)).eval 1 = 0 := by
  rw [generator_crc16]
  simp only [eval_add, eval_pow, eval_X, eval_one, one_pow]
  decide

/-- The 4112 bits of a sector and its CRC are fewer than the register needs to come back. -/
theorem stays_away : away (0x1021 : BitVec 16) 4111 1 = true := by decide +kernel

theorem Detectable.caught {bits : List Bool} (length : bits.length ≤ 4112) (pattern : Detectable bits) :
    divide (0x1021 : BitVec 16) 0 bits ≠ 0 := by
  cases pattern with
  | burst before after short flips => exact divide_burst generator_odd before after short flips
  | double two => exact divide_double generator_odd stays_away length two
  | odd count => exact divide_odd generator_root count

/-! ## The check -/

theorem msbFirst_xor (a b : Byte) : msbFirst (a ^^^ b) = List.zipWith xor (msbFirst a) (msbFirst b) := by
  unfold msbFirst
  generalize List.range 8 = l
  induction l with
  | nil => rfl
  | cons i l ih => rw [List.map_cons, List.map_cons, List.map_cons, List.zipWith_cons_cons, ih, BitVec.getMsbD_xor]

theorem messageBits_corrupted (sent error : List Byte) :
    messageBits (corrupted sent error) = List.zipWith xor (messageBits sent) (messageBits error) := by
  have bytes (a b : Byte) : (msbFirst a).length = (msbFirst b).length := by
    rw [msbFirst, msbFirst, List.length_map, List.length_map]
  induction sent generalizing error with
  | nil => rfl
  | cons a sent ih =>
    cases error with
    | nil => simp [corrupted, messageBits]
    | cons b error =>
      have rest := ih error
      rw [corrupted, messageBits] at rest
      rw [corrupted, List.zipWith_cons_cons, messageBits, messageBits, messageBits, List.flatMap_cons, List.flatMap_cons,
        List.flatMap_cons, List.zipWith_append (bytes a b), msbFirst_xor, rest]
      rfl

theorem divide_messageBits (data : List Byte) : divide (0x1021 : BitVec 16) 0 (messageBits data) = crc16 data :=
  (foldl_serial data 0).symm.trans (foldl_crc16Round data)

theorem divide_framed (sector : List Byte) : divide (0x1021 : BitVec 16) 0 (messageBits (framed sector)) = 0 := by
  rw [framed, messageBits_append, divide_append, divide_messageBits, messageBits_pair, high_low,
    divide_bitsOf_iff generator_odd]

/-- Only the error is left in the register. -/
theorem divide_corrupted {sector error : List Byte} (same : (framed sector).length = error.length) :
    divide (0x1021 : BitVec 16) 0 (messageBits (corrupted (framed sector) error)) =
      divide (0x1021 : BitVec 16) 0 (messageBits error) := by
  have lengths : (messageBits (framed sector)).length = (messageBits error).length := by
    rw [length_messageBits, length_messageBits, same]
  have zero (v : BitVec 16) : 0 ^^^ v = v := BitVec.zero_xor
  have sum := divide_xor (0x1021 : BitVec 16) 0 0 lengths
  rwa [divide_framed, zero, zero, ← messageBits_corrupted] at sum

theorem crc_differs_iff {data : List Byte} {hi lo : Byte} :
    crc16 data ≠ hi ++ lo ↔ divide (0x1021 : BitVec 16) 0 (messageBits (data ++ [hi, lo])) ≠ 0 := by
  rw [messageBits_append, divide_append, divide_messageBits, messageBits_pair, Ne, Ne, divide_bitsOf_iff generator_odd]

/-- **A corrupted sector is caught**: with a burst of at most 16 bits, two flipped bits or an odd number of them
anywhere in a sector and its CRC, the comparison of `copy` finds a mismatch. -/
theorem corruption_caught {sector error : List Byte} (size : sector.length = sectorSizeB)
    (errors : error.length = sectorSizeB + 2) (pattern : Detectable (messageBits error)) {filler : List Byte}
    (absent : 0xFE ∉ filler) (p : ℕ) :
    Reads (copySector p) (filler ++ 0xFE :: corrupted (framed sector) error) (p + sectorSizeB, true) := by
  have sent : (framed sector).length = sectorSizeB + 2 := by
    rw [framed, List.length_append, size]
    rfl
  have arrived : (corrupted (framed sector) error).length = sectorSizeB + 2 := by
    rw [corrupted, List.length_zipWith, sent, errors, Nat.min_self]
  have bits : (messageBits error).length ≤ 4112 := by
    rw [length_messageBits, errors]
    decide
  have left := pattern.caught bits
  rw [← divide_corrupted (sent.trans errors.symm)] at left
  -- the last two bytes that arrive are taken for the CRC
  obtain ⟨hi, lo, crc⟩ := List.length_eq_two.mp (by rw [List.length_drop, arrived, Nat.add_sub_cancel_left] :
    ((corrupted (framed sector) error).drop sectorSizeB).length = 2)
  have split := List.take_append_drop sectorSizeB (corrupted (framed sector) error)
  rw [crc] at split
  rw [← split] at left ⊢
  have data : ((corrupted (framed sector) error).take sectorSizeB).length = sectorSizeB := by
    rw [List.length_take, arrived]
    decide
  have reads := Sector.reads ⟨filler, hi, lo, rfl, absent, data, rfl⟩ p
  rwa [bne_iff_ne.mpr (crc_differs_iff.mpr left)] at reads

/-- The first bit of a sector of zeros, flipped. -/
theorem corruption_caught_first :
    Reads (copySector payloadDest)
      ([] ++ 0xFE :: corrupted (framed (List.replicate 512 0)) (0x80 :: List.replicate 513 0))
      (payloadDest + sectorSizeB, true) :=
  corruption_caught List.length_replicate (by rw [List.length_cons, List.length_replicate]; rfl)
    (.odd (by decide +kernel)) List.not_mem_nil payloadDest

end Zcu102.Boot
