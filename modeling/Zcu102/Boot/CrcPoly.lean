import Zcu102.Boot.Crc16
import Zcu102.Sim.Crc

/-!
# The sector CRC as a remainder

The register of `crc16` divides by `X^16 + X^12 + X^5 + 1`, so what `crc16_round`
leaves of a message is a remainder of its polynomial, and a message followed by its own
CRC, high byte first, leaves nothing.
-/

namespace Zcu102.Boot
set_option autoImplicit false
open Sim Polynomial

/-- The byte of a CRC that is sent first. -/
def highByte (crc : BitVec 16) : Byte := (crc >>> 8).setWidth 8

def lowByte (crc : BitVec 16) : Byte := crc.setWidth 8

theorem generator_crc16 : generator (0x1021 : BitVec 16) = X ^ 16 + X ^ 12 + X ^ 5 + 1 := by
  have tail : poly (0x1021 : BitVec 16) = X ^ 12 + X ^ 5 + 1 := by
    simp [poly, Finset.sum_range_succ, coefficient]
    ring
  rw [generator, tail]
  ring

theorem messageBits_pair (hi lo : Byte) : messageBits [hi, lo] = bitsOf (hi ++ lo) :=
  (bitsOf_append hi lo).symm

theorem high_low (crc : BitVec 16) : highByte crc ++ lowByte crc = crc := by
  apply BitVec.eq_of_getLsbD_eq
  intro i bound
  rw [BitVec.getLsbD_append]
  by_cases low : i < 8
  · simp [low, lowByte]
  · simp [low, highByte, show i - 8 < 8 by omega, show 8 + (i - 8) = i by omega]

theorem poly_crc16 (data : List Byte) :
    poly (crc16 data) = (ofBits (messageBits data) * X ^ 16) %ₘ (X ^ 16 + X ^ 12 + X ^ 5 + 1) := by
  have left := poly_divide (0x1021 : BitVec 16) 0 (messageBits data)
  rw [poly_zero, zero_mul, zero_add, generator_crc16] at left
  rw [← foldl_crc16Round, foldl_serial]
  exact left

/-- **`crc16_round` computes remainders**: of the message moved up by 16, with the shift register from every start
value, and to zero with the CRC behind the message. -/
theorem crc16_round_remainder (data : List Byte) :
    poly (data.foldl crc16Round 0) = (ofBits (messageBits data) * X ^ 16) %ₘ (X ^ 16 + X ^ 12 + X ^ 5 + 1) ∧
      (∀ reg, data.foldl crc16Round reg = (messageBits data).foldl crcBit reg) ∧
      ∀ reg, (data ++ [highByte (data.foldl crc16Round reg), lowByte (data.foldl crc16Round reg)]).foldl
        crc16Round reg = 0 := by
  refine ⟨?_, fun reg => foldl_serial data reg, ?_⟩
  · rw [foldl_crc16Round, poly_crc16]
  · intro reg
    rw [List.foldl_append, foldl_serial [_, _], messageBits_pair, high_low]
    have odd : (0x1021 : BitVec 16).getLsbD 0 = true := rfl
    exact (divide_bitsOf_iff odd _ _).mpr rfl

end Zcu102.Boot
