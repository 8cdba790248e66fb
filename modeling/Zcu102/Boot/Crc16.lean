import Zcu102.Boot.Sd
import Zcu102.Sim.Division

/-!
# The sector CRC

`crc16` is the bit-serial register for `x^16 + x^12 + x^5 + 1`, bits taken most
significant first from a zero register. The byte step of `sd.c` replaces eight
of its steps by a byte swap and three self-referential xors
(`crc16Round_serial`). Both sides are linear over xor, so they agree once they
agree on each single bit of the data and of the register.
-/

namespace Zcu102.Boot
set_option autoImplicit false
open Sim

/-- One step of the shift register. -/
def crcBit (reg : BitVec 16) (b : Bool) : BitVec 16 :=
  if reg.msb ^^ b then (reg <<< 1) ^^^ 0x1021 else reg <<< 1

/-- The bits of a byte, most significant first. -/
def msbFirst (d : Byte) : List Bool := (List.range 8).map d.getMsbD

/-- Eight steps of the shift register. -/
def crcByte (reg : BitVec 16) (d : Byte) : BitVec 16 := (msbFirst d).foldl crcBit reg

/-- The CRC16 of a message. -/
def crc16 (data : List Byte) : BitVec 16 := data.foldl crcByte 0

theorem xor_and {n : ℕ} (a b c : BitVec n) : (a ^^^ b) &&& c = (a &&& c) ^^^ (b &&& c) := by
  apply BitVec.eq_of_getLsbD_eq
  intro i hi
  simp only [BitVec.getLsbD_and, BitVec.getLsbD_xor]
  cases c.getLsbD i <;> simp

theorem crcBit_xor (a b : BitVec 16) (x y : Bool) :
    crcBit (a ^^^ b) (x ^^ y) = crcBit a x ^^^ crcBit b y := shift_xor 0x1021 a b x y

theorem crcByte_xor (a b : BitVec 16) (c d : Byte) :
    crcByte (a ^^^ b) (c ^^^ d) = crcByte a c ^^^ crcByte b d := by
  unfold crcByte msbFirst
  generalize List.range 8 = l
  induction l generalizing a b with
  | nil => rfl
  | cons i l ih =>
    simp only [List.map_cons, List.foldl_cons]
    rw [BitVec.getMsbD_xor, crcBit_xor, ih]

/-! The assignments of `crc16_round`, each linear. -/

def swapBytes (crc : BitVec 16) : BitVec 16 :=
  (((crc.setWidth 32 >>> 8).setWidth 8).setWidth 32 ||| (crc.setWidth 32 <<< 8)).setWidth 16

def foldNibble (crc : BitVec 16) : BitVec 16 :=
  crc ^^^ (((crc.setWidth 32 >>> 4).setWidth 8).setWidth 32 &&& 0xf).setWidth 16

def foldTop (crc : BitVec 16) : BitVec 16 := crc ^^^ (crc.setWidth 32 <<< 12).setWidth 16

def foldLow (crc : BitVec 16) : BitVec 16 := crc ^^^ ((crc.setWidth 32 &&& 0xff) <<< 5).setWidth 16

theorem crc16Round_stages (crc : BitVec 16) (d : Byte) :
    crc16Round crc d = foldLow (foldTop (foldNibble (swapBytes crc ^^^ (d.setWidth 32).setWidth 16))) :=
  rfl

theorem swapBytes_eq (crc : BitVec 16) : swapBytes crc = (crc >>> 8) ^^^ (crc <<< 8) := by
  apply BitVec.eq_of_getLsbD_eq
  intro i hi
  by_cases low : i < 8
  · have high : i < 32 := by omega
    simp [swapBytes, low, hi]
    omega
  · have past : crc.getLsbD (8 + i) = false := BitVec.getLsbD_of_ge _ _ (by omega)
    simp [swapBytes, low, hi, past]

theorem swapBytes_xor (a b : BitVec 16) : swapBytes (a ^^^ b) = swapBytes a ^^^ swapBytes b := by
  simp only [swapBytes_eq, BitVec.ushiftRight_xor_distrib, BitVec.shiftLeft_xor_distrib]
  exact xor_pairs _ _ _ _

theorem foldNibble_xor (a b : BitVec 16) : foldNibble (a ^^^ b) = foldNibble a ^^^ foldNibble b := by
  simp only [foldNibble, BitVec.setWidth_xor, BitVec.ushiftRight_xor_distrib, xor_and]
  exact xor_pairs _ _ _ _

theorem foldTop_xor (a b : BitVec 16) : foldTop (a ^^^ b) = foldTop a ^^^ foldTop b := by
  simp only [foldTop, BitVec.setWidth_xor, BitVec.shiftLeft_xor_distrib]
  exact xor_pairs _ _ _ _

theorem foldLow_xor (a b : BitVec 16) : foldLow (a ^^^ b) = foldLow a ^^^ foldLow b := by
  simp only [foldLow, BitVec.setWidth_xor, BitVec.shiftLeft_xor_distrib, xor_and]
  exact xor_pairs _ _ _ _

theorem crc16Round_xor (a b : BitVec 16) (c d : Byte) :
    crc16Round (a ^^^ b) (c ^^^ d) = crc16Round a c ^^^ crc16Round b d := by
  rw [crc16Round_stages, crc16Round_stages, crc16Round_stages, swapBytes_xor, BitVec.setWidth_xor,
    BitVec.setWidth_xor, xor_pairs, foldNibble_xor, foldTop_xor, foldLow_xor]

/-! Agreement on the data and on the register, bit by bit. -/

theorem round_data (d : Byte) : crc16Round 0#16 d = crcByte 0#16 d := by
  apply xor_ext (f := crc16Round 0#16) (g := crcByte 0#16)
  · intro a b
    exact crc16Round_xor 0#16 0#16 a b
  · intro a b
    exact crcByte_xor 0#16 0#16 a b
  · decide

theorem round_register (reg : BitVec 16) : crc16Round reg 0#8 = crcByte reg 0#8 := by
  apply xor_ext (f := fun reg => crc16Round reg 0#8) (g := fun reg => crcByte reg 0#8)
  · intro a b
    exact crc16Round_xor a b 0#8 0#8
  · intro a b
    exact crcByte_xor a b 0#8 0#8
  · decide

/-- **The byte step of `sd.c` is eight steps of the shift register.** -/
theorem crc16Round_serial (reg : BitVec 16) (d : Byte) : crc16Round reg d = crcByte reg d := by
  have register : reg = reg ^^^ 0#16 := BitVec.xor_zero.symm
  have data : d = 0#8 ^^^ d := BitVec.zero_xor.symm
  rw [register, data, crc16Round_xor, crcByte_xor, round_register, round_data]

/-- The bits of a message. -/
def messageBits (data : List Byte) : List Bool := data.flatMap msbFirst

theorem messageBits_append (data data' : List Byte) :
    messageBits (data ++ data') = messageBits data ++ messageBits data' := List.flatMap_append

theorem length_messageBits (data : List Byte) : (messageBits data).length = 8 * data.length := by
  induction data with
  | nil => rfl
  | cons d data ih =>
    have byte : (msbFirst d).length = 8 := by rw [msbFirst, List.length_map, List.length_range]
    rw [messageBits, List.flatMap_cons, List.length_append, byte, List.length_cons]
    rw [messageBits] at ih
    omega

theorem foldl_serial (data : List Byte) (reg : BitVec 16) :
    data.foldl crc16Round reg = (messageBits data).foldl crcBit reg := by
  induction data generalizing reg with
  | nil => rfl
  | cons d data ih => rw [List.foldl_cons, ih, crc16Round_serial, crcByte, messageBits, messageBits, List.flatMap_cons,
      List.foldl_append]

theorem foldl_crc16Round (data : List Byte) : data.foldl crc16Round 0 = crc16 data := by
  have same : crc16Round = crcByte := funext fun reg => funext fun d => crc16Round_serial reg d
  rw [same]
  rfl

end Zcu102.Boot
