import Zcu102.Nfmac.Crc32

/-!
# The line

The XGMII carries eight lanes a cycle, each a byte with a flag that tells control
characters from data (`xgmii_includes.vh`). On it a frame is a start character, the rest
of the preamble, the bytes of the frame, its check sequence and a terminate character,
with idle characters between frames.
-/

namespace Zcu102.Nfmac
set_option autoImplicit false
open Zcu102.Sim

/-! ## Characters -/

def charS : Byte := 0xfb#8
def charT : Byte := 0xfd#8
def charE : Byte := 0xfe#8
def charI : Byte := 0x07#8

def preambleLane0D : BitVec 64 := 0xd5555555555555#56 ++ charS
def preambleLane0C : BitVec 8 := 0x01#8
def preambleLane4D : BitVec 64 := 0x555555#24 ++ charS ++ charI ++ charI ++ charI ++ charI
def preambleLane4C : BitVec 8 := 0x1f#8
def preambleLane4EndD : BitVec 32 := 0xd5555555#32
def preambleLane4EndC : BitVec 8 := 0#8
def qwIdleD : BitVec 64 := charI ++ charI ++ charI ++ charI ++ charI ++ charI ++ charI ++ charI
def qwIdleC : BitVec 8 := 0xff#8

def sofLane0 (xgmiiD : BitVec 64) (xgmiiC : BitVec 8) : Bool :=
  xgmiiD.extractLsb' 0 8 == charS && xgmiiC.getLsbD 0

def sofLane4 (xgmiiD : BitVec 64) (xgmiiC : BitVec 8) : Bool :=
  xgmiiD.extractLsb' 32 8 == charS && xgmiiC.getLsbD 4

def isTchar (bytez : Byte) : Bool := bytez == charT

/-! ## Lanes -/

/-- What a lane carries. -/
inductive Symbol
  | data (b : Byte)
  | control (b : Byte)
  deriving DecidableEq

def lane (d : BitVec 64) (c : BitVec 8) (i : ℕ) : Symbol :=
  if c.getLsbD i then .control (byteAt d i) else .data (byteAt d i)

/-- The eight lanes in the order of the line. -/
def lanes (d : BitVec 64) (c : BitVec 8) : List Symbol := (List.range 8).map (lane d c)

@[simp] theorem length_lanes (d : BitVec 64) (c : BitVec 8) : (lanes d c).length = 8 := by
  rw [lanes, List.length_map, List.length_range]

theorem lanes_data (d : BitVec 64) : lanes d 0#8 = (bytes 8 d).map .data := rfl

/-- Data in the lower lanes and control characters in the upper ones. -/
theorem lanes_control (m n : ℕ) (d : BitVec 64) (c : BitVec 8) (whole : m + n = 8)
    (low : ∀ i < m, c.getLsbD i = false) (high : ∀ i < n, c.getLsbD (m + i) = true) {ds cs : List Byte}
    (split : bytes (m + n) d = ds ++ cs) (size : ds.length = m) :
    lanes d c = ds.map .data ++ cs.map .control := by
  rw [bytes, List.range_add, List.map_append] at split
  obtain ⟨first, second⟩ := List.append_inj split (by rw [List.length_map, List.length_range, size])
  rw [lanes, ← whole, List.range_add, List.map_append, ← first, ← second, List.map_map, List.map_map]
  congr 1
  · apply List.map_congr_left
    intro i inside
    rw [lane, low i (List.mem_range.mp inside), if_neg Bool.false_ne_true]
    rfl
  · simp only [List.map_map]
    apply List.map_congr_left
    intro i inside
    simp only [Function.comp_apply, lane, high i (List.mem_range.mp inside), if_true]

def Symbol.byte : Symbol → Byte
  | .data b => b
  | .control b => b

def Symbol.isControl : Symbol → Bool
  | .data _ => false
  | .control _ => true

theorem byte_lane (d : BitVec 64) (c : BitVec 8) (i : ℕ) : (lane d c i).byte = byteAt d i := by
  rw [lane]
  split <;> rfl

theorem isControl_lane (d : BitVec 64) (c : BitVec 8) (i : ℕ) : (lane d c i).isControl = c.getLsbD i := by
  rw [lane]
  cases c.getLsbD i <;> rfl

theorem bytes_of_lanes {d : BitVec 64} {c : BitVec 8} {xs : List Symbol} (same : lanes d c = xs) :
    bytes 8 d = xs.map Symbol.byte := by
  rw [← same, lanes, List.map_map]
  exact List.map_congr_left fun i _ => (byte_lane d c i).symm

/-- The flags of the lanes, as a list. -/
theorem controls_of_lanes {d : BitVec 64} {c : BitVec 8} {xs : List Symbol} (same : lanes d c = xs) :
    (List.range 8).map c.getLsbD = xs.map Symbol.isControl := by
  rw [← same, lanes, List.map_map]
  exact List.map_congr_left fun i _ => (isControl_lane d c i).symm

/-- The flags determine the control word. -/
theorem controls_inj {c c' : BitVec 8} (same : (List.range 8).map c.getLsbD = (List.range 8).map c'.getLsbD) :
    c = c' := by
  apply BitVec.eq_of_getLsbD_eq
  intro i less
  exact List.map_inj_left.mp same i (List.mem_range.mpr less)

/-! ## Frames on the line -/

def idles (n : ℕ) : List Symbol := List.replicate n (.control charI)

theorem idles_add (m n : ℕ) : idles (m + n) = idles m ++ idles n := List.replicate_add m n _

def preamble : List Symbol := .control charS :: (List.replicate 6 (.data 0x55#8) ++ [.data 0xd5#8])

/-- A frame body as sent: whatever follows the preamble up to the terminate character. -/
def framed (body : List Byte) : List Symbol := preamble ++ body.map .data ++ [.control charT]

/-- A frame and the idle characters after it. -/
structure Sent where
  body : List Byte
  gap : ℕ

def line (sent : List Sent) : List Symbol := sent.flatMap fun x => framed x.body ++ idles x.gap

/-- Frames start in lane 0 or 4, and so do the words between them. -/
def Sent.Aligned (x : Sent) : Prop := (8 + x.body.length + 1 + x.gap) % 4 = 0

end Zcu102.Nfmac
