import Zcu102.Nfmac.Gap

/-!
# Padding

`padding_ctrl.v` stands in front of `axis2xgmii`: it clears the unused bytes of the last
beat, adds zero beats until a frame has sixty bytes, and holds the stream off between
frames. It never looks at the `tready` of the module behind it while a frame goes
through; instead it knows how many cycles that module takes after a last beat, from the
lane the frame started in, the deficit idle count and the bytes of the last beat.
-/

namespace Zcu102.Nfmac
set_option autoImplicit false
open Zcu102.Sim

/-! ## The model -/

namespace PaddingCtrl

inductive Fsm
  | sres | idle | st | padChk | w3 | w2 | errWLast
  deriving DecidableEq

end PaddingCtrl

/-- The registers of the module. -/
structure PaddingCtrl where
  fsm : PaddingCtrl.Fsm
  trn : BitVec 5
  sAxisTready : Bool
  mAxisTdata : BitVec 64
  mAxisTkeep : BitVec 8
  mAxisTvalid : Bool
  mAxisTlast : Bool
  mAxisTuser : Bool
  mAxisTdataD0 : BitVec 64
  mAxisTvalidD0 : Bool
  lastTkeep : BitVec 8

/-- What the module reads from the one behind it. -/
structure Feedback where
  mAxisTready : Bool
  lane4Start : Bool
  dic : BitVec 2

namespace PaddingCtrl

/-- The stream port towards `axis2xgmii`. -/
def mAxis (s : PaddingCtrl) : Axis :=
  { tdata := s.mAxisTdata, tkeep := s.mAxisTkeep, tvalid := s.mAxisTvalid, tlast := s.mAxisTlast,
    tuser := s.mAxisTuser }

/-- The data and the enables of a last beat. Without any enable nothing is assigned. -/
def lastBeat (s : PaddingCtrl) (i : Axis) : BitVec 64 × BitVec 8 :=
  if i.tkeep.getLsbD 7 then (i.tdata, 0xff#8)
  else if i.tkeep.getLsbD 6 then (0#8 ++ i.tdata.extractLsb' 0 56, 0x7f#8)
  else if i.tkeep.getLsbD 5 then (0#16 ++ i.tdata.extractLsb' 0 48, 0x3f#8)
  else if i.tkeep.getLsbD 4 then (0#24 ++ i.tdata.extractLsb' 0 40, 0x1f#8)
  else if i.tkeep.getLsbD 3 then (0#32 ++ i.tdata.extractLsb' 0 32, 0x0f#8)
  else if i.tkeep.getLsbD 2 then (0#40 ++ i.tdata.extractLsb' 0 24, 0x07#8)
  else if i.tkeep.getLsbD 1 then (0#48 ++ i.tdata.extractLsb' 0 16, 0x03#8)
  else if i.tkeep.getLsbD 0 then (0#56 ++ i.tdata.extractLsb' 0 8, 0x01#8)
  else (i.tdata, s.lastTkeep)

/-- The beat counter: four bits, and a fifth that stays once there are more than eight. -/
def count (trn : BitVec 5) : BitVec 5 :=
  (if trn.getLsbD 3 then 1#1 else trn.extractLsb' 4 1) ++
    (if trn.getLsbD 4 then trn.extractLsb' 0 4 else trn.extractLsb' 0 4 + 1#4)

/-- Bit `i` is the highest of the enables. -/
def ends (lastTkeep : BitVec 8) (i : ℕ) : Bool := !lastTkeep.getLsbD (i + 1) && lastTkeep.getLsbD i

/-- The patterns of `PAD_CHK` that go to `W2` and leave the enables as they are. -/
def waitsTwo (lane4Start : Bool) (dic : BitVec 2) (lastTkeep : BitVec 8) (many : Bool) : Bool :=
  -- L0
  (!lane4Start && dic == 0#2 && ends lastTkeep 6) ||
  (!lane4Start && dic == 0#2 && ends lastTkeep 5) || (!lane4Start && dic == 1#2 && ends lastTkeep 5) ||
  (!lane4Start && dic == 0#2 && ends lastTkeep 4) || (!lane4Start && dic == 1#2 && ends lastTkeep 4) ||
  (!lane4Start && dic == 2#2 && ends lastTkeep 4) || (!lane4Start && !lastTkeep.getLsbD 4 && many) ||
  -- L4
  (lane4Start && dic == 0#2 && ends lastTkeep 2 && many) ||
  (lane4Start && dic == 0#2 && ends lastTkeep 1 && many) || (lane4Start && dic == 1#2 && ends lastTkeep 1 && many) ||
  (lane4Start && dic == 0#2 && ends lastTkeep 0 && many) || (lane4Start && dic == 1#2 && ends lastTkeep 0 && many) ||
  (lane4Start && dic == 2#2 && ends lastTkeep 0 && many)

/-- The enables of the last beat and the wait after it: the `casex` of `PAD_CHK`. -/
def padded (lane4Start : Bool) (dic : BitVec 2) (lastTkeep : BitVec 8) (many : Bool) : BitVec 8 × Fsm :=
  if waitsTwo lane4Start dic lastTkeep many then (lastTkeep, .w2)
  -- 8-trn
  else if !lane4Start && !lastTkeep.getLsbD 4 && !many then (0x0f#8, .w2)
  else if !lastTkeep.getLsbD 3 && !many then (0x0f#8, .w3)
  else (lastTkeep, .w3)

/-- Not in reset: the defaults and the `case` over `fsm`. -/
def next (s : PaddingCtrl) (i : Axis) (f : Feedback) : PaddingCtrl :=
  let s' := { s with
    mAxisTdata := s.mAxisTdataD0, mAxisTvalid := s.mAxisTvalidD0, mAxisTlast := false, mAxisTuser := false }
  match s.fsm with
  | .sres => if f.mAxisTready then { s' with sAxisTready := true, fsm := .idle } else s'
  | .idle =>
    let s' := { s' with mAxisTdataD0 := i.tdata, mAxisTkeep := 0xff#8, trn := 1#5 }
    if i.tvalid then { s' with mAxisTvalidD0 := true, fsm := .st } else s'
  | .st =>
    let s' := { s' with mAxisTdataD0 := i.tdata, sAxisTready := false, trn := count s.trn, fsm := .padChk }
    if !i.tvalid then { s' with mAxisTuser := true, mAxisTvalidD0 := false, fsm := .w2 }
    else if !i.tlast && i.tuser then
      { s' with mAxisTuser := true, mAxisTvalidD0 := false, sAxisTready := true, fsm := .errWLast }
    else if i.tlast && i.tuser then { s' with mAxisTuser := true, mAxisTvalidD0 := false, fsm := .w2 }
    else if !i.tlast then { s' with sAxisTready := true, fsm := .st }
    else { s' with mAxisTdataD0 := (s.lastBeat i).1, lastTkeep := (s.lastBeat i).2 }
  | .padChk =>
    let s' := { s' with mAxisTdataD0 := 0#64, lastTkeep := 0x0f#8, trn := s.trn + 1#5 }
    if 8#5 ≤ s.trn then
      let ending := padded f.lane4Start f.dic s.lastTkeep (s.trn.getLsbD 4)
      { s' with mAxisTvalidD0 := false, mAxisTlast := true, mAxisTkeep := ending.1, fsm := ending.2 }
    else s'
  | .w3 => { s' with fsm := .w2 }
  | .w2 => { s' with sAxisTready := true, fsm := .idle }
  | .errWLast => if !i.tvalid || i.tlast then { s' with sAxisTready := false, fsm := .w2 } else s'

/-- One clock. -/
def clock (s : PaddingCtrl) (aresetn : Bool) (i : Axis) (f : Feedback) : PaddingCtrl :=
  if !aresetn then { s with sAxisTready := false, mAxisTvalid := false, fsm := .sres } else s.next i f

/-! ## A frame on its way through -/

open Axis2xgmii (keep quick one_to_eight)

/-- The lowest `k` bytes, the others cleared. -/
def fill (k : ℕ) (x : BitVec 64) : BitVec 64 := (x.setWidth (8 * k)).setWidth 64

theorem append_eq_fill (x : BitVec 64) :
    0#8 ++ x.extractLsb' 0 56 = fill 7 x ∧ 0#16 ++ x.extractLsb' 0 48 = fill 6 x ∧
      0#24 ++ x.extractLsb' 0 40 = fill 5 x ∧ 0#32 ++ x.extractLsb' 0 32 = fill 4 x ∧
      0#40 ++ x.extractLsb' 0 24 = fill 3 x ∧ 0#48 ++ x.extractLsb' 0 16 = fill 2 x ∧
      0#56 ++ x.extractLsb' 0 8 = fill 1 x := by
  refine ⟨?_, ?_, ?_, ?_, ?_, ?_, ?_⟩
  all_goals
    apply BitVec.eq_of_getLsbD_eq
    intro i inside
    rw [fill, BitVec.getLsbD_append, BitVec.getLsbD_setWidth, BitVec.getLsbD_setWidth, BitVec.getLsbD_extractLsb']
    simp [inside]

theorem byteAt_fill (k : ℕ) (x : BitVec 64) {i : ℕ} (inside : i < 8) :
    byteAt (fill k x) i = if i < k then byteAt x i else 0#8 := by
  apply BitVec.eq_of_getLsbD_eq
  intro j less
  have bound : 8 * i + j < 64 := by omega
  rw [getLsbD_byteAt, decide_eq_true less, Bool.true_and, fill, BitVec.getLsbD_setWidth, BitVec.getLsbD_setWidth,
    decide_eq_true bound, Bool.true_and]
  split
  case isTrue low =>
    have kept : 8 * i + j < 8 * k := by omega
    rw [getLsbD_byteAt, decide_eq_true less, decide_eq_true kept]
  case isFalse high =>
    have gone : ¬ 8 * i + j < 8 * k := by omega
    rw [decide_eq_false gone, Bool.false_and, BitVec.getLsbD_zero]

/-- The cleared bytes are zeros. -/
theorem bytes_fill {k : ℕ} (le : k ≤ 8) (x : BitVec 64) :
    bytes 8 (fill k x) = (bytes 8 x).take k ++ List.replicate (8 - k) 0#8 := by
  obtain ⟨m, split⟩ := Nat.exists_eq_add_of_le le
  have low : (List.range k).map (byteAt (fill k x)) = (List.range k).map (byteAt x) := by
    apply List.map_congr_left
    intro i inside
    have bound := List.mem_range.mp inside
    rw [byteAt_fill k x (by omega), if_pos bound]
  have high : (List.range m).map (fun i => byteAt (fill k x) (k + i)) = (List.range m).map fun _ => 0#8 := by
    apply List.map_congr_left
    intro i inside
    have bound := List.mem_range.mp inside
    rw [byteAt_fill k x (by omega), if_neg (by omega)]
  have size : 8 - k = m := by omega
  have range : List.range 8 = List.range k ++ (List.range m).map (k + ·) := by rw [← List.range_add, ← split]
  rw [bytes_take x le, size, bytes, bytes, range, List.map_append, List.map_map, low]
  congr 1
  apply high.trans
  rw [List.map_const', List.length_range]

theorem lastBeat_eq (s : PaddingCtrl) {i : Axis} {k : ℕ} (keeps : i.tkeep = keep k) (pos : 0 < k) (le : k ≤ 8) :
    s.lastBeat i = (fill k i.tdata, keep k) := by
  obtain ⟨seven, six, five, four, three, two, one⟩ := append_eq_fill i.tdata
  rw [lastBeat, keeps, seven, six, five, four, three, two, one]
  obtain rfl | rfl | rfl | rfl | rfl | rfl | rfl | rfl := one_to_eight pos le
  all_goals rfl

/-- The counter after `n` beats. -/
def counted (n : ℕ) : BitVec 5 := if n ≤ 8 then BitVec.ofNat 5 n else 25#5

theorem count_counted {n : ℕ} (pos : 0 < n) : count (counted n) = counted (n + 1) := by
  by_cases many : 9 ≤ n
  · have above : ¬ n ≤ 8 := by omega
    have above' : ¬ n + 1 ≤ 8 := by omega
    rw [counted, counted, if_neg above, if_neg above']
    rfl
  · have small : n ≤ 8 := by omega
    obtain rfl | rfl | rfl | rfl | rfl | rfl | rfl | rfl := one_to_eight pos small
    all_goals rfl

/-- A beat as it is presented to the module behind, but for the last. -/
def full (x : BitVec 64) : Axis := { tdata := x, tkeep := 0xff#8, tvalid := true, tlast := false, tuser := false }

/-- Waiting for a frame. -/
structure Quiet (s : PaddingCtrl) : Prop where
  fsm : s.fsm = .idle
  tready : s.sAxisTready = true
  tvalid : s.mAxisTvalid = false
  tvalidD0 : s.mAxisTvalidD0 = false

/-- `n` beats of a frame have come in, and `y` is presented next. -/
structure Taking (s : PaddingCtrl) (n : ℕ) (y : BitVec 64) : Prop where
  fsm : s.fsm = .st
  tready : s.sAxisTready = true
  trn : s.trn = counted n
  tkeep : s.mAxisTkeep = 0xff#8
  tdata : s.mAxisTdataD0 = y
  tvalid : s.mAxisTvalidD0 = true

/-- The last beat has come in and the frame has `n` beats, of which the last one, `y`, has `k` bytes. -/
structure Padding (s : PaddingCtrl) (n k : ℕ) (y : BitVec 64) : Prop where
  fsm : s.fsm = .padChk
  tready : s.sAxisTready = false
  trn : s.trn = counted n
  tkeep : s.mAxisTkeep = 0xff#8
  tdata : s.mAxisTdataD0 = y
  tvalid : s.mAxisTvalidD0 = true
  keeps : s.lastTkeep = keep k

/-- The last beat is presented. -/
structure Closing (s : PaddingCtrl) (k : ℕ) (y : BitVec 64) (two : Bool) : Prop where
  fsm : s.fsm = if two then .w2 else .w3
  tready : s.sAxisTready = false
  presents : s.mAxis = { tdata := y, tkeep := keep k, tvalid := true, tlast := true, tuser := false }
  tvalid : s.mAxisTvalidD0 = false

/-- The bytes of the last beat of a frame of `n` beats, at least eight: with eight it is filled up to sixty. -/
def atLeast (n k : ℕ) : ℕ := if n = 8 then max k 4 else k

section Steps
variable {s : PaddingCtrl} {i : Axis} {f : Feedback} {n k : ℕ} {y : BitVec 64}

theorem Quiet.idle (quiet : s.Quiet) (none : i.tvalid = false) : (s.next i f).Quiet := by
  rw [next, quiet.fsm, none]
  exact ⟨rfl, quiet.tready, quiet.tvalidD0, quiet.tvalidD0⟩

theorem Quiet.first (quiet : s.Quiet) (valid : i.tvalid = true) :
    (s.next i f).Taking 1 i.tdata ∧ (s.next i f).mAxisTvalid = false := by
  rw [next, quiet.fsm, valid]
  exact ⟨⟨rfl, quiet.tready, rfl, rfl, rfl, rfl⟩, quiet.tvalidD0⟩

theorem full_eq (tdata : s.mAxisTdataD0 = y) (tkeep : s.mAxisTkeep = 0xff#8) (tvalid : s.mAxisTvalidD0 = true) :
    { tdata := s.mAxisTdataD0, tkeep := s.mAxisTkeep, tvalid := s.mAxisTvalidD0, tlast := false, tuser := false } =
      full y := by
  rw [tdata, tkeep, tvalid, full]

theorem Taking.beat (taking : s.Taking n y) (pos : 0 < n) (valid : i.tvalid = true) (good : i.tuser = false)
    (more : i.tlast = false) : (s.next i f).Taking (n + 1) i.tdata ∧ (s.next i f).mAxis = full y := by
  obtain ⟨fsm, tready, trn, tkeep, tdata, tvalid⟩ := taking
  rw [next, fsm, valid, good, more]
  refine ⟨⟨rfl, rfl, ?_, tkeep, rfl, tvalid⟩, ?_⟩
  · rw [← count_counted pos, ← trn]
    rfl
  · exact full_eq tdata tkeep tvalid

theorem Taking.last (taking : s.Taking n y) (pos : 0 < n) (valid : i.tvalid = true) (good : i.tuser = false)
    (last : i.tlast = true) (keeps : i.tkeep = keep k) (one : 0 < k) (le : k ≤ 8) :
    (s.next i f).Padding (n + 1) k (fill k i.tdata) ∧ (s.next i f).mAxis = full y := by
  obtain ⟨fsm, tready, trn, tkeep, tdata, tvalid⟩ := taking
  rw [next, fsm, valid, good, last, lastBeat_eq s keeps one le]
  refine ⟨⟨rfl, rfl, ?_, tkeep, rfl, tvalid, rfl⟩, ?_⟩
  · rw [← count_counted pos, ← trn]
    rfl
  · exact full_eq tdata tkeep tvalid

theorem le_counted_iff (pos : 0 < n) : 8#5 ≤ counted n ↔ 8 ≤ n := by
  by_cases many : 9 ≤ n
  · have above : ¬ n ≤ 8 := by omega
    rw [counted, if_neg above]
    exact iff_of_true (by decide) (by omega)
  · have small : n ≤ 8 := by omega
    obtain rfl | rfl | rfl | rfl | rfl | rfl | rfl | rfl := one_to_eight pos small
    all_goals decide

theorem counted_add_one (pos : 0 < n) (few : n < 8) : counted n + 1#5 = counted (n + 1) := by
  have small : n ≤ 8 := by omega
  obtain rfl | rfl | rfl | rfl | rfl | rfl | rfl | rfl := one_to_eight pos small
  case inr.inr.inr.inr.inr.inr.inr => omega
  all_goals rfl

theorem Padding.more (padding : s.Padding n k y) (pos : 0 < n) (few : n < 8) :
    (s.next i f).Padding (n + 1) 4 0#64 ∧ (s.next i f).mAxis = full y := by
  obtain ⟨fsm, tready, trn, tkeep, tdata, tvalid, -⟩ := padding
  have short : ¬ 8#5 ≤ counted n := by
    rw [le_counted_iff pos]
    omega
  rw [next, fsm, trn]
  simp only [if_neg short]
  exact ⟨⟨rfl, tready, counted_add_one pos few, tkeep, rfl, tvalid, rfl⟩, full_eq tdata tkeep tvalid⟩

/-- The wait is the one the module behind needs, with the enables it is given. -/
theorem padded_keep (lane4 : Bool) (dic : BitVec 2) (many : Bool) {k : ℕ} (one : 0 < k) (le : k ≤ 8) :
    padded lane4 dic (keep k) many =
      (keep (if many then k else max k 4), if quick lane4 (if many then k else max k 4) dic then .w2 else .w3) := by
  obtain rfl | rfl | rfl | rfl | rfl | rfl | rfl | rfl := one_to_eight one le
  all_goals
    revert lane4 dic many
    decide

theorem padded_eq (lane4 : Bool) (dic : BitVec 2) {n k : ℕ} (one : 0 < k) (le : k ≤ 8) (many : 8 ≤ n) :
    padded lane4 dic (keep k) ((counted n).getLsbD 4) =
      (keep (atLeast n k), if quick lane4 (atLeast n k) dic then .w2 else .w3) := by
  have enables : (if (counted n).getLsbD 4 then k else max k 4) = atLeast n k := by
    by_cases eight : n = 8
    · subst eight
      rfl
    · have above : ¬ n ≤ 8 := by omega
      rw [counted, if_neg above, atLeast, if_neg eight]
      rfl
  rw [padded_keep lane4 dic _ one le, enables]

theorem Padding.done (padding : s.Padding n k y) (many : 8 ≤ n) (one : 0 < k) (le : k ≤ 8) :
    (s.next i f).Closing (atLeast n k) y (quick f.lane4Start (atLeast n k) f.dic) := by
  obtain ⟨fsm, tready, trn, tkeep, tdata, tvalid, keeps⟩ := padding
  have enough : 8#5 ≤ counted n := (le_counted_iff (by omega)).mpr many
  rw [next, fsm, trn, keeps]
  simp only [if_pos enough, padded_eq f.lane4Start f.dic one le many]
  refine ⟨rfl, tready, ?_, rfl⟩
  rw [mAxis, tdata, tvalid]

theorem Closing.two (closing : s.Closing k y true) : (s.next i f).Quiet := by
  rw [next, closing.fsm, if_pos rfl]
  exact ⟨rfl, rfl, closing.tvalid, closing.tvalid⟩

/-- One cycle more. -/
theorem Closing.three {s : PaddingCtrl} {i j : Axis} {f g : Feedback} (closing : s.Closing k y false) :
    (s.next i f).sAxisTready = false ∧ (s.next i f).mAxisTvalid = false ∧ ((s.next i f).next j g).Quiet := by
  have first : s.next i f = { s with
      mAxisTdata := s.mAxisTdataD0, mAxisTvalid := s.mAxisTvalidD0, mAxisTlast := false, mAxisTuser := false,
      fsm := .w2 } := by
    rw [next, closing.fsm]
    rfl
  rw [first]
  exact ⟨closing.tready, closing.tvalid, rfl, rfl, closing.tvalid, closing.tvalid⟩

end Steps

end PaddingCtrl

end Zcu102.Nfmac
