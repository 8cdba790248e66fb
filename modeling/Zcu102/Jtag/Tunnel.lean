import Mathlib.Data.List.Basic
import Mathlib.Tactic.IntervalCases
import Zcu102.Sim.ShiftRegister
import Zcu102.Sim.Tap

/-!
# The JTAG tunnel (`bscan.scala`)

`JTAGTUNNEL` drives a second test access port from the user register of the
first: the bits of a frame arrive while SHIFT is high, and TMS is decoded from a
count of the falling edges and from the width the frame carries in its header.
The keys it is compared with are computed in seven bits, and from a width that
is still being shifted in.
-/

namespace Zcu102.Jtag
set_option autoImplicit false
open Zcu102.Sim

/-- The outputs of `BSCANE2` over one period of TCK. -/
structure Bscan where
  sel : Bool
  shift : Bool
  tdi : Bool
  deriving DecidableEq, Repr

/-- The registers of `JTAGTUNNEL`. -/
structure Tunnel where
  shiftCounter : BitVec 7
  posCounter : BitVec 8
  tdiRegister : Bool
  negCounter : BitVec 8
  deriving DecidableEq, Repr

def Tunnel.reset : Tunnel := ⟨0, 0, false, 0⟩

/-- `MuxLookup`: the first entry whose key matches. -/
def muxLookup {α : Type} (key : BitVec 8) (default : α) : List (BitVec 8 × α) → α
  | [] => default
  | (k, value) :: rest => if k = key then value else muxLookup key default rest

/-- The sums of the two last keys have the seven bits of `shiftCounterWire`. -/
def Tunnel.jtagTms (t : Tunnel) : Bool :=
  muxLookup t.negCounter false [
    (4, t.tdiRegister),
    (5, true),
    ((t.shiftCounter + 7).setWidth 8, true),
    ((t.shiftCounter + 8).setWidth 8, true)]

/-- The registers clocked by `posClock`, reset while SHIFT is low. -/
def Tunnel.posEdge (t : Tunnel) (i : Bscan) : Tunnel :=
  if i.shift then
    { t with
      posCounter := t.posCounter + 1
      shiftCounter :=
        if 1 ≤ t.posCounter ∧ t.posCounter ≤ 7 then BitVec.ofBool i.tdi ++ t.shiftCounter.extractLsb' 1 6
        else t.shiftCounter
      tdiRegister := if t.posCounter = 0 then !i.tdi else t.tdiRegister }
  else { t with posCounter := 0, shiftCounter := 0, tdiRegister := false }

/-- The register clocked by `negClock`. -/
def Tunnel.negEdge (t : Tunnel) (i : Bscan) : Tunnel :=
  { t with negCounter := if i.shift then t.negCounter + 1 else 0 }

/-- A period of TCK, from before its rising edge. -/
def Tunnel.cycle (t : Tunnel) (i : Bscan) : Tunnel := (t.posEdge i).negEdge i

/-- What the port sees: `BUFGCE` passes TCK while SEL is high, and its rising edge samples the levels
the registers held before it. -/
def Tunnel.pins (t : Tunnel) : List Bscan → List Pins
  | [] => []
  | i :: rest => (if i.sel then [⟨t.jtagTms, i.tdi⟩] else []) ++ (t.cycle i).pins rest

/-! ## Frames -/

/-- A bit of a frame, and a bit between frames. -/
def shifting (tdi : Bool) : Bscan := ⟨true, true, tdi⟩

def idling (tdi : Bool) : Bscan := ⟨true, false, tdi⟩

/-- The select bit and the width, least-significant bit first. -/
def header (select : Bool) (width : BitVec 7) : List Bool :=
  [select, width.getLsbD 0, width.getLsbD 1, width.getLsbD 2, width.getLsbD 3, width.getLsbD 4, width.getLsbD 5,
    width.getLsbD 6]

/-- A frame, with the bits TDI carries before the next one. -/
structure Frame where
  select : Bool
  width : BitVec 7
  payload : List Bool
  trailing : List Bool
  idle : List Bool
  width_pos : 1 ≤ width.toNat
  payload_length : payload.length = width.toNat
  trailing_length : 2 ≤ trailing.length
  fits : 8 + payload.length + trailing.length ≤ 255
  idle_nonempty : idle ≠ []

def Frame.bits (f : Frame) : List Bool := header f.select f.width ++ (f.payload ++ f.trailing)

def scanOf (select : Bool) : Scan := if select then .dr else .ir

/-- Every frame of a sequence is transported: the port performs its scan, no more and no less, and is back in
Run-Test/Idle when the frame ends. -/
def Transports (t : Tunnel) (c : Controller) : List Frame → Prop
  | [] => True
  | f :: rest =>
    let t' := runs Tunnel.cycle t (f.bits.map shifting)
    let c' := runs Controller.edge c (t.pins (f.bits.map shifting))
    c'.state = .runTestIdle ∧ c'.done = c.done ++ scanActs (scanOf f.select) f.payload ∧
      Transports (runs Tunnel.cycle t' (f.idle.map idling))
        (runs Controller.edge c' (t'.pins (f.idle.map idling))) rest

/-! ## The header -/

theorem pins_append (t : Tunnel) (a b : List Bscan) :
    t.pins (a ++ b) = t.pins a ++ (runs Tunnel.cycle t a).pins b := by
  induction a generalizing t with
  | nil => rfl
  | cons i a ih => rw [List.cons_append, Tunnel.pins, Tunnel.pins, ih, runs_cons, List.append_assoc]

/-- The registers after `k` bits of a frame, once the header is in. -/
def body (select : Bool) (width : BitVec 7) (k : ℕ) : Tunnel :=
  ⟨width, BitVec.ofNat 8 k, !select, BitVec.ofNat 8 k⟩

/-- Before its last bit is in, the width register holds twice the low six bits of the width. -/
def headerPins (select : Bool) (width : BitVec 7) : List Pins :=
  List.zipWith Pins.mk [false, false, false, false, !select, true, false, width.toNat % 64 = 0] (header select width)

/-- The registers after the select bit and `j` bits of the width, which stand at the top. -/
def fed (select : Bool) (width : BitVec 7) (j : ℕ) : Tunnel :=
  ⟨width <<< (7 - j), BitVec.ofNat 8 (j + 1), !select, BitVec.ofNat 8 (j + 1)⟩

theorem eq_ofNat_iff {x : BitVec 8} {k : ℕ} (high : k < 256) : x = BitVec.ofNat 8 k ↔ x.toNat = k := by
  rw [← BitVec.toNat_inj, BitVec.toNat_ofNat, Nat.mod_eq_of_lt high]

theorem toNat_key (width : BitVec 7) (n : ℕ) :
    ((width + BitVec.ofNat 7 n).setWidth 8).toNat = (width.toNat + n) % 128 := by
  rw [BitVec.toNat_setWidth, BitVec.toNat_add, BitVec.toNat_ofNat]
  omega

section
variable {select : Bool} {width : BitVec 7}

theorem cycle_select : Tunnel.reset.cycle (shifting select) = fed select width 0 := by
  have empty : width <<< 7 = 0 := BitVec.shiftLeft_eq_zero (Nat.le_refl 7)
  rw [fed, Nat.sub_zero, empty]
  rfl

theorem cycle_fed {j : ℕ} (bound : j < 7) :
    (fed select width j).cycle (shifting (width.getLsbD j)) = fed select width (j + 1) := by
  have later : ¬ BitVec.ofNat 8 (j + 1) = 0#8 := by
    rw [eq_comm, eq_ofNat_iff (by omega), BitVec.toNat_ofNat]
    omega
  have inside : 1#8 ≤ BitVec.ofNat 8 (j + 1) ∧ BitVec.ofNat 8 (j + 1) ≤ 7#8 := by
    rw [BitVec.le_def, BitVec.le_def, BitVec.toNat_ofNat, BitVec.toNat_ofNat, BitVec.toNat_ofNat]
    omega
  have counted : BitVec.ofNat 8 (j + 1) + 1#8 = BitVec.ofNat 8 (j + 1 + 1) := (BitVec.ofNat_add (j + 1) 1).symm
  have shifted : BitVec.ofBool (width.getLsbD j) ++ (width <<< (7 - j)).extractLsb' 1 6 = width <<< (7 - (j + 1)) := by
    have left : 7 - (j + 1) = 6 - j := by omega
    rw [left]
    exact shiftIn_shiftLeft width (Nat.le_of_lt_succ bound)
  simp [Tunnel.cycle, Tunnel.posEdge, Tunnel.negEdge, shifting, fed, later, inside, counted, shifted]

/-- The two last keys do not match before the width is in, but for the first of them when its low six bits are
zero. -/
theorem jtagTms_fed {j : ℕ} (bound : j < 7) : (fed select width j).jtagTms =
    if j = 3 then !select else if j = 4 then true else decide (j = 6 ∧ width.toNat % 64 = 0) := by
  have key (n : ℕ) : (width <<< (7 - j) + BitVec.ofNat 7 n).setWidth 8 = BitVec.ofNat 8 (j + 1) ↔
      (width.toNat * 2 ^ (7 - j) % 128 + n) % 128 = j + 1 := by
    rw [eq_ofNat_iff (by omega), toNat_key, BitVec.toNat_shiftLeft, Nat.shiftLeft_eq]
  have key4 : 4#8 = BitVec.ofNat 8 (j + 1) ↔ j = 3 := by
    rw [eq_ofNat_iff (by omega), BitVec.toNat_ofNat]
    omega
  have key5 : 5#8 = BitVec.ofNat 8 (j + 1) ↔ j = 4 := by
    rw [eq_ofNat_iff (by omega), BitVec.toNat_ofNat]
    omega
  -- what is in of the width is a multiple of `2 ^ (7 - j)`
  have key7 : (width <<< (7 - j) + 7#7).setWidth 8 = BitVec.ofNat 8 (j + 1) ↔ j = 6 ∧ width.toNat % 64 = 0 := by
    rw [key 7]
    interval_cases j <;> omega
  have key8 : ¬ (width <<< (7 - j) + 8#7).setWidth 8 = BitVec.ofNat 8 (j + 1) := by
    rw [key 8]
    interval_cases j <;> omega
  simp [Tunnel.jtagTms, fed, muxLookup, key4, key5, key7, key8]

theorem pins_fed_cons {j : ℕ} (bound : j < 7) (rest : List Bscan) :
    (fed select width j).pins (shifting (width.getLsbD j) :: rest) =
      ⟨(fed select width j).jtagTms, width.getLsbD j⟩ :: (fed select width (j + 1)).pins rest := by
  rw [Tunnel.pins, cycle_fed bound]
  rfl

end

theorem pins_header (select : Bool) (width : BitVec 7) :
    Tunnel.reset.pins ((header select width).map shifting) = headerPins select width := by
  have first (rest : List Bscan) : Tunnel.reset.pins (shifting select :: rest) =
      ⟨false, select⟩ :: (fed select width 0).pins rest := by
    rw [Tunnel.pins, cycle_select]
    rfl
  simp (disch := decide) only [header, List.map_cons, List.map_nil, first, pins_fed_cons, Nat.reduceAdd, jtagTms_fed]
  simp [headerPins, header, Tunnel.pins]

theorem runs_header (select : Bool) (width : BitVec 7) :
    runs Tunnel.cycle Tunnel.reset ((header select width).map shifting) = body select width 8 := by
  have first : Tunnel.reset.cycle (shifting select) = fed select width 0 := cycle_select
  simp (disch := decide) only [header, List.map_cons, List.map_nil, runs_cons, runs_nil, first, cycle_fed,
    Nat.reduceAdd]
  rw [fed, body, Nat.sub_self, BitVec.shiftLeft_zero]

/-- The port on the header of a frame: in Capture, and then in Shift unless TMS rose too early. -/
theorem edges_header (select : Bool) (width : BitVec 7) (done : List Act) :
    runs Controller.edge ⟨.runTestIdle, done⟩ (headerPins select width) =
      ⟨if width.toNat % 64 = 0 then .exit1 (scanOf select) else .shift (scanOf select),
        done ++ [.capture (scanOf select)]⟩ := by
  cases select <;> by_cases early : width.toNat % 64 = 0 <;>
    simp [headerPins, header, scanOf, early, Controller.edge, Tap.next, Tap.act]

/-! ## The payload -/

/-- TMS is high at bit `k` of the payload and the trailer. -/
def Hit (width : BitVec 7) (k : ℕ) : Prop := k = (width.toNat + 7) % 128 ∨ k = (width.toNat + 8) % 128

instance (width : BitVec 7) (k : ℕ) : Decidable (Hit width k) := inferInstanceAs (Decidable (_ ∨ _))

theorem jtagTms_body {select : Bool} {width : BitVec 7} {k : ℕ} (low : 8 ≤ k) (high : k < 256) :
    (body select width k).jtagTms = decide (Hit width k) := by
  have key4 : ¬ 4#8 = BitVec.ofNat 8 k := by
    rw [eq_ofNat_iff high, BitVec.toNat_ofNat]
    omega
  have key5 : ¬ 5#8 = BitVec.ofNat 8 k := by
    rw [eq_ofNat_iff high, BitVec.toNat_ofNat]
    omega
  have key7 : (width + 7#7).setWidth 8 = BitVec.ofNat 8 k ↔ k = (width.toNat + 7) % 128 := by
    rw [eq_ofNat_iff high, toNat_key, eq_comm]
  have key8 : (width + 8#7).setWidth 8 = BitVec.ofNat 8 k ↔ k = (width.toNat + 8) % 128 := by
    rw [eq_ofNat_iff high, toNat_key, eq_comm]
  rw [Bool.eq_iff_iff, decide_eq_true_iff]
  simp [Tunnel.jtagTms, body, Hit, muxLookup, key4, key5, key7, key8]

theorem cycle_body {select : Bool} {width : BitVec 7} {k : ℕ} (low : 8 ≤ k) (high : k < 256) (b : Bool) :
    (body select width k).cycle (shifting b) = body select width (k + 1) := by
  have past : ¬ BitVec.ofNat 8 k ≤ 7#8 := by
    rw [BitVec.le_def, BitVec.toNat_ofNat, BitVec.toNat_ofNat]
    omega
  have started : ¬ BitVec.ofNat 8 k = 0#8 := by
    rw [eq_comm, eq_ofNat_iff high, BitVec.toNat_ofNat]
    omega
  have counted : BitVec.ofNat 8 k + 1#8 = BitVec.ofNat 8 (k + 1) := (BitVec.ofNat_add k 1).symm
  simp [Tunnel.cycle, Tunnel.posEdge, Tunnel.negEdge, shifting, body, past, started, counted]

section
variable {select : Bool} {width : BitVec 7}

theorem pins_body_cons {k : ℕ} (low : 8 ≤ k) (high : k < 256) (b : Bool) (rest : List Bscan) :
    (body select width k).pins (shifting b :: rest) =
      ⟨decide (Hit width k), b⟩ :: (body select width (k + 1)).pins rest := by
  rw [Tunnel.pins, cycle_body low high, jtagTms_body low high]
  rfl

/-- A stretch without a key is passed on with TMS low. -/
theorem pins_body_quiet {k : ℕ} (low : 8 ≤ k) (bits : List Bool) (high : k + bits.length ≤ 256)
    (quiet : ∀ j, k ≤ j → j < k + bits.length → ¬ Hit width j) (rest : List Bscan) :
    (body select width k).pins (bits.map shifting ++ rest) =
      bits.map (Pins.mk false) ++ (body select width (k + bits.length)).pins rest := by
  induction bits generalizing k with
  | nil => rfl
  | cons b bits ih =>
    rw [List.length_cons] at high quiet
    have tail := ih (k := k + 1) (by omega) (by omega) fun j above below => quiet j (by omega) (by omega)
    rw [List.map_cons, List.cons_append, pins_body_cons low (by omega), tail,
      decide_eq_false (quiet k (by omega) (by omega)), List.length_cons, Nat.add_right_comm, Nat.add_assoc k]
    rfl

/-- The same up to the end of a frame. -/
theorem pins_body_rest {k : ℕ} (low : 8 ≤ k) (bits : List Bool) (high : k + bits.length ≤ 256)
    (quiet : ∀ j, k ≤ j → j < k + bits.length → ¬ Hit width j) :
    (body select width k).pins (bits.map shifting) = bits.map (Pins.mk false) := by
  have whole : (body select width k).pins (bits.map shifting ++ []) = _ := pins_body_quiet low bits high quiet []
  rwa [List.append_nil, Tunnel.pins, List.append_nil] at whole

theorem runs_body {k : ℕ} (low : 8 ≤ k) (bits : List Bool) (high : k + bits.length ≤ 256) :
    runs Tunnel.cycle (body select width k) (bits.map shifting) = body select width (k + bits.length) := by
  induction bits generalizing k with
  | nil => rfl
  | cons b bits ih =>
    rw [List.length_cons] at high
    rw [List.map_cons, runs_cons, cycle_body low (by omega), ih (by omega) (by omega), List.length_cons,
      Nat.add_right_comm, Nat.add_assoc k]

end

/-! ## Between frames -/

theorem cycle_idling (t : Tunnel) (b : Bool) : t.cycle (idling b) = Tunnel.reset := rfl

theorem runs_idling (t : Tunnel) {bits : List Bool} (some : bits ≠ []) :
    runs Tunnel.cycle t (bits.map idling) = Tunnel.reset := by
  induction bits generalizing t with
  | nil => exact absurd rfl some
  | cons b bits ih =>
    rw [List.map_cons, runs_cons, cycle_idling]
    by_cases done : bits = []
    · rw [done, List.map_nil, runs_nil]
    · exact ih _ done

theorem pins_idling {t : Tunnel} (low : t.jtagTms = false) (bits : List Bool) :
    t.pins (bits.map idling) = bits.map (Pins.mk false) := by
  induction bits generalizing t with
  | nil => rfl
  | cons b bits ih =>
    rw [List.map_cons, Tunnel.pins, low, cycle_idling, ih rfl]
    rfl

/-! ## Whole frames -/

/-- The widths the tunnel carries. -/
def Frame.Carried (f : Frame) : Prop := f.width.toNat ≤ 119 ∧ f.width.toNat ≠ 64

instance (f : Frame) : Decidable f.Carried := inferInstanceAs (Decidable (_ ∧ _))

theorem Frame.bits_length (f : Frame) : f.bits.length = 8 + (f.payload ++ f.trailing).length := by
  rw [Frame.bits, List.length_append]
  rfl

theorem Frame.body_length (f : Frame) : 10 + f.width.toNat ≤ 8 + (f.payload ++ f.trailing).length ∧
    8 + (f.payload ++ f.trailing).length ≤ 255 := by
  have long := f.trailing_length
  have short := f.fits
  have paid := f.payload_length
  rw [List.length_append]
  omega

theorem runs_frame (f : Frame) :
    runs Tunnel.cycle Tunnel.reset (f.bits.map shifting) = body f.select f.width f.bits.length := by
  have short := f.body_length.2
  rw [Frame.bits, List.map_append, runs_append, runs_header, runs_body (Nat.le_refl 8) _ (by omega),
    ← Frame.bits_length]
  rfl

theorem pins_frame (f : Frame) : Tunnel.reset.pins (f.bits.map shifting) =
    headerPins f.select f.width ++ (body f.select f.width 8).pins ((f.payload ++ f.trailing).map shifting) := by
  rw [Frame.bits, List.map_append, pins_append, pins_header, runs_header]

/-- The payload up to its last bit, and the first two bits after it. -/
theorem Frame.split (f : Frame) : ∃ init last x y rest, f.payload = init ++ [last] ∧ f.trailing = x :: y :: rest ∧
    init.length + 1 = f.width.toNat := by
  have paid := f.payload_length
  have some := f.width_pos
  have long := f.trailing_length
  have nonempty : f.payload ≠ [] := List.ne_nil_of_length_pos (by omega)
  obtain ⟨x, after, trailing⟩ := List.exists_cons_of_length_pos (l := f.trailing) (by omega)
  rw [trailing, List.length_cons] at long
  obtain ⟨y, rest, after⟩ := List.exists_cons_of_length_pos (l := after) (by omega)
  refine ⟨f.payload.dropLast, f.payload.getLast nonempty, x, y, rest, ?_, by rw [trailing, after], ?_⟩
  · exact (List.dropLast_append_getLast nonempty).symm
  · rw [List.length_dropLast]
    omega

/-- Up to width 119 the keys do not wrap: the last bit of the payload and the one after it have TMS high. -/
theorem pins_payload {f : Frame} (short : f.width.toNat ≤ 119) {init rest : List Bool} {last x y : Bool}
    (payload : f.payload = init ++ [last]) (trailing : f.trailing = x :: y :: rest)
    (length : init.length + 1 = f.width.toNat) :
    (body f.select f.width 8).pins ((f.payload ++ f.trailing).map shifting) =
      init.map (Pins.mk false) ++ [⟨true, last⟩, ⟨true, x⟩, ⟨false, y⟩] ++ rest.map (Pins.mk false) := by
  have fits := f.body_length.2
  rw [payload, trailing] at fits ⊢
  simp only [List.length_append, List.length_cons, List.length_nil] at fits
  have before : ∀ j, 8 ≤ j → j < 8 + init.length → ¬ Hit f.width j := by
    intro j above below
    unfold Hit
    omega
  have hit : Hit f.width (8 + init.length) := by unfold Hit; omega
  have hitNext : Hit f.width (8 + init.length + 1) := by unfold Hit; omega
  have after : ∀ j, 8 + init.length + 2 ≤ j → ¬ Hit f.width j := by
    intro j above
    unfold Hit
    omega
  have tail : (body f.select f.width (8 + init.length + 1 + 1 + 1)).pins (rest.map shifting) = _ :=
    pins_body_rest (by omega) rest (by omega) (fun j above _ => after j (by omega))
  rw [List.append_assoc, List.map_append, pins_body_quiet (Nat.le_refl 8) init (by omega) before]
  simp only [List.cons_append, List.nil_append, List.map_cons]
  rw [pins_body_cons (by omega) (by omega), pins_body_cons (by omega) (by omega),
    pins_body_cons (by omega) (by omega), tail, decide_eq_true hit, decide_eq_true hitNext,
    decide_eq_false (after _ (Nat.le_refl _)), List.append_assoc]
  rfl

section
variable {f : Frame} (done : List Act)

/-- A carried frame is one scan of its payload. -/
theorem edges_carried (carried : f.Carried) :
    runs Controller.edge ⟨.runTestIdle, done⟩ (Tunnel.reset.pins (f.bits.map shifting)) =
      ⟨.runTestIdle, done ++ scanActs (scanOf f.select) f.payload⟩ := by
  obtain ⟨short, not64⟩ := carried
  obtain ⟨init, last, x, y, rest, payload, trailing, length⟩ := f.split
  have some := f.width_pos
  have loaded : f.width.toNat % 64 ≠ 0 := by omega
  rw [pins_frame, pins_payload short payload trailing length, runs_append, edges_header, if_neg loaded, runs_append,
    runs_scan_end, runs_idle, payload]
  simp [scanActs]

/-- Width 64: six bits of the width are zero when they are compared, and the scan shifts nothing. -/
theorem edges_64 (is64 : f.width.toNat = 64) :
    runs Controller.edge ⟨.runTestIdle, done⟩ (Tunnel.reset.pins (f.bits.map shifting)) =
      ⟨.runTestIdle, done ++ scanActs (scanOf f.select) []⟩ := by
  obtain ⟨init, last, x, y, rest, payload, trailing, length⟩ := f.split
  have early : f.width.toNat % 64 = 0 := by omega
  obtain ⟨b, init, rfl⟩ := List.exists_cons_of_length_pos (l := init) (by omega)
  rw [pins_frame, pins_payload (by omega) payload trailing length, runs_append, edges_header, if_pos early, runs_append,
    runs_missed_scan, runs_idle]
  simp [scanActs]

/-- Width 120: the second key wraps to zero, and the port is left in Pause. -/
theorem state_120 (is120 : f.width.toNat = 120) :
    (runs Controller.edge ⟨.runTestIdle, done⟩ (Tunnel.reset.pins (f.bits.map shifting))).state =
      .pause (scanOf f.select) := by
  obtain ⟨init, last, x, y, rest, payload, trailing, length⟩ := f.split
  have fits := f.body_length.2
  rw [payload, trailing] at fits
  simp only [List.length_append, List.length_cons, List.length_nil] at fits
  have hit : Hit f.width (8 + init.length) := by unfold Hit; omega
  have quiet : ∀ j, 8 ≤ j → j ≠ 8 + init.length → ¬ Hit f.width j := by
    intro j above other
    unfold Hit
    omega
  have tail : (body f.select f.width (8 + init.length + 1 + 1)).pins ((y :: rest).map shifting) = _ :=
    pins_body_rest (by omega) _ (by rw [List.length_cons]; omega) (fun j above _ => quiet j (by omega) (by omega))
  have pins : (body f.select f.width 8).pins ((f.payload ++ f.trailing).map shifting) =
      init.map (Pins.mk false) ++ ⟨true, last⟩ :: ⟨false, x⟩ :: (y :: rest).map (Pins.mk false) := by
    rw [payload, trailing, List.append_assoc, List.map_append, List.singleton_append, List.map_cons, List.map_cons,
      pins_body_quiet (Nat.le_refl 8) init (by omega) (fun j above _ => quiet j above (by omega)),
      pins_body_cons (by omega) (by omega), pins_body_cons (by omega) (by omega), tail, decide_eq_true hit,
      decide_eq_false (quiet _ (by omega) (by omega))]
  have paused (acts : List Act) : Controller.edge (Controller.edge ⟨.shift (scanOf f.select), acts⟩ ⟨true, last⟩)
      ⟨false, x⟩ = ⟨.pause (scanOf f.select), acts ++ [.shift (scanOf f.select) last]⟩ := by
    simp [Controller.edge, Tap.next, Tap.act]
  rw [pins_frame, pins, runs_append, edges_header, if_neg (by omega), runs_append, runs_shift, runs_cons, runs_cons,
    paused, runs_pause]

/-- From width 121 on both keys wrap, and the port is left in Shift. -/
theorem state_121 (from121 : 121 ≤ f.width.toNat) :
    (runs Controller.edge ⟨.runTestIdle, done⟩ (Tunnel.reset.pins (f.bits.map shifting))).state =
      .shift (scanOf f.select) := by
  have bound := f.width.isLt
  have fits := f.body_length.2
  have wrapped : ∀ j, 8 ≤ j → ¬ Hit f.width j := by
    intro j above
    unfold Hit
    omega
  have quiet : (body f.select f.width 8).pins ((f.payload ++ f.trailing).map shifting) = _ :=
    pins_body_rest (Nat.le_refl 8) _ (by omega) (fun j above _ => wrapped j above)
  rw [pins_frame, quiet, runs_append, edges_header, if_neg (by omega), runs_shift]

end

/-- No other frame is transported. -/
theorem not_carried {f : Frame} (fails : ¬ f.Carried) {done : List Act}
    (idle : (runs Controller.edge ⟨.runTestIdle, done⟩ (Tunnel.reset.pins (f.bits.map shifting))).state = .runTestIdle)
    (scanned : (runs Controller.edge ⟨.runTestIdle, done⟩ (Tunnel.reset.pins (f.bits.map shifting))).done =
      done ++ scanActs (scanOf f.select) f.payload) : False := by
  have paid := f.payload_length
  have widths : f.width.toNat = 64 ∨ f.width.toNat = 120 ∨ 121 ≤ f.width.toNat := by
    unfold Frame.Carried at fails
    omega
  rcases widths with is64 | is120 | from121
  · rw [edges_64 done is64] at scanned
    have lengths := congrArg List.length (List.append_cancel_left scanned)
    simp only [scanActs, List.cons_append, List.length_cons, List.length_append, List.length_map,
      List.length_nil] at lengths
    omega
  · rw [state_120 done is120] at idle
    cases idle
  · rw [state_121 done from121] at idle
    cases idle

/-- After a carried frame and the gap that follows it the registers are reset and the port has not moved. -/
theorem after_carried {f : Frame} (carried : f.Carried) (done : List Act) :
    runs Tunnel.cycle (runs Tunnel.cycle Tunnel.reset (f.bits.map shifting)) (f.idle.map idling) = Tunnel.reset ∧
      runs Controller.edge ⟨.runTestIdle, done⟩
        ((runs Tunnel.cycle Tunnel.reset (f.bits.map shifting)).pins (f.idle.map idling)) = ⟨.runTestIdle, done⟩ := by
  obtain ⟨long, fits⟩ := f.body_length
  obtain ⟨short, -⟩ := carried
  have passed : ¬ Hit f.width f.bits.length := by
    rw [Frame.bits_length]
    unfold Hit
    omega
  have low : (body f.select f.width f.bits.length).jtagTms = false := by
    rw [jtagTms_body (by rw [Frame.bits_length]; omega) (by rw [Frame.bits_length]; omega), decide_eq_false passed]
  refine ⟨runs_idling _ f.idle_nonempty, ?_⟩
  rw [runs_frame, pins_idling low, runs_idle]

theorem transports_iff_from (done : List Act) (frames : List Frame) :
    Transports Tunnel.reset ⟨.runTestIdle, done⟩ frames ↔ ∀ f ∈ frames, f.Carried := by
  induction frames generalizing done with
  | nil => simp [Transports]
  | cons f frames ih =>
    rw [List.forall_mem_cons]
    unfold Transports
    by_cases carried : f.Carried
    · obtain ⟨registers, port⟩ := after_carried carried (done ++ scanActs (scanOf f.select) f.payload)
      simp only [edges_carried done carried, registers, port, ih, carried, true_and]
    · exact iff_of_false (fun h => not_carried carried h.1 h.2.1) (fun h => carried h.1)

/-- **The tunnel transports a sequence of frames exactly when no width is 64 or above 119.** -/
theorem tunnel_transports_iff (frames : List Frame) :
    Transports Tunnel.reset ⟨.runTestIdle, []⟩ frames ↔
      ∀ f ∈ frames, f.width.toNat ≤ 119 ∧ f.width.toNat ≠ 64 :=
  transports_iff_from [] frames

/-- A data scan of 64 ones. -/
def frame64 : Frame where
  select := true
  width := 64
  payload := List.replicate 64 true
  trailing := [false, false]
  idle := [false]
  width_pos := by decide
  payload_length := by decide
  trailing_length := by decide
  fits := by decide
  idle_nonempty := by decide

/-- The port captures and updates the data register and shifts none of the bits. -/
theorem frame64_lost :
    (runs Controller.edge ⟨.runTestIdle, []⟩ (Tunnel.reset.pins (frame64.bits.map shifting))).done =
        [.capture .dr, .update .dr] ∧
      ¬ Transports Tunnel.reset ⟨.runTestIdle, []⟩ [frame64] := by
  refine ⟨?_, ?_⟩
  · rw [edges_64 [] rfl]
    rfl
  · rw [transports_iff_from]
    decide

end Zcu102.Jtag
