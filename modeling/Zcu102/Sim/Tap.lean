import Zcu102.Sim.Steps

/-!
# The test access port of IEEE 1149.1

The 16-state controller, one rising edge of TCK at a time, and the record of what
it does to the registers behind it: a capture, a shift of one bit or an update, in
the state of that name.
-/

namespace Zcu102.Sim
set_option autoImplicit false

/-- Which register a scan goes through. -/
inductive Scan where
  | ir
  | dr
  deriving DecidableEq, Repr

inductive Tap where
  | testLogicReset
  | runTestIdle
  | select (k : Scan)
  | capture (k : Scan)
  | shift (k : Scan)
  | exit1 (k : Scan)
  | pause (k : Scan)
  | exit2 (k : Scan)
  | update (k : Scan)
  deriving DecidableEq, Repr

/-- The state diagram: the successor for a level of TMS. -/
def Tap.next : Tap → Bool → Tap
  | .testLogicReset, tms => if tms then .testLogicReset else .runTestIdle
  | .runTestIdle, tms => if tms then .select .dr else .runTestIdle
  | .select .dr, tms => if tms then .select .ir else .capture .dr
  | .select .ir, tms => if tms then .testLogicReset else .capture .ir
  | .capture k, tms => if tms then .exit1 k else .shift k
  | .shift k, tms => if tms then .exit1 k else .shift k
  | .exit1 k, tms => if tms then .update k else .pause k
  | .pause k, tms => if tms then .exit2 k else .pause k
  | .exit2 k, tms => if tms then .update k else .shift k
  | .update _, tms => if tms then .select .dr else .runTestIdle

inductive Act where
  | capture (k : Scan)
  | shift (k : Scan) (tdi : Bool)
  | update (k : Scan)
  deriving DecidableEq, Repr

/-- What an edge does in a state. -/
def Tap.act : Tap → Bool → List Act
  | .capture k, _ => [.capture k]
  | .shift k, tdi => [.shift k tdi]
  | .update k, _ => [.update k]
  | _, _ => []

/-- The levels an edge samples. -/
structure Pins where
  tms : Bool
  tdi : Bool
  deriving DecidableEq, Repr

/-- A controller and what it has done. -/
structure Controller where
  state : Tap
  done : List Act
  deriving DecidableEq, Repr

def Controller.edge (c : Controller) (p : Pins) : Controller :=
  ⟨c.state.next p.tms, c.done ++ c.state.act p.tdi⟩

/-- One whole scan of some bits. -/
def scanActs (k : Scan) (bits : List Bool) : List Act :=
  .capture k :: bits.map (.shift k) ++ [.update k]

/-- TMS low holds a state that is its own successor. -/
theorem runs_hold {s : Tap} (stays : s.next false = s) (done : List Act) (bits : List Bool) :
    runs Controller.edge ⟨s, done⟩ (bits.map (Pins.mk false)) = ⟨s, done ++ bits.flatMap s.act⟩ := by
  induction bits generalizing done with
  | nil => simp
  | cons b bits ih =>
    rw [List.map_cons, runs_cons, Controller.edge, stays, ih, List.flatMap_cons, List.append_assoc]

/-- A state held by TMS low that does nothing. -/
theorem runs_rest {s : Tap} (stays : s.next false = s) (rests : ∀ b, s.act b = []) (done : List Act)
    (bits : List Bool) : runs Controller.edge ⟨s, done⟩ (bits.map (Pins.mk false)) = ⟨s, done⟩ := by
  have nothing : bits.flatMap s.act = [] := List.flatMap_eq_nil_iff.mpr fun b _ => rests b
  rw [runs_hold stays, nothing, List.append_nil]

theorem runs_idle (done : List Act) (bits : List Bool) :
    runs Controller.edge ⟨.runTestIdle, done⟩ (bits.map (Pins.mk false)) = ⟨.runTestIdle, done⟩ :=
  runs_rest rfl (fun _ => rfl) done bits

theorem runs_pause (k : Scan) (done : List Act) (bits : List Bool) :
    runs Controller.edge ⟨.pause k, done⟩ (bits.map (Pins.mk false)) = ⟨.pause k, done⟩ :=
  runs_rest rfl (fun _ => rfl) done bits

theorem runs_shift (k : Scan) (done : List Act) (bits : List Bool) :
    runs Controller.edge ⟨.shift k, done⟩ (bits.map (Pins.mk false)) =
      ⟨.shift k, done ++ bits.map (.shift k)⟩ := by
  have each : bits.flatMap (Tap.shift k).act = bits.map (.shift k) := List.map_eq_flatMap.symm
  rw [runs_hold rfl, each]

/-- **The end of a scan**: the last bit with TMS high, an edge into Update, an edge into Run-Test/Idle. -/
theorem runs_scan_end (k : Scan) (done : List Act) (bits : List Bool) (last x y : Bool) :
    runs Controller.edge ⟨.shift k, done⟩ (bits.map (Pins.mk false) ++ [⟨true, last⟩, ⟨true, x⟩, ⟨false, y⟩]) =
      ⟨.runTestIdle, done ++ (bits ++ [last]).map (.shift k) ++ [.update k]⟩ := by
  rw [runs_append, runs_shift]
  simp [Controller.edge, Tap.next, Tap.act]

/-- **A scan that shifts nothing**: an edge too many with TMS low goes to Pause, and the end of a scan out of it. -/
theorem runs_missed_scan (k : Scan) (done : List Act) (b : Bool) (bits : List Bool) (last x y : Bool) :
    runs Controller.edge ⟨.exit1 k, done⟩
        ((b :: bits).map (Pins.mk false) ++ [⟨true, last⟩, ⟨true, x⟩, ⟨false, y⟩]) =
      ⟨.runTestIdle, done ++ [.update k]⟩ := by
  have paused : Controller.edge ⟨.exit1 k, done⟩ ⟨false, b⟩ = ⟨.pause k, done⟩ := by
    simp [Controller.edge, Tap.next, Tap.act]
  rw [List.map_cons, List.cons_append, runs_cons, paused, runs_append, runs_pause]
  simp [Controller.edge, Tap.next, Tap.act]

end Zcu102.Sim
