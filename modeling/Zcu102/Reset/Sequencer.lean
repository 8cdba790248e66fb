import Zcu102.Sim.ShiftRegister
import Zcu102.Sim.Steps

/-!
# The reset sequencer (`zcu102reset.v`)

`areset` is captured, synchronised and debounced in the domain of `clock1`; from
there each reset holds the synchroniser of the next domain. An event is one
rising edge of one clock, or a change of `areset`; what it sets off through the
asynchronous inputs has settled before the next.
-/

namespace Zcu102.Reset
set_option autoImplicit false
open Zcu102.Sim

/-- The body of `sifive_reset_sync`, run at a rising edge of its clock or of its `areset`. -/
def resetSync (areset : Bool) (genReset : BitVec 4) : BitVec 4 :=
  if areset then BitVec.allOnes 4 else shiftIn false genReset

/-- The registers of `sifive_reset_hold`; `capture` is the `gen_reset` of its first instance. -/
structure ResetHold where
  capture : BitVec 4
  syncReset : BitVec 4
  debounceReset : BitVec 9
  deriving DecidableEq, Repr

def ResetHold.rawReset (h : ResetHold) : Bool := h.capture.getLsbD 0

def ResetHold.outReset (h : ResetHold) : Bool := h.debounceReset.getLsbD 8

/-- A rising edge of the clock; every register reads the values before it. -/
def ResetHold.clockEdge (areset : Bool) (h : ResetHold) : ResetHold where
  capture := resetSync areset h.capture
  syncReset := shiftIn h.rawReset h.syncReset
  debounceReset :=
    if h.syncReset.getLsbD 0 then BitVec.allOnes 9
    else h.debounceReset - (BitVec.ofBool h.outReset).setWidth 9

/-- `zcu102reset`, with the level of its input. -/
structure Sequencer where
  areset : Bool
  hold : ResetHold
  syncClock2 : BitVec 4
  syncClock3 : BitVec 4
  syncClock4 : BitVec 4
  deriving DecidableEq, Repr

namespace Sequencer

def reset1 (s : Sequencer) : Bool := s.hold.outReset
def reset2 (s : Sequencer) : Bool := s.syncClock2.getLsbD 0
def reset3 (s : Sequencer) : Bool := s.syncClock3.getLsbD 0
def reset4 (s : Sequencer) : Bool := s.syncClock4.getLsbD 0

end Sequencer

inductive Event where
  | clock1
  | clock2
  | clock3
  | clock4
  | areset (level : Bool)
  deriving DecidableEq, Repr

def posedge (old new : Bool) : Bool := !old && new

@[simp] theorem posedge_low (old : Bool) : posedge old false = false := Bool.and_false _

/-- The synchronisers whose `areset` rose between two states, in the order of the chain. -/
def settle (old new : Sequencer) : Sequencer :=
  let s2 := if posedge old.reset1 new.reset1 then resetSync new.reset1 new.syncClock2 else new.syncClock2
  let new := { new with syncClock2 := s2 }
  let s3 := if posedge old.reset2 new.reset2 then resetSync new.reset2 new.syncClock3 else new.syncClock3
  let new := { new with syncClock3 := s3 }
  let s4 := if posedge old.reset3 new.reset3 then resetSync new.reset3 new.syncClock4 else new.syncClock4
  { new with syncClock4 := s4 }

/-- The registers an event clocks. -/
def clocked (s : Sequencer) : Event → Sequencer
  | .clock1 => { s with hold := s.hold.clockEdge s.areset }
  | .clock2 => { s with syncClock2 := resetSync s.reset1 s.syncClock2 }
  | .clock3 => { s with syncClock3 := resetSync s.reset2 s.syncClock3 }
  | .clock4 => { s with syncClock4 := resetSync s.reset3 s.syncClock4 }
  | .areset level =>
    let capture := if posedge s.areset level then resetSync level s.hold.capture else s.hold.capture
    { s with areset := level, hold := { s.hold with capture := capture } }

def step (s : Sequencer) (e : Event) : Sequencer := settle s (clocked s e)

/-- Every register bit is 1. -/
def allOnes (areset : Bool) : Sequencer where
  areset := areset
  hold := ⟨BitVec.allOnes 4, BitVec.allOnes 4, BitVec.allOnes 9⟩
  syncClock2 := BitVec.allOnes 4
  syncClock3 := BitVec.allOnes 4
  syncClock4 := BitVec.allOnes 4

/-! ## A stage of the chain -/

/-- The three synchronisers between two resets. -/
inductive Stage where
  | syncClock2
  | syncClock3
  | syncClock4
  deriving DecidableEq, Repr

namespace Stage

def input : Stage → Sequencer → Bool
  | syncClock2 => Sequencer.reset1
  | syncClock3 => Sequencer.reset2
  | syncClock4 => Sequencer.reset3

def register : Stage → Sequencer → BitVec 4
  | syncClock2 => Sequencer.syncClock2
  | syncClock3 => Sequencer.syncClock3
  | syncClock4 => Sequencer.syncClock4

def output (k : Stage) (s : Sequencer) : Bool := (k.register s).getLsbD 0

def clock : Stage → Event
  | syncClock2 => .clock2
  | syncClock3 => .clock3
  | syncClock4 => .clock4

end Stage

theorem resetSync_posedge (old new : Bool) (r : BitVec 4) :
    (if posedge old new then resetSync new r else r) = if posedge old new then BitVec.allOnes 4 else r := by
  cases old <;> cases new <;> rfl

theorem register_settle (k : Stage) (old new : Sequencer) :
    k.register (settle old new) =
      if posedge (k.input old) (k.input (settle old new)) then BitVec.allOnes 4 else k.register new := by
  cases k with
  | syncClock2 => exact resetSync_posedge old.reset1 new.reset1 new.syncClock2
  | syncClock3 => exact resetSync_posedge old.reset2 _ new.syncClock3
  | syncClock4 => exact resetSync_posedge old.reset3 _ new.syncClock4

theorem register_clocked (k : Stage) (s : Sequencer) (e : Event) :
    k.register (clocked s e) = if e = k.clock then resetSync (k.input s) (k.register s) else k.register s := by
  cases k <;> cases e <;> rfl

/-- What an event does to a synchroniser. -/
theorem register_step (k : Stage) (s : Sequencer) (e : Event) :
    k.register (step s e) =
      if posedge (k.input s) (k.input (step s e)) then BitVec.allOnes 4
      else if e = k.clock then resetSync (k.input s) (k.register s)
      else k.register s := by
  rw [step, register_settle, register_clocked]

/-! ## Order -/

/-- A stage whose input is high is all ones. -/
def Full (k : Stage) (s : Sequencer) : Prop := k.input s = true → k.register s = BitVec.allOnes 4

theorem Full.step {k : Stage} {s : Sequencer} (full : Full k s) (e : Event) : Full k (step s e) := by
  intro high
  rw [register_step, high]
  cases before : k.input s with
  | false => rfl
  | true => simp [posedge, resetSync, full before]

theorem Full.output {k : Stage} {s : Sequencer} (full : Full k s) (high : k.input s = true) : k.output s = true := by
  rw [Stage.output, full high]
  rfl

/-- Each reset holds the next one. -/
def Ordered (s : Sequencer) : Prop := ∀ k : Stage, k.input s = true → k.output s = true

theorem ordered_runs {s : Sequencer} (full : ∀ k, Full k s) (es : List Event) : Ordered (runs step s es) := by
  intro k
  have still := runs_invariant (Full k) (full k) (fun s e full => full.step e) es
  exact still.output

theorem input_allOnes (areset : Bool) (k : Stage) : k.input (allOnes areset) = true := by
  cases k <;> cases areset <;> decide

theorem full_allOnes (areset : Bool) (k : Stage) : Full k (allOnes areset) := by
  intro _
  cases k <;> rfl

/-! ## Release -/

theorem getLsbD_ones {i : ℕ} (bound : i ≤ 3) : (BitVec.allOnes 4).getLsbD i = true := by
  rw [BitVec.getLsbD_allOnes]
  exact decide_eq_true (by omega)

/-- After `c` edges of its clock with its input low a stage still has `4 - c` ones. -/
def Draining (k : Stage) (c : ℕ) (s : Sequencer) : Prop := ∀ i, i ≤ 3 → i < 4 - c → (k.register s).getLsbD i = true

theorem draining_full {k : Stage} {s : Sequencer} (full : k.register s = BitVec.allOnes 4) : Draining k 0 s := by
  intro i bound _
  rw [full]
  exact getLsbD_ones bound

theorem Draining.step {k : Stage} {c : ℕ} {s : Sequencer} (draining : Draining k c s) (low : k.input s = false)
    {e : Event} (still : k.input (step s e) = false) : Draining k (c + [e].count k.clock) (step s e) := by
  intro i bound below
  rw [register_step, still, posedge_low, if_neg Bool.false_ne_true]
  by_cases edge : e = k.clock
  · rw [edge, List.count_singleton_self] at below
    rw [if_pos edge, low, resetSync, if_neg Bool.false_ne_true]
    exact shiftIn_below draining (by omega) (by omega)
  · rw [if_neg edge]
    exact draining i bound (by omega)

/-- When its input falls a stage is still full. -/
theorem register_fall {k : Stage} {s : Sequencer} {e : Event} (high : k.input s = true)
    (full : k.register s = BitVec.allOnes 4) (low : k.input (step s e) = false) :
    k.register (step s e) = BitVec.allOnes 4 := by
  rw [register_step, high, low, full]
  simp [resetSync]

/-- A stage is full, or its input fell and its ones are counted since. -/
theorem stage_tracked {k : Stage} {s : Sequencer} (high : k.input s = true) (full : Full k s) (es : List Event) :
    Tracked step k.input k.clock (fun s => k.register s = BitVec.allOnes 4) (Draining k) s es :=
  runs_tracked high (full high) (fun _ e full => Full.step full e)
    (fun _ _ high full low => draining_full (register_fall high full low))
    (fun _ _ _ low draining still => draining.step low still) es

/-- A reset falls only at the fourth edge of its clock, or a later one, since the reset before it fell. -/
def ReleasedLate (s : Sequencer) (es : List Event) : Prop :=
  ∀ (k : Stage) (e : Event), Falls step k.output (runs step s es) e →
    e = k.clock ∧ ∃ post, LowSince step k.input s es post ∧ 4 ≤ (post ++ [e]).count k.clock

theorem releasedLate_runs {s : Sequencer} (high : ∀ k : Stage, k.input s = true) (full : ∀ k, Full k s)
    (es : List Event) : ReleasedLate s es := by
  intro k e falls
  obtain ⟨before, after⟩ := falls
  have tracked := stage_tracked (high k) (full k) es
  have changed : k.register (step (runs step s es) e) ≠ k.register (runs step s es) := by
    intro same
    rw [Stage.output, same, ← Stage.output, before] at after
    cases after
  have now : k.input (step (runs step s es) e) = false := by
    have fullNow : Full k (runs step s es) := runs_invariant (Full k) (full k) (fun _ e full => full.step e) es
    refine Bool.eq_false_iff.mpr fun high => ?_
    rw [(fullNow.step e).output high] at after
    cases after
  cases input : k.input (runs step s es) with
  | true =>
    have full := tracked.held input
    exact absurd ((register_fall input full now).trans full.symm) changed
  | false =>
    obtain ⟨post, since, draining⟩ := tracked.since input
    have edge : e = k.clock := by
      rw [register_step, input, now, posedge_low, if_neg Bool.false_ne_true] at changed
      exact Classical.not_not.mp fun other => changed (if_neg other)
    refine ⟨edge, post, since, ?_⟩
    rw [List.count_append]
    -- with a one left at the bottom the output would still be high
    refine Nat.le_of_not_lt fun few => ?_
    have one := draining.step input now 0 (by omega) (by omega)
    rw [← Stage.output, after] at one
    cases one

end Zcu102.Reset
