import Zcu102.Sim.Queue
import Zcu102.Sim.Steps

/-!
# The transmit path of the Ethernet MAC (`EthernetMAC.module`)

Beats written to the `tx` register cross `txQ` into the queue `txO` of the transmit
clock. From there they go to the MAC or, in skip mode, round into the receive queue
`rxI`; both have one clock. The `when` at the end of the module overrides `txO.ready`
and the receive side, and leaves `tx_axis_tvalid` as it was.

`txQ` is an asynchronous FIFO: when it is ready and when a beat in it shows at its
other end is up to the run, as is when `rxQ` behind `rxI` has room. The bits of the
control register reach the transmit clock through synchronisers, whose outputs are
inputs of each cycle.
-/

namespace Zcu102.Ethernet
set_option autoImplicit false
open Zcu102.Sim

structure EtherBeat where
  data : BitVec 64
  last : Bool
  deriving DecidableEq, Repr

/-- The inputs of a cycle of the transmit clock. -/
structure Cycle where
  txen : Bool
  rxen : Bool
  skip : Bool
  tready : Bool
  /-- `rx_axis_tvalid`, `rx_axis_tdata` and `rx_axis_tlast`. -/
  received : Option EtherBeat
  /-- Whether the front of `txQ` shows. -/
  crossed : Bool
  rxQReady : Bool
  deriving DecidableEq, Repr

structure Mac where
  last : Bool
  txQ : List EtherBeat
  txO : Queue EtherBeat 2
  rxI : Queue EtherBeat 2

namespace Mac

/-- After reset. -/
def start : Mac := ⟨true, [], .empty, .empty⟩

variable (s : Mac) (c : Cycle)

def txOReady : Bool := if c.skip then s.rxI.ready else c.tready && c.txen

def tvalid : Bool := s.txO.valid && c.txen

def rxIValid : Bool := if c.skip then s.txO.valid else c.received.isSome && c.rxen

/-- `rxI.bits`, when `rxI.valid`. -/
def rxIBits : Option EtherBeat :=
  if s.rxIValid c then if c.skip then s.txO.contents.head? else c.received else none

/-- `txQ.deq`, into `txO`. -/
def txQDeq : Option EtherBeat := if c.crossed then s.txQ.head? else none

def cycle : Mac where
  last := s.last
  txQ := s.txQ.drop (s.txO.accepts (s.txQDeq c)).length
  txO := s.txO.step (s.txQDeq c) (s.txOReady c)
  rxI := s.rxI.step (s.rxIBits c) c.rxQReady

end Mac

/-- An edge of the bus clock at which software sets `last`, or offers a beat that `txQ` may be ready for; or a
cycle of the transmit clock. -/
inductive Event where
  | control (last : Bool)
  | tx (data : BitVec 64) (ready : Bool)
  | cycle (c : Cycle)
  deriving DecidableEq, Repr

def Mac.step (s : Mac) : Event → Mac
  | .control last => { s with last }
  | .tx data ready => if ready then { s with txQ := s.txQ ++ [⟨data, s.last⟩] } else s
  | .cycle c => s.cycle c

/-! ## Who takes a beat -/

namespace Mac

variable (s : Mac) (c : Cycle)

/-- A beat leaves `txO`. -/
def leaves : Bool := s.txO.valid && s.txOReady c

/-- The MAC accepts the beat at the front of `txO`. -/
def macAccepts : Bool := s.tvalid c && c.tready

/-- The receive queue accepts the beat at the front of `txO`. -/
def loopAccepts : Bool := c.skip && s.rxIValid c && s.rxI.ready

/-- A beat leaves exactly when one consumer accepts it, and none accepts a beat that stays. -/
structure OnceEach : Prop where
  leaves_iff : s.leaves c = true ↔ (s.macAccepts c ^^ s.loopAccepts c) = true
  stays : s.leaves c = false → s.macAccepts c = false ∧ s.loopAccepts c = false

/-- The beats the consumers accept. -/
def accepted : Event → List EtherBeat
  | .control _ => []
  | .tx _ _ => []
  | .cycle c =>
    (if s.macAccepts c then s.txO.contents.take 1 else []) ++ if s.loopAccepts c then s.txO.contents.take 1 else []

/-- The beats written to the `tx` register. -/
def written : Event → List EtherBeat
  | .control _ => []
  | .tx data ready => if ready then [⟨data, s.last⟩] else []
  | .cycle _ => []

/-- The MAC is offered, and ready for, a beat that goes round to the receive side. -/
def Diverges (s : Mac) : Event → Prop
  | .control _ => False
  | .tx _ _ => False
  | .cycle c => c.skip = true ∧ c.txen = true ∧ c.tready = true ∧ s.txO.contents ≠ []

/-- Every cycle hands each beat on once. -/
def HandsOn (s : Mac) : Event → Prop
  | .control _ => True
  | .tx _ _ => True
  | .cycle c => s.OnceEach c

end Mac

/-- A run in which each beat is delivered once: cycle by cycle, and in sum. -/
structure Transmits (events : List Event) : Prop where
  cycles : Throughout Mac.step Mac.HandsOn .start events
  delivered : ∀ now, now <+: events →
    outputs Mac.step Mac.accepted .start now <+: outputs Mac.step Mac.written .start now

/-! ## One cycle -/

namespace Mac

variable {s : Mac} {c : Cycle}

theorem macAccepts_iff : s.macAccepts c = true ↔ c.txen = true ∧ c.tready = true ∧ s.txO.contents ≠ [] := by
  unfold macAccepts tvalid Queue.valid
  cases s.txO.contents <;> cases c.txen <;> cases c.tready <;> simp

/-- Without skip the MAC is the only consumer, and its handshake is the queue's. -/
theorem straight_cycle (straight : c.skip = false) : s.leaves c = s.macAccepts c ∧ s.loopAccepts c = false := by
  unfold leaves macAccepts loopAccepts txOReady tvalid
  rw [straight, if_neg Bool.false_ne_true, Bool.false_and, Bool.false_and, Bool.and_comm c.tready, Bool.and_assoc]
  exact ⟨rfl, rfl⟩

/-- In skip mode the queue follows the receive side alone. -/
theorem skip_cycle (skip : c.skip = true) : s.leaves c = s.loopAccepts c := by
  unfold leaves loopAccepts txOReady rxIValid
  rw [skip, if_pos rfl, if_pos rfl, Bool.true_and]

/-- A beat is handed on once unless the MAC accepts one that goes round. -/
theorem onceEach_iff : s.OnceEach c ↔ ¬ (c.skip = true ∧ s.macAccepts c = true) := by
  cases skip : c.skip with
  | false =>
    obtain ⟨leaves, loop⟩ := straight_cycle (s := s) skip
    have once : s.OnceEach c := by
      constructor
      · rw [leaves, loop, Bool.xor_false]
      · intro stays
        rw [leaves] at stays
        exact ⟨stays, loop⟩
    simp [once]
  | true =>
    have leaves := skip_cycle (s := s) skip
    constructor
    · intro once
      obtain ⟨leaves_iff, stays⟩ := once
      rw [leaves] at leaves_iff stays
      cases loop : s.loopAccepts c <;> cases mac : s.macAccepts c <;> simp_all
    · intro quiet
      have mac : s.macAccepts c = false := by simpa using quiet
      constructor
      · rw [leaves, mac, Bool.false_xor]
      · intro stays
        rw [leaves] at stays
        exact ⟨mac, stays⟩

theorem handsOn_iff (s : Mac) (e : Event) : s.HandsOn e ↔ ¬ s.Diverges e := by
  cases e with
  | control last => simp [HandsOn, Diverges]
  | tx data ready => simp [HandsOn, Diverges]
  | cycle c => rw [HandsOn, Diverges, onceEach_iff, macAccepts_iff]

/-- What the consumers of a beat accept is what leaves. -/
theorem accepted_eq_delivers (once : s.OnceEach c) : s.accepted (.cycle c) = s.txO.delivers (s.txOReady c) := by
  obtain ⟨leaves_iff, stays⟩ := once
  rw [Queue.delivers_eq, accepted, ← leaves]
  cases leaves : s.leaves c with
  | false =>
    obtain ⟨mac, loop⟩ := stays leaves
    simp [mac, loop]
  | true =>
    have one := leaves_iff.mp leaves
    cases mac : s.macAccepts c <;> cases loop : s.loopAccepts c <;> simp_all

/-- The beats on their way to a consumer. -/
def held (s : Mac) : List EtherBeat := s.txO.contents ++ s.txQ

/-- What `txO` takes over is the front of `txQ`. -/
theorem accepts_txQ (s : Mac) (c : Cycle) :
    s.txO.accepts (s.txQDeq c) ++ s.txQ.drop (s.txO.accepts (s.txQDeq c)).length = s.txQ := by
  unfold Queue.accepts txQDeq
  cases s.txO.ready <;> cases c.crossed <;> cases s.txQ <;> simp

/-- What leaves `txO`, whoever takes it. -/
def leaving (s : Mac) : Event → List EtherBeat
  | .control _ => []
  | .tx _ _ => []
  | .cycle c => s.txO.delivers (s.txOReady c)

/-- The queues lose nothing and make nothing up, in skip mode or not. -/
theorem step_leaves (s : Mac) (e : Event) : s.held ++ s.written e = s.leaving e ++ (s.step e).held := by
  cases e with
  | control last => exact List.append_nil s.held
  | tx data ready =>
    cases ready with
    | true => exact List.append_assoc s.txO.contents s.txQ [⟨data, s.last⟩]
    | false => exact List.append_nil s.held
  | cycle c =>
    have crossing := s.accepts_txQ c
    have queue := s.txO.conserves (s.txQDeq c) (s.txOReady c)
    calc s.held ++ s.written (.cycle c)
        = s.txO.contents ++ s.txQ := List.append_nil s.held
      _ = s.txO.contents ++ s.txO.accepts (s.txQDeq c) ++ s.txQ.drop (s.txO.accepts (s.txQDeq c)).length := by
        rw [List.append_assoc, crossing]
      _ = s.leaving (.cycle c) ++ (s.step (.cycle c)).held := by
        rw [queue, List.append_assoc]
        rfl

theorem step_conserves (s : Mac) (e : Event) (once : s.HandsOn e) :
    s.held ++ s.written e = s.accepted e ++ (s.step e).held := by
  have same : s.accepted e = s.leaving e := by
    cases e with
    | control last => rfl
    | tx data ready => rfl
    | cycle c => exact accepted_eq_delivers once
  rw [same, step_leaves]

end Mac

/-! ## Runs -/

/-- **The transmit path delivers each beat once** in exactly the runs in which the MAC never meets, in skip mode,
a beat it is enabled and ready for. -/
theorem transmits_iff (events : List Event) :
    Transmits events ↔ Throughout Mac.step (fun s e => ¬ s.Diverges e) .start events := by
  constructor
  · intro transmits
    exact transmits.cycles.mono fun s e once => (s.handsOn_iff e).mp once
  · intro quiet
    have cycles : Throughout Mac.step Mac.HandsOn .start events :=
      quiet.mono fun s e apart => (s.handsOn_iff e).mpr apart
    constructor
    · exact cycles
    · intro now part
      have each := (cycles.part part).mono Mac.step_conserves
      have balance := outputs_conserved each
      exact ⟨_, balance.symm⟩

/-- A beat that the MAC accepts while it goes round to the receive side. -/
def doubled : List Event :=
  let idle : Cycle := ⟨false, false, false, false, none, true, false⟩
  let both : Cycle := ⟨true, false, true, true, none, false, false⟩
  [.tx 0 true, .cycle idle, .cycle both]

theorem doubled_not_transmits : ¬ Transmits doubled := by
  intro transmits
  have delivered := transmits.delivered doubled (List.prefix_refl _)
  exact absurd delivered (by decide)

end Zcu102.Ethernet
