import Zcu102.Ethernet.Transmit
import Zcu102.Nfmac.Handshake
import Zcu102.Nfmac.Link
import Zcu102.Nfmac.Stream
import Zcu102.Sim.Interleaving

/-!
# From software to software

`EthernetMAC` as a whole, with the modules of its MAC: what software writes to the `tx`
register goes through the queues to the transmitter, which says itself when it is ready,
and what the receiver delivers goes through other queues to the `rx` register. In skip
mode the beats of the one way go round into the other. The receive side ignores `tkeep`,
`tuser` and whether its queue has room.
-/

namespace Zcu102.Ethernet
set_option autoImplicit false
open Zcu102.Sim
open Nfmac (Tx Axis Beat Packet Word Xgmii2axis gather leftover)

/-! ## The model -/

structure Port where
  mac : Mac
  tx : Tx
  rx : Xgmii2axis
  rxQ : List EtherBeat

namespace Port

/-- The inputs of a cycle of the clock of the MAC. -/
structure Clock where
  txen : Bool
  rxen : Bool
  skip : Bool
  word : Word
  /-- Whether the front of `txQ` shows. -/
  crossed : Bool
  rxQReady : Bool
  /-- What an empty `txO` shows. -/
  stale : EtherBeat

/-- An edge of the bus clock at which software sets `last`, writes the `tx` register, for which `txQ` may be ready, or
reads the `rx` register, where the front of `rxQ` may show; or a cycle of the clock of the MAC. -/
inductive Event
  | control (last : Bool)
  | tx (data : BitVec 64) (ready : Bool)
  | rx (shows : Bool)
  | clock (c : Clock)

/-- What a reset finds, and what comes while it lasts. -/
structure Before where
  tx : Tx
  axis : Axis
  axes : List (Bool × Axis)
  rx : Xgmii2axis
  word : Word
  words : List (Bool × Word)

/-- The receiver at the end of a reset: both resets, and then `rst` alone or both. -/
def Before.receiver (x : Before) : Xgmii2axis :=
  runs (fun r w => r.clock true w.1 w.2) (x.rx.clock true false x.word) x.words

/-- A port out of reset. The queues are empty. -/
def Before.port (x : Before) : Port := ⟨.start, x.tx.reset x.axis x.axes, x.receiver, []⟩

variable (s : Port)

/-- `rx_axis_tvalid`, `rx_axis_tdata` and `rx_axis_tlast`. -/
def received : Option EtherBeat := if s.rx.tvalid then some { data := s.rx.tdata, last := s.rx.tlast } else none

/-- The cycle as the queues see it: `tx_axis_tready` comes from the transmitter, and a beat from the receiver. -/
def inputs (c : Clock) : Cycle where
  txen := c.txen
  rxen := c.rxen
  skip := c.skip
  tready := s.tx.axisTready
  received := s.received
  crossed := c.crossed
  rxQReady := c.rxQReady

/-- The stream to the transmitter. -/
def axis (c : Clock) : Axis where
  tdata := (s.mac.txO.contents.head?.getD c.stale).data
  tkeep := 0xff#8
  tvalid := s.mac.tvalid (s.inputs c)
  tlast := (s.mac.txO.contents.head?.getD c.stale).last
  tuser := false

def step : Event → Port
  | .control last => { s with mac := s.mac.step (.control last) }
  | .tx data ready => { s with mac := s.mac.step (.tx data ready) }
  | .rx shows => if shows then { s with rxQ := s.rxQ.drop 1 } else s
  | .clock c =>
    { mac := s.mac.step (.cycle (s.inputs c))
      tx := s.tx.next (s.axis c)
      rx := s.rx.next c.word
      rxQ := s.rxQ ++ s.mac.rxI.delivers c.rxQReady }

/-! ## What goes in and comes out -/

/-- What the event brings to the transmitter. -/
def axes : Event → List Axis
  | .clock c => [s.axis c]
  | _ => []

/-- What it brings on the line. -/
def line : Event → List Word
  | .clock c => [c.word]
  | _ => []

/-- The words that go out on the line. -/
def words (es : List Event) : List Word := s.tx.words (outputs step axes s es)

/-- What the ready cycles of the transmitter bring. -/
def transfers (es : List Event) : List (Option Beat) := s.tx.transfers (outputs step axes s es)

def writes : Event → List EtherBeat
  | .tx data ready => s.mac.written (.tx data ready)
  | _ => []

/-- The beats written to the `tx` register. -/
def written (es : List Event) : List EtherBeat := outputs step writes s es

def popped : Event → List EtherBeat
  | .rx shows => if shows then s.rxQ.take 1 else []
  | _ => []

/-- What software gets from the `rx` register. The `last` of a beat is not to be had. -/
def reads (es : List Event) : List (BitVec 64) := (outputs step popped s es).map EtherBeat.data

/-- Skip mode is off. -/
def Straight : Event → Prop
  | .clock c => c.skip = false
  | _ => True

instance : (e : Event) → Decidable (Straight e)
  | .clock c => inferInstanceAs (Decidable (c.skip = false))
  | .control _ => .isTrue trivial
  | .tx _ _ => .isTrue trivial
  | .rx _ => .isTrue trivial

end Port

/-- A beat as the stream has it. -/
def EtherBeat.beat (b : EtherBeat) : Beat := { tdata := b.data, tkeep := 0xff#8, tlast := b.last, tuser := false }

/-! A packet of eight beats, and a run in which software writes it. -/

def eight : Packet where
  words := [1#64, 2#64, 3#64, 4#64, 5#64, 6#64, 7#64]
  last := 8#64
  count := 8
  several := List.cons_ne_nil _ _
  pos := by decide
  le := by decide

namespace Port

/-- All registers clear before the reset. -/
def quiet : Before where
  tx := Tx.zero
  axis := Tx.noBeat
  axes := [(true, Tx.noBeat)]
  rx := Xgmii2axis.zero
  word := ⟨Nfmac.qwIdleD, Nfmac.qwIdleC⟩
  words := [(true, ⟨Nfmac.qwIdleD, Nfmac.qwIdleC⟩)]

/-- A cycle with everything enabled, and a word on the line. -/
def busy (w : Word) : Clock where
  txen := true
  rxen := true
  skip := false
  word := w
  crossed := true
  rxQReady := true
  stale := ⟨0#64, false⟩

/-- Software writes the beats of `eight`, and `n` cycles follow. -/
def writesEight (n : ℕ) : List Event :=
  .control false :: eight.words.map (.tx · true) ++ [.control true, .tx eight.last true] ++
    List.replicate n (.clock (busy ⟨Nfmac.qwIdleD, Nfmac.qwIdleC⟩))

variable {s : Port}

/-! ## The way out -/

theorem tx_step (s : Port) (e : Event) : (s.step e).tx = runs Tx.next s.tx (s.axes e) := by
  cases e with
  | control last => rfl
  | tx data ready => rfl
  | rx shows => cases shows <;> rfl
  | clock c => rfl

/-- The beats among what the event brings to a ready transmitter. -/
def taken (s : Port) (e : Event) : List Beat := (s.tx.transfers (s.axes e)).filterMap id

theorem transfers_eq (s : Port) (es : List Event) : (s.transfers es).filterMap id = outputs step taken s es := by
  induction es generalizing s with
  | nil => rfl
  | cons e es ih =>
    have split : s.transfers (e :: es) = s.tx.transfers (s.axes e) ++ (s.step e).transfers es := by
      rw [transfers, outputs, Tx.transfers, outputs_append, ← tx_step]
      rfl
    rw [split, List.filterMap_append, ih, outputs, taken]

/-- What leaves the queue for the transmitter. -/
def left (s : Port) : Event → List EtherBeat
  | .clock c => s.mac.leaving (.cycle (s.inputs c))
  | _ => []

theorem step_left (s : Port) (e : Event) : s.mac.held ++ s.writes e = s.left e ++ (s.step e).mac.held := by
  cases e with
  | control last => exact List.append_nil _
  | tx data ready => exact s.mac.step_leaves (.tx data ready)
  | rx shows => cases shows <;> exact List.append_nil _
  | clock c => exact s.mac.step_leaves (.cycle (s.inputs c))

theorem written_left (s : Port) (es : List Event) :
    s.mac.held ++ s.written es = outputs step left s es ++ (runs step s es).mac.held :=
  outputs_conserved (Throughout.of_forall step_left s es)

/-- Without skip mode the transmitter takes what leaves the queue. -/
theorem taken_eq (s : Port) (e : Event) (straight : Straight e) : s.taken e = (s.left e).map EtherBeat.beat := by
  cases e with
  | clock c =>
    have one : s.tx.transfers [s.axis c] = if s.tx.axisTready then [(s.axis c).beat] else [] := List.append_nil _
    have ready : s.mac.txOReady (s.inputs c) = (s.tx.axisTready && c.txen) :=
      if_neg (by rw [show (s.inputs c).skip = false from straight]; exact Bool.false_ne_true)
    have leaves : s.mac.leaving (.cycle (s.inputs c)) =
        if s.tx.axisTready && c.txen then s.mac.txO.contents.take 1 else [] := by
      rw [Mac.leaving, ready]
      rfl
    have valid : s.mac.tvalid (s.inputs c) = (!s.mac.txO.contents.isEmpty && c.txen) := rfl
    rw [taken, axes, one, left, leaves, Axis.beat, axis, valid]
    cases s.tx.axisTready with
    | false => rfl
    | true =>
      cases c.txen with
      | false => rw [Bool.and_false]; rfl
      | true => cases s.mac.txO.contents <;> rfl
  | _ => rfl

/-- **Nothing is lost or doubled on the way to the transmitter**: what was in the queues and what is written is what
the transmitter takes and what is in the queues then. -/
theorem balance {es : List Event} (straight : ∀ e ∈ es, Straight e) :
    (s.mac.held ++ s.written es).map EtherBeat.beat =
      (s.transfers es).filterMap id ++ (runs step s es).mac.held.map EtherBeat.beat := by
  have same : outputs step taken s es = (outputs step left s es).map EtherBeat.beat :=
    (outputs_congr (Throughout.of_mem Straight taken_eq s straight)).trans (outputs_map _ step left s es)
  rw [written_left, List.map_append, transfers_eq, same]

/-! ## How soon a beat is taken -/

/-- A cycle of the clock of the MAC. -/
def cycle (s : Port) (c : Clock) : Port := s.step (.clock c)

/-- The transmitter is enabled, and skip mode is off. -/
def Enables (c : Clock) : Prop := c.txen = true ∧ c.skip = false

/-- A beat is at the front of the queue for the transmitter. -/
structure Waits (b : EtherBeat) (s : Port) : Prop where
  held : s.tx.Held
  front : s.mac.txO.contents.head? = some b

/-- While the transmitter is not ready the beat stays in the queue. -/
theorem Waits.cycle {b : EtherBeat} (waits : Waits b s) {c : Clock} (enables : Enables c)
    (busy : s.tx.axisTready = false) : Waits b (s.cycle c) ∧ (s.cycle c).tx.wait < s.tx.wait := by
  have stays : s.mac.txOReady (s.inputs c) = false := by
    rw [Mac.txOReady, show (s.inputs c).skip = false from enables.2, show (s.inputs c).tready = false from busy]
    rfl
  have after : (s.cycle c).mac.txO = s.mac.txO.step (s.mac.txQDeq (s.inputs c)) (s.mac.txOReady (s.inputs c)) := rfl
  obtain ⟨held, less⟩ := waits.held.next (s.axis c)
  refine ⟨⟨held, ?_⟩, less busy⟩
  rw [after, stays]
  exact (List.head?_append).trans (by rw [if_neg Bool.false_ne_true, waits.front, Option.some_or])

/-- A beat the receiver shows as the clock comes. -/
def came (s : Port) : Event → List EtherBeat
  | .clock _ => s.received.toList
  | _ => []

/-- What goes into the queue for received beats. -/
def kept (s : Port) : Event → List EtherBeat
  | .clock c => s.mac.rxI.accepts (s.mac.rxIBits (s.inputs c))
  | _ => []

/-- The beats on their way to software. -/
def arriving (s : Port) : List EtherBeat := s.rxQ ++ s.mac.rxI.contents

theorem step_arriving (s : Port) (e : Event) : s.arriving ++ s.kept e = s.popped e ++ (s.step e).arriving := by
  cases e with
  | control last => exact List.append_nil _
  | tx data ready =>
    refine (List.append_nil _).trans ?_
    cases ready <;> rfl
  | rx shows =>
    cases shows with
    | false => exact List.append_nil _
    | true =>
      show s.rxQ ++ s.mac.rxI.contents ++ [] = s.rxQ.take 1 ++ (s.rxQ.drop 1 ++ s.mac.rxI.contents)
      rw [List.append_nil, ← List.append_assoc, List.take_append_drop]
  | clock c =>
    have queue := s.mac.rxI.conserves (s.mac.rxIBits (s.inputs c)) c.rxQReady
    show s.rxQ ++ s.mac.rxI.contents ++ s.mac.rxI.accepts (s.mac.rxIBits (s.inputs c)) = [] ++ (s.rxQ ++
      s.mac.rxI.delivers c.rxQReady ++ (s.mac.rxI.step (s.mac.rxIBits (s.inputs c)) c.rxQReady).contents)
    rw [List.append_assoc, queue, List.nil_append, List.append_assoc]

theorem kept_arrives (s : Port) (es : List Event) :
    s.arriving ++ outputs step kept s es = outputs step popped s es ++ (runs step s es).arriving :=
  outputs_conserved (Throughout.of_forall step_arriving s es)

theorem kept_port (x : Before) (es : List Event) :
    outputs step kept x.port es = outputs step popped x.port es ++ (runs step x.port es).arriving :=
  x.port.kept_arrives es

theorem data_received (s : Port) : s.received.toList.map EtherBeat.data = s.rx.beat.map Beat.tdata := by
  unfold received Xgmii2axis.beat
  cases s.rx.tvalid <;> rfl

/-- The receiver shows what it delivers, the last beat of it when the run is over. -/
theorem came_eq (s : Port) (es : List Event) :
    (outputs step came s es).map EtherBeat.data ++ (runs step s es).received.toList.map EtherBeat.data =
      s.received.toList.map EtherBeat.data ++ (s.rx.delivered (es.flatMap line)).map Beat.tdata := by
  induction es generalizing s with
  | nil => exact (List.append_nil _).symm
  | cons e es ih =>
    have later := ih (s.step e)
    rw [outputs, runs_cons, List.map_append, List.append_assoc, later]
    cases e with
    | control last => rfl
    | tx data ready => rfl
    | rx shows => cases shows <;> rfl
    | clock c =>
      have delivers : s.rx.delivered ((Event.clock c :: es).flatMap line) =
          (s.rx.next c.word).beat ++ (s.rx.next c.word).delivered (es.flatMap line) := rfl
      rw [delivers, List.map_append, data_received (s.step (.clock c))]
      rfl

theorem receiver_reset (x : Before) : x.receiver.Reset ∧ x.receiver.tvalid = false := by
  refine runs_invariant (fun r : Xgmii2axis => r.Reset ∧ r.tvalid = false)
    ⟨Xgmii2axis.reset_clock x.rx false x.word, rfl⟩ ?_ x.words
  rintro r ⟨aresetn, w⟩ ⟨reset, -⟩
  refine ⟨Xgmii2axis.reset_clock r aresetn w, ?_⟩
  show (r.clock true aresetn w).tvalid = false
  rw [Xgmii2axis.clock, Xgmii2axis.output]
  split
  · rfl
  · split
    · exact reset.tvalid.1
    · rfl

theorem received_port (x : Before) : x.port.received = none := by
  rw [received, show x.port.rx.tvalid = false from (receiver_reset x).2, if_neg Bool.false_ne_true]

theorem came_port (x : Before) (es : List Event) :
    (outputs step came x.port es).map EtherBeat.data ++ (runs step x.port es).received.toList.map EtherBeat.data =
      (x.receiver.delivered (es.flatMap line)).map Beat.tdata := by
  have shown := x.port.came_eq es
  rwa [received_port] at shown

/-! ### Where what software reads comes from -/

/-- What of it the receiver brought. -/
def fromLine (s : Port) : Event → List EtherBeat
  | .clock c => if c.skip then [] else s.kept (.clock c)
  | _ => []

/-- What of it went round. -/
def looped (s : Port) : Event → List EtherBeat
  | .clock c => if c.skip then s.kept (.clock c) else []
  | _ => []

theorem kept_interleaves (s : Port) (e : Event) : Interleaves (s.kept e) (s.fromLine e) (s.looped e) := by
  cases e with
  | clock c =>
    rw [fromLine, looped]
    cases c.skip with
    | false => exact .of_left _
    | true => exact .of_right _
  | control last => exact .nil
  | tx data ready => exact .nil
  | rx shows => exact .nil

theorem fromLine_sublist (s : Port) (e : Event) : (s.fromLine e).Sublist (s.came e) := by
  cases e with
  | clock c =>
    rw [fromLine]
    split
    · exact List.nil_sublist _
    case isFalse straight =>
      refine (s.mac.rxI.accepts_sublist _).trans ?_
      have off : (s.inputs c).skip = false := Bool.eq_false_of_not_eq_true straight
      rw [Mac.rxIBits, Mac.rxIValid, off]
      simp only [Bool.false_eq_true, if_false]
      split
      · exact List.Sublist.refl _
      · exact List.nil_sublist _
  | control last => exact List.Sublist.refl _
  | tx data ready => exact List.Sublist.refl _
  | rx shows => exact List.Sublist.refl _

theorem looped_sublist (s : Port) (e : Event) : (s.looped e).Sublist (s.left e) := by
  cases e with
  | clock c =>
    rw [looped]
    split
    case isTrue skip =>
      have on : (s.inputs c).skip = true := skip
      rw [kept, left, Mac.leaving, Mac.rxIBits, Mac.rxIValid, Mac.txOReady, on, Queue.accepts, Queue.delivers,
        Queue.valid]
      cases s.mac.rxI.ready with
      | false => exact List.nil_sublist _
      | true => cases s.mac.txO.contents <;> exact List.Sublist.refl _
    · exact List.nil_sublist _
  | control last => exact List.Sublist.refl _
  | tx data ready => exact List.Sublist.refl _
  | rx shows => exact List.Sublist.refl _

theorem looped_straight {es : List Event} (straight : ∀ e ∈ es, Straight e) : outputs step looped s es = [] := by
  induction es generalizing s with
  | nil => rfl
  | cons e es ih =>
    have here := straight e List.mem_cons_self
    have none : s.looped e = [] := by
      cases e with
      | clock c => exact if_neg (by rw [show c.skip = false from here]; exact Bool.false_ne_true)
      | _ => rfl
    rw [outputs, none, ih fun x mem => straight x (List.mem_cons_of_mem e mem)]
    rfl

/-- **What software reads came on the line, or software has written it**: it is made up of words the receiver delivered
and of words written to the `tx` register, each in order and none twice, whatever software does and whatever is on the
line. Words can be lost for want of room. Without skip mode all came on the line. -/
theorem reads_in_order (x : Before) (es : List Event) :
    ∃ received wrote, Interleaves (x.port.reads es) received wrote ∧
      received.Sublist ((x.receiver.delivered (es.flatMap line)).map Beat.tdata) ∧
      wrote.Sublist ((x.port.written es).map EtherBeat.data) ∧ ((∀ e ∈ es, Straight e) → wrote = []) := by
  have both : Interleaves (outputs step kept x.port es) (outputs step fromLine x.port es)
      (outputs step looped x.port es) := outputs_interleaves kept_interleaves x.port es
  rw [kept_port] at both
  obtain ⟨received, wrote, ofLine, ofLoop, front⟩ := both.front
  refine ⟨received.map EtherBeat.data, wrote.map EtherBeat.data, front.map EtherBeat.data, ?_, ?_, fun straight => ?_⟩
  · rw [← came_port]
    exact ((ofLine.sublist.trans (outputs_sublist fromLine_sublist _ es)).map _).trans (List.sublist_append_left _ _)
  · have sum : x.port.written es = outputs step left x.port es ++ (runs step x.port es).mac.held :=
      x.port.written_left es
    rw [sum]
    exact ((ofLoop.sublist.trans (outputs_sublist looped_sublist _ es)).trans (List.sublist_append_left _ _)).map _
  · rw [looped_straight straight] at ofLoop
    rw [List.prefix_nil.mp ofLoop, List.map_nil]

/-! ### When nothing is lost -/

/-- Reception is enabled, skip mode is off, and a beat that comes finds room. -/
def Room (s : Port) : Event → Prop
  | .clock c => c.rxen = true ∧ c.skip = false ∧ (s.rx.tvalid = true → s.mac.rxI.ready = true)
  | _ => True

instance (s : Port) : (e : Event) → Decidable (s.Room e)
  | .clock c => inferInstanceAs (Decidable (c.rxen = true ∧ c.skip = false ∧ _))
  | .control _ => .isTrue trivial
  | .tx _ _ => .isTrue trivial
  | .rx _ => .isTrue trivial

theorem Room.kept_eq {e : Event} (room : s.Room e) : s.kept e = s.came e := by
  cases e with
  | clock c =>
    obtain ⟨rxen, skip, room⟩ := room
    have on : (s.inputs c).rxen = true := rxen
    have off : (s.inputs c).skip = false := skip
    rw [kept, came, Mac.rxIBits, Mac.rxIValid, on, off, Queue.accepts]
    simp only [inputs, received, Bool.false_eq_true, if_false, Bool.and_true]
    cases valid : s.rx.tvalid with
    | false => cases s.mac.rxI.ready <;> rfl
    | true =>
      rw [room valid]
      rfl
  | _ => rfl

/-- With room for every beat, what software has read and what is on its way is what the receiver has delivered. -/
theorem reads_all (x : Before) {es : List Event} (room : Throughout step Room x.port es) :
    (x.receiver.delivered (es.flatMap line)).map Beat.tdata =
      x.port.reads es ++
        ((runs step x.port es).arriving ++ (runs step x.port es).received.toList).map EtherBeat.data := by
  have same : outputs step kept x.port es = outputs step came x.port es :=
    outputs_congr (room.mono fun _ _ room => room.kept_eq)
  rw [← came_port, ← same, kept_port, reads, List.map_append, List.map_append, List.append_assoc]

end Port

/-! ## Both ends -/

/-- The words of a packet. -/
def dataOf (p : Packet) : List (BitVec 64) := p.words ++ [p.last]

theorem beats_of_plan (plan : List Nfmac.Event) (n : ℕ) :
    (plan.flatMap Nfmac.Event.offered ++ List.replicate n none).filterMap id =
      (plan.filterMap Nfmac.Event.packet?).flatMap Packet.beats := by
  induction plan with
  | nil => simp
  | cons e plan ih =>
    rw [List.flatMap_cons, List.append_assoc, List.filterMap_append, ih]
    cases e with
    | idle => rfl
    | packet p =>
      have all : (p.beats.map some).filterMap id = p.beats := by simp
      exact congrArg (· ++ _) all

theorem data_of_beats (p : Packet) : p.beats.map Beat.tdata = dataOf p := by
  rw [Packet.beats, List.map_append, List.map_map]
  exact congrArg (· ++ _) (List.map_id _)

/-- What has been written is what the transmitter took, and what is in the queues. -/
theorem Port.written_plan {s : Port} (empty : s.mac.held = []) {es : List Port.Event}
    (straight : ∀ e ∈ es, Port.Straight e) {plan : List Nfmac.Event} {n : ℕ}
    (offers : s.transfers es = plan.flatMap Nfmac.Event.offered ++ List.replicate n none) :
    (s.written es).map EtherBeat.beat = (plan.filterMap Nfmac.Event.packet?).flatMap Packet.beats ++
      (runs step s es).mac.held.map EtherBeat.beat := by
  have sent := balance (s := s) straight
  rwa [offers, beats_of_plan, empty, List.nil_append] at sent

/-- Packets from the queues have whole words only. -/
theorem count_eq {bs : List EtherBeat} {ps : List Packet} {rest : List Beat}
    (same : bs.map EtherBeat.beat = ps.flatMap Packet.beats ++ rest) {p : Packet} (mem : p ∈ ps) : p.count = 8 := by
  have last : Packet.lastOf p.last p.count ∈ bs.map EtherBeat.beat := by
    rw [same]
    exact List.mem_append_left _ (List.mem_flatMap.mpr ⟨p, mem, List.mem_append_right _ List.mem_cons_self⟩)
  obtain ⟨b, -, beat⟩ := List.mem_map.mp last
  exact Xgmii2axis.keep_inj p.pos p.le (congrArg Beat.tkeep beat).symm

theorem tdata_beat (bs : List EtherBeat) : (bs.map EtherBeat.beat).map Beat.tdata = bs.map EtherBeat.data := by
  rw [List.map_map]
  rfl

/-- A packet of whole words that needs no padding. -/
theorem frame_eq {p : Packet} (whole : p.count = 8) (long : 7 ≤ p.words.length) :
    p.frame = (dataOf p).flatMap (bytes 8) := by
  have size := p.length_bytes
  have full : 60 - p.bytes.length = 0 := by omega
  rw [Packet.frame, full, Packet.bytes, whole, dataOf, List.flatMap_append, List.flatMap_singleton,
    List.take_of_length_le (Nat.le_of_eq (length_bytes 8 _))]
  exact List.append_nil _

/-- **What software writes at one end, software reads at the other**, word for word: what has been read and what is on
its way to be read there, followed by what is in the queues here, is what has been written. The packets have eight
beats or more and do not run dry, the run ends with four ready cycles without a beat, so that nothing is left in the
transmitter, and at the other end reception is enabled and finds room. What goes the other way makes no difference. -/
theorem software_to_software (near far : Port.Before) (empty : near.tx.paddingCtrl.mAxisTvalidD0 = false)
    (es : List Port.Event) (straight : ∀ e ∈ es, Port.Straight e) (plan : List Nfmac.Event)
    (offers : near.port.transfers es = plan.flatMap Nfmac.Event.offered ++ [none, none, none, none])
    (long : ∀ p ∈ plan.filterMap Nfmac.Event.packet?, 7 ≤ p.words.length)
    (fs : List Port.Event) (wired : fs.flatMap Port.line = near.port.words es)
    (room : Throughout Port.step Port.Room far.port fs) :
    (near.port.written es).map EtherBeat.data =
      far.port.reads fs ++
        ((runs Port.step far.port fs).arriving ++ (runs Port.step far.port fs).received.toList).map EtherBeat.data ++
        (runs Port.step near.port es).mac.held.map EtherBeat.data := by
  have reset := (Port.receiver_reset far).1
  obtain ⟨packets, closed⟩ := (Tx.fresh_reset near.tx near.axis near.axes empty).link offers reset
  have taken := Port.written_plan (s := near.port) (n := 4) rfl straight offers
  -- The frames are the words written, and so are the packets the receiver makes of them.
  have frames : gather (([] : List (BitVec 64)).flatMap (bytes 8)) (far.receiver.delivered (fs.flatMap Port.line)) =
      ((plan.filterMap Nfmac.Event.packet?).map dataOf).map fun vs =>
        { payload := vs.flatMap (bytes 8), good := true } := by
    rw [wired, List.map_map]
    refine packets.trans (List.map_congr_left fun p mem => ?_)
    rw [Function.comp_apply, ← frame_eq (count_eq taken mem) (long p mem)]
  have got : (far.receiver.delivered (fs.flatMap Port.line)).map Beat.tdata =
      ((plan.filterMap Nfmac.Event.packet?).map dataOf).flatten :=
    Xgmii2axis.words_of_gather (reset.shaped.delivered _) frames (by rw [wired]; exact closed)
  have written := congrArg (List.map Beat.tdata) taken
  rw [tdata_beat, List.map_append, tdata_beat, List.map_flatMap] at written
  rw [← Port.reads_all far room, got, written, ← List.flatMap_def]
  simp only [data_of_beats]

/-- The other end, where software reads when all words have come. -/
def readsEight : List Port.Event :=
  (Port.quiet.port.words (Port.writesEight 17)).map (fun w => .clock (Port.busy w)) ++ List.replicate 8 (.rx true)

theorem software_to_software_eight : Port.quiet.port.reads readsEight = dataOf eight := by
  have both := software_to_software Port.quiet Port.quiet rfl (Port.writesEight 17) (by decide) [.packet eight]
    (by decide +kernel) (by decide) readsEight
    (by simp [readsEight, List.flatMap_append, List.flatMap_map, Port.line, Port.busy]) (by decide +kernel)
  have sent : (Port.quiet.port.written (Port.writesEight 17)).map EtherBeat.data = dataOf eight := by decide +kernel
  have nothing : (runs Port.step Port.quiet.port (Port.writesEight 17)).mac.held = [] := by decide +kernel
  have done : (runs Port.step Port.quiet.port readsEight).arriving ++
      (runs Port.step Port.quiet.port readsEight).received.toList = [] := by decide +kernel
  rw [sent, nothing, done, List.map_nil, List.append_nil, List.append_nil] at both
  exact both.symm

end Zcu102.Ethernet
