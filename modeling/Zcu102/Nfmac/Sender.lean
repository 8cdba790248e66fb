import Zcu102.Nfmac.Tx

/-!
# What the transmitter sends

Seen from the line, the transmitter is a small machine: it remembers in which lane the
next frame can start and the deficit idle count, a cycle without a frame puts out eight
idle characters, and a packet puts out its frame with the gap after it. The two modules
of `tx.v` do what this machine does (`Between.plan`, `sends_plan`), and what is wanted of
the line is proved about it: the frames are there, in order and aligned, and the gaps
between them are twelve characters long on average, three of deficit allowed.
-/

namespace Zcu102.Nfmac
set_option autoImplicit false
open Zcu102.Sim Axis2xgmii

/-! ## The abstract sender -/

/-- What the ready cycles of the stream bring. -/
inductive Event
  | idle
  | packet (p : Packet)

namespace Event

def offered : Event → List (Option Beat)
  | .idle => [none]
  | .packet p => p.beats.map some

def packet? : Event → Option Packet
  | .idle => none
  | .packet p => some p

end Event

structure Sender where
  lane4 : Bool
  dic : BitVec 2

namespace Sender

/-- The lane of the terminate character of a frame that starts now. -/
def tLane (s : Sender) (p : Packet) : ℕ := Axis2xgmii.tLane s.lane4 p.frame.length

def step (s : Sender) : Event → Sender
  | .idle => { lane4 := false, dic := paid s.lane4 s.dic }
  | .packet p => { lane4 := nextLane4 (s.tLane p) s.dic, dic := nextDic (s.tLane p) s.dic }

def out (s : Sender) : Event → List Symbol
  | .idle => idles 8
  | .packet p => lead s.lane4 ++ framed (p.frame ++ fcs p.frame) ++ idles (gapIdles (s.tLane p) s.dic)

def start : Sender := { lane4 := false, dic := 0#2 }

end Sender

/-! ## The modules do what it does -/

namespace Tx

theorem Between.event {t : Tx} {pend : List Symbol} {s : Sender} (between : t.Between pend s.lane4 s.dic) {is : List Axis}
    {e : Event} {rest : List (Option Beat)} (offers : t.transfers is = e.offered ++ rest) (more : rest ≠ []) :
    ∃ t' is' now pend', is = now ++ is' ∧ runs next t now = t' ∧ t'.transfers is' = rest ∧
      t'.Between pend' (s.step e).lane4 (s.step e).dic ∧ t.emitted now ++ pend' = pend ++ s.out e := by
  cases e with
  | idle =>
    obtain ⟨i, is, rfl, beat, later⟩ := take_one between.quiet.tready offers
    obtain ⟨pend', between', out⟩ := between.idle (beat_none beat)
    refine ⟨t.next i, is, [i], pend', rfl, rfl, later, between', ?_⟩
    have first : t.emitted [i] = (t.next i).axis2xgmii.symbols := List.append_nil _
    rw [first, out]
    rfl
  | packet p => exact between.frame offers more

/-- **Whatever comes, the modules follow the sender.** -/
theorem Between.plan {t : Tx} {pend : List Symbol} {s : Sender} (between : t.Between pend s.lane4 s.dic) {is : List Axis}
    {plan : List Event} {rest : List (Option Beat)} (offers : t.transfers is = plan.flatMap Event.offered ++ rest)
    (more : rest ≠ []) :
    ∃ t' is' now pend', is = now ++ is' ∧ runs next t now = t' ∧ t'.transfers is' = rest ∧
      t'.Between pend' (runs Sender.step s plan).lane4 (runs Sender.step s plan).dic ∧
      t.emitted now ++ pend' = pend ++ outputs Sender.step Sender.out s plan := by
  induction plan generalizing t s is pend with
  | nil => exact ⟨t, is, [], pend, rfl, rfl, offers, between, (List.append_nil _).symm⟩
  | cons e plan ih =>
    rw [List.flatMap_cons, List.append_assoc] at offers
    obtain ⟨t₁, is₁, now₁, pend₁, rfl, run₁, offers₁, between₁, out₁⟩ :=
      between.event offers (List.append_ne_nil_of_right_ne_nil _ more)
    obtain ⟨t', is', now', pend', rfl, run', offers', between', out'⟩ := ih between₁ offers₁
    refine ⟨t', is', now₁ ++ now', pend', (List.append_assoc _ _ _).symm, ?_, offers', between', ?_⟩
    · rw [runs_append, run₁, run']
    · have both : t.emitted (now₁ ++ now') = t.emitted now₁ ++ t₁.emitted now' := by
        rw [emitted, outputs_append, run₁]
        rfl
      rw [both, List.append_assoc, out', ← List.append_assoc, out₁, List.append_assoc]
      rfl

/-- A ready module has taken something from every cycle. -/
theorem nothing_left {t : Tx} {is : List Axis} (ready : t.axisTready = true) (offers : t.transfers is = []) : is = [] := by
  cases is with
  | nil => rfl
  | cons i is =>
    rw [transfers, outputs, ready] at offers
    cases offers

/-- Two idle cycles put out all that was still pending. -/
theorem Between.flush {t : Tx} {pend : List Symbol} {lane4 : Bool} {dic : BitVec 2} (between : t.Between pend lane4 dic)
    {is : List Axis} (offers : t.transfers is = [none, none]) : t.emitted is = pend := by
  obtain ⟨i, is, rfl, beat, later⟩ := take_one between.quiet.tready offers
  obtain ⟨pend₁, between₁, out₁⟩ := between.idle (beat_none beat)
  obtain ⟨j, is, rfl, beat, last⟩ := take_one between₁.quiet.tready later
  obtain ⟨pend₂, between₂, out₂⟩ := between₁.idle (beat_none beat)
  have done : is = [] := nothing_left between₂.quiet.tready last
  subst done
  have two : t.emitted [i, j] = (t.next i).axis2xgmii.symbols ++ ((t.next i).next j).axis2xgmii.symbols :=
    congrArg _ (List.append_nil _)
  have all : t.emitted [i, j] ++ pend₂ = pend ++ (idles 8 ++ idles 8) := by
    rw [two, List.append_assoc, out₂, ← List.append_assoc, out₁, List.append_assoc]
  have length : (t.emitted [i, j]).length = pend.length := by
    rw [two, List.length_append, symbols, symbols, length_lanes, length_lanes, between.drains.length]
  exact (List.append_inj all length).1

/-- Out of reset, with nothing in the pipeline. -/
structure Fresh (t : Tx) : Prop where
  fsm : t.paddingCtrl.fsm = .sres ∧ t.axis2xgmii.fsm = .sres
  tready : t.paddingCtrl.sAxisTready = false ∧ t.axis2xgmii.tready = false
  tvalid : t.paddingCtrl.mAxisTvalid = false ∧ t.paddingCtrl.mAxisTvalidD0 = false
  idle : t.axis2xgmii.symbols = idles 8

/-- Both resets, and then `rst` alone or both for as long as `rst` lasts: `rst_mod` holds it longer than the stream side
is held. -/
def reset (t : Tx) (i : Axis) (rs : List (Bool × Axis)) : Tx :=
  runs (fun t r => t.clock true r.1 r.2) (t.clock true false i) rs

/-- While `axis2xgmii` is in reset, `padding_ctrl` waits. -/
theorem Fresh.clock {t : Tx} (fresh : t.Fresh) (aresetn : Bool) (i : Axis) : (t.clock true aresetn i).Fresh := by
  obtain ⟨⟨fsm, fsm'⟩, ⟨tready, tready'⟩, ⟨tvalid, tvalid'⟩, idle⟩ := fresh
  cases aresetn with
  | false => exact ⟨⟨rfl, rfl⟩, ⟨rfl, rfl⟩, ⟨rfl, tvalid'⟩, lanes_qwIdle⟩
  | true =>
    have pad : (t.paddingCtrl.next i t.feedback).fsm = .sres ∧ (t.paddingCtrl.next i t.feedback).sAxisTready = false ∧
        (t.paddingCtrl.next i t.feedback).mAxisTvalid = false ∧
        (t.paddingCtrl.next i t.feedback).mAxisTvalidD0 = false := by
      rw [PaddingCtrl.next, fsm, feedback, tready']
      exact ⟨rfl, tready, tvalid', tvalid'⟩
    exact ⟨⟨pad.1, rfl⟩, ⟨pad.2.1, rfl⟩, pad.2.2, lanes_qwIdle⟩

/-- A reset does not clear the second stage of the pipeline. -/
theorem fresh_reset (t : Tx) (i : Axis) (rs : List (Bool × Axis)) (empty : t.paddingCtrl.mAxisTvalidD0 = false) :
    (t.reset i rs).Fresh := by
  have start : (t.clock true false i).Fresh := ⟨⟨rfl, rfl⟩, ⟨rfl, rfl⟩, ⟨rfl, empty⟩, lanes_qwIdle⟩
  exact runs_invariant Fresh start (fun _ r fresh => fresh.clock r.1 r.2) rs

/-- The first two cycles after a reset. -/
theorem Fresh.between {t : Tx} (fresh : t.Fresh) (i j : Axis) :
    (t.next i).axisTready = false ∧ ((t.next i).next j).Between (idles 16) false 0#2 ∧
      t.emitted [i, j] = idles 16 := by
  obtain ⟨⟨fsm, fsm'⟩, ⟨tready, tready'⟩, ⟨tvalid, tvalid'⟩, idle⟩ := fresh
  have mac : (t.next i).axis2xgmii = { t.axis2xgmii with dic := 0#2, tready := true, fsm := .idleL0 } := by
    rw [next_eq, Axis2xgmii.next, fsm']
  have ready : (t.next i).axis2xgmii.Ready false 0#2 := by
    rw [mac]
    exact ⟨rfl, rfl, rfl⟩
  have pad : (t.next i).paddingCtrl.fsm = .sres ∧ (t.next i).paddingCtrl.sAxisTready = false ∧
      (t.next i).paddingCtrl.mAxisTvalid = false ∧ (t.next i).paddingCtrl.mAxisTvalidD0 = false := by
    rw [next_eq, PaddingCtrl.next, fsm, feedback, tready']
    exact ⟨rfl, tready, tvalid', tvalid'⟩
  obtain ⟨fsm₁, tready₁, tvalid₁, tvalid₁'⟩ := pad
  have quiet : ((t.next i).next j).paddingCtrl.Quiet := by
    rw [next_eq (t.next i), PaddingCtrl.next, fsm₁, feedback, ready.tready]
    exact ⟨rfl, rfl, tvalid₁', tvalid₁'⟩
  obtain ⟨word, ready'⟩ := ready.idle (i := (t.next i).paddingCtrl.mAxis) tvalid₁
  have drained : ((t.next i).next j).axis2xgmii.Drains 0 [] false 0#2 := ⟨rfl, ready'⟩
  refine ⟨tready₁, ⟨quiet, drained.idle.idle⟩, ?_⟩
  have still : (t.next i).axis2xgmii.symbols = idles 8 := by
    rw [mac]
    exact idle
  have two : t.emitted [i, j] = (t.next i).axis2xgmii.symbols ++ ((t.next i).next j).axis2xgmii.symbols :=
    congrArg _ (List.append_nil _)
  rw [two, still]
  exact congrArg _ word

/-- **From reset on the modules send what the sender sends.** -/
theorem Fresh.sends_plan {t : Tx} (fresh : t.Fresh) {is : List Axis} {plan : List Event}
    (offers : t.transfers is = plan.flatMap Event.offered ++ [none, none]) :
    t.emitted is = idles 32 ++ outputs Sender.step Sender.out .start plan := by
  obtain ⟨i, is, rfl, offers₁⟩ := wait_one fresh.tready.1 offers (by simp)
  obtain ⟨busy, -, -⟩ := fresh.between i i
  obtain ⟨j, is, rfl, offers₂⟩ := wait_one busy offers₁ (by simp)
  obtain ⟨-, between, out⟩ := fresh.between i j
  obtain ⟨t', is', now, pend, rfl, run, offers', between', out'⟩ :=
    Between.plan (s := .start) between offers₂ (List.cons_ne_nil _ _)
  have last := between'.flush offers'
  have parts : t.emitted (i :: j :: (now ++ is')) =
      t.emitted [i, j] ++ (((t.next i).next j).emitted now ++ t'.emitted is') := by
    rw [← run, emitted, emitted, emitted, emitted, ← outputs_append]
    exact outputs_append next _ t [i, j] (now ++ is')
  rw [parts, out, last, out', ← List.append_assoc, ← idles_add]

end Tx

/-! ## What it sends -/

namespace Sender

/-- The idle characters before the first frame, and the frames with the gaps after them. -/
def laid (s : Sender) : List Event → ℕ × List Sent
  | [] => (0, [])
  | .idle :: plan => (8 + ((s.step .idle).laid plan).1, ((s.step .idle).laid plan).2)
  | .packet p :: plan =>
    (if s.lane4 then 4 else 0,
      { body := p.frame ++ fcs p.frame, gap := gapIdles (s.tLane p) s.dic + ((s.step (.packet p)).laid plan).1 } ::
        ((s.step (.packet p)).laid plan).2)

theorem outputs_eq_laid (s : Sender) (plan : List Event) :
    outputs step out s plan = idles (s.laid plan).1 ++ line (s.laid plan).2 := by
  induction plan generalizing s with
  | nil => rfl
  | cons e plan ih =>
    cases e with
    | idle => rw [outputs, ih, laid, idles_add, List.append_assoc, out]
    | packet p =>
      simp only [outputs, ih, laid, out, lead, line, List.flatMap_cons, idles_add, List.append_assoc]

theorem laid_bodies (s : Sender) (plan : List Event) :
    (s.laid plan).2.map Sent.body = (plan.filterMap Event.packet?).map fun p => p.frame ++ fcs p.frame := by
  induction plan generalizing s with
  | nil => rfl
  | cons e plan ih =>
    cases e with
    | idle => exact ih _
    | packet p => exact congrArg _ (ih _)

theorem gapIdles_aligned (lane4 : Bool) (n : ℕ) (dic : BitVec 2) :
    (n + 13 + gapIdles (Axis2xgmii.tLane lane4 n) dic) % 4 = 0 ∧ 4 ≤ gapIdles (Axis2xgmii.tLane lane4 n) dic := by
  unfold gapIdles short Axis2xgmii.tLane
  cases lane4
  all_goals
    simp only [if_true, if_neg Bool.false_ne_true, decide_eq_true_eq]
    split <;> omega

/-- Frames start in lane 0 or 4. -/
theorem laid_aligned (s : Sender) (plan : List Event) :
    (s.laid plan).1 % 4 = 0 ∧ ∀ x ∈ (s.laid plan).2, x.Aligned ∧ 4 ≤ x.gap := by
  induction plan generalizing s with
  | nil => exact ⟨rfl, fun x mem => absurd mem List.not_mem_nil⟩
  | cons e plan ih =>
    cases e with
    | idle =>
      obtain ⟨first, later⟩ := ih (s.step .idle)
      refine ⟨?_, later⟩
      rw [laid]
      omega
    | packet p =>
      obtain ⟨first, later⟩ := ih (s.step (.packet p))
      obtain ⟨aligned, four⟩ := gapIdles_aligned s.lane4 p.frame.length s.dic
      refine ⟨?_, fun x mem => ?_⟩
      · simp only [laid]
        split <;> rfl
      · rw [laid, List.mem_cons] at mem
        obtain rfl | mem := mem
        · refine ⟨?_, Nat.le_add_right_of_le four⟩
          simp only [Sent.Aligned, List.length_append, length_fcs, tLane]
          omega
        · exact later x mem

/-- A list of frames that starts with a deficit `d`: each gap gives twelve characters but for what is left for later,
three at most. -/
def Paced : ℕ → List Sent → Prop
  | _, [] => True
  | _, [_] => True
  | d, x :: y :: rest => ∃ d', d' ≤ 3 ∧ 12 + d ≤ x.gap + 1 + d' ∧ Paced d' (y :: rest)

theorem Paced.later {d : ℕ} {pre rest : List Sent} (paced : Paced d (pre ++ rest)) (small : d ≤ 3) :
    ∃ d', d' ≤ 3 ∧ Paced d' rest := by
  induction pre generalizing d with
  | nil => exact ⟨d, small, paced⟩
  | cons x pre ih =>
    cases all : pre ++ rest with
    | nil => exact ⟨0, by decide, by rw [(List.append_eq_nil_iff.mp all).2]; trivial⟩
    | cons y more =>
      rw [List.cons_append, all] at paced
      obtain ⟨d', small', -, paced'⟩ := paced
      rw [← all] at paced'
      exact ih paced' small'

theorem Paced.sum {d : ℕ} {block post : List Sent} (paced : Paced d (block ++ post)) (more : post ≠ []) (small : d ≤ 3) :
    12 * block.length + d ≤ (block.map fun x => x.gap + 1).sum + 3 := by
  induction block generalizing d with
  | nil => simpa using small
  | cons x block ih =>
    cases all : block ++ post with
    | nil => exact absurd (List.append_eq_nil_iff.mp all).2 more
    | cons y rest =>
      rw [List.cons_append, all] at paced
      obtain ⟨d', small', here, paced'⟩ := paced
      rw [← all] at paced'
      have later := ih paced' small'
      rw [List.length_cons, List.map_cons, List.sum_cons]
      omega

theorem paid_le (lane4 : Bool) (dic : BitVec 2) :
    dic.toNat + (if lane4 then 4 else 0) ≤ 8 + (paid lane4 dic).toNat := by
  revert lane4 dic
  decide

theorem laid_paced (s : Sender) (plan : List Event) :
    ∃ d, d ≤ 3 ∧ Paced d (s.laid plan).2 ∧
      ((s.laid plan).2 ≠ [] → s.dic.toNat + (if s.lane4 then 4 else 0) ≤ (s.laid plan).1 + d) := by
  induction plan generalizing s with
  | nil => exact ⟨0, by decide, trivial, fun nonempty => absurd rfl nonempty⟩
  | cons e plan ih =>
    cases e with
    | idle =>
      obtain ⟨d, small, paced, before⟩ := ih (s.step .idle)
      refine ⟨d, small, paced, fun nonempty => ?_⟩
      have later := before nonempty
      have now := paid_le s.lane4 s.dic
      rw [laid]
      simp only [step, Bool.false_eq_true, if_false] at later ⊢
      omega
    | packet p =>
      obtain ⟨d, small, paced, before⟩ := ih (s.step (.packet p))
      have balance := gap_balance (t := s.tLane p) (Nat.mod_lt _ (by decide)) s.dic
      refine ⟨s.dic.toNat, Nat.le_of_lt_succ s.dic.isLt, ?_, fun _ => ?_⟩
      · simp only [laid]
        cases rest : ((s.step (.packet p)).laid plan).2 with
        | nil => trivial
        | cons y more =>
          have next : (nextDic (s.tLane p) s.dic).toNat + (if nextLane4 (s.tLane p) s.dic then 4 else 0) ≤
              ((s.step (.packet p)).laid plan).1 + d :=
            before (by rw [rest]; exact List.cons_ne_nil _ _)
          rw [rest] at paced
          refine ⟨d, small, ?_, paced⟩
          show 12 + s.dic.toNat ≤ gapIdles (s.tLane p) s.dic + ((s.step (.packet p)).laid plan).1 + 1 + d
          omega
      · simp only [laid]
        omega

end Sender

namespace Tx

/-! A packet of nine bytes, and a run with two of them as close as the transmitter takes them. -/

/-- All registers clear. -/
def zero : Tx where
  paddingCtrl := {
    fsm := .sres, trn := 0#5, sAxisTready := false, mAxisTdata := 0#64, mAxisTkeep := 0#8, mAxisTvalid := false
    mAxisTlast := false, mAxisTuser := false, mAxisTdataD0 := 0#64, mAxisTvalidD0 := false, lastTkeep := 0#8 }
  axis2xgmii := {
    fsm := .sres, tdataI := 0#64, tkeepI := 0#8, d := 0#64, c := 0#8, auxDw := 0#32, dic := 0#2, crc32 := 0#32
    crc32_7B := 0#32, crc32_6B := 0#32, crc32_5B := 0#32, crc32_4B := 0#32, crc32_3B := 0#32, crc32_2B := 0#32
    crc32_1B := 0#32, auxVarCrc := 0#32, calctedCrc4B := 0#32, crcReg := 0#32, tready := false, lane4Start := false }

def noBeat : Axis := { tdata := 0#64, tkeep := 0#8, tvalid := false, tlast := false, tuser := false }

def nine : Packet where
  words := [0x0807060504030201#64]
  last := 0x09#64
  count := 1
  several := List.cons_ne_nil _ _
  pos := by decide
  le := by decide

/-- The beats of `nine` and `n` cycles after them. -/
def nineThen (n : ℕ) : List Axis :=
  [{ tdata := 0x0807060504030201#64, tkeep := 0xff#8, tvalid := true, tlast := false, tuser := false },
    { tdata := 0x09#64, tkeep := 0x01#8, tvalid := true, tlast := true, tuser := false }] ++ List.replicate n noBeat

def twoNines (n : ℕ) : List Axis := [noBeat, noBeat] ++ nineThen 8 ++ nineThen n

/-! The transmitter comes out of a reset, before which its pipeline was empty. It is offered packets of two beats or
more, each in ready cycles in a row, and at the end two ready cycles bring no beat. -/

section Plan

variable (t : Tx) (i : Axis) (rs : List (Bool × Axis)) (empty : t.paddingCtrl.mAxisTvalidD0 = false) (is : List Axis)
  (plan : List Event) (offers : (t.reset i rs).transfers is = plan.flatMap Event.offered ++ [none, none])

include empty offers

theorem emits_laid : (t.reset i rs).emitted is =
    idles (32 + (Sender.start.laid plan).1) ++ line (Sender.start.laid plan).2 := by
  rw [(fresh_reset t i rs empty).sends_plan offers, Sender.outputs_eq_laid, ← List.append_assoc, ← idles_add]

/-- **The transmitter sends the packets it is given**, each padded to sixty bytes and followed by its check sequence, in
order, with nothing between the frames but idle characters, and every frame in lane 0 or 4. -/
theorem sends_packets :
    ∃ before sent, (t.reset i rs).emitted is = idles before ++ line sent ∧
      sent.map Sent.body = (plan.filterMap Event.packet?).map (fun p => p.frame ++ fcs p.frame) ∧
      before % 4 = 0 ∧ ∀ x ∈ sent, x.Aligned ∧ 4 ≤ x.gap := by
  obtain ⟨first, aligned⟩ := Sender.laid_aligned .start plan
  refine ⟨32 + (Sender.start.laid plan).1, (Sender.start.laid plan).2, emits_laid t i rs empty is plan offers,
    Sender.laid_bodies .start plan, ?_, aligned⟩
  omega

/-- **The gaps are twelve characters on average**: over any frames in a row, terminate characters counted, three at most
are missing. -/
theorem gaps_average :
    ∃ before sent, (t.reset i rs).emitted is = idles before ++ line sent ∧
      sent.length = (plan.filterMap Event.packet?).length ∧
      ∀ pre block post, sent = pre ++ block ++ post → post ≠ [] →
        12 * block.length ≤ (block.map fun x => x.gap + 1).sum + 3 := by
  obtain ⟨d, small, paced, -⟩ := Sender.laid_paced .start plan
  refine ⟨32 + (Sender.start.laid plan).1, (Sender.start.laid plan).2, emits_laid t i rs empty is plan offers, ?_, ?_⟩
  · rw [← List.length_map (f := Sent.body), Sender.laid_bodies, List.length_map]
  · intro pre block post split more
    rw [split, List.append_assoc] at paced
    obtain ⟨d', small', paced'⟩ := paced.later small
    have sum := paced'.sum more small'
    omega

end Plan

theorem sends_two :
    (zero.reset noBeat [(true, noBeat)]).transfers (twoNines 11) =
        [Event.packet nine, .packet nine].flatMap Event.offered ++ [none, none] ∧
      ∃ before sent, (zero.reset noBeat [(true, noBeat)]).emitted (twoNines 11) = idles before ++ line sent ∧
        sent.map Sent.body = [nine.frame ++ fcs nine.frame, nine.frame ++ fcs nine.frame] ∧
        before % 4 = 0 ∧ ∀ x ∈ sent, x.Aligned ∧ 4 ≤ x.gap :=
  ⟨by decide +kernel,
    sends_packets zero noBeat [(true, noBeat)] rfl (twoNines 11) [.packet nine, .packet nine] (by decide +kernel)⟩

theorem gaps_average_two :
    ∃ before sent, (zero.reset noBeat [(true, noBeat)]).emitted (twoNines 11) = idles before ++ line sent ∧
      sent.length = 2 ∧
      ∀ pre block post, sent = pre ++ block ++ post → post ≠ [] →
        12 * block.length ≤ (block.map fun x => x.gap + 1).sum + 3 :=
  gaps_average zero noBeat [(true, noBeat)] rfl (twoNines 11) [.packet nine, .packet nine] (by decide +kernel)

end Tx

end Zcu102.Nfmac
