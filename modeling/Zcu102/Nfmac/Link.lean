import Zcu102.Nfmac.Sender
import Zcu102.Nfmac.Receive

/-!
# Two ends of a link

The words of a transmitter go to a receiver. What the one was given the other delivers,
padded as the transmitter pads; and if the line damages frames, by a burst of no more than
32 bits each, the receiver delivers just those as bad.
-/

namespace Zcu102.Nfmac
set_option autoImplicit false
open Zcu102.Sim Axis2xgmii

namespace Tx

/-- The words on the line after each clock. -/
def words (t : Tx) (is : List Axis) : List Word :=
  outputs next (fun t i => [{ d := (t.next i).axis2xgmii.d, c := (t.next i).axis2xgmii.c }]) t is

theorem carried_words (t : Tx) (is : List Axis) : carried (t.words is) = t.emitted is := by
  induction is generalizing t with
  | nil => rfl
  | cons i is ih => exact congrArg _ (ih (t.next i))

end Tx

/-! ## Nothing is lost on the way -/

theorem verdict_sent (frame : List Byte) : verdict (frame ++ fcs frame) = { payload := frame, good := true } := by
  rw [fcs, Xgmii2axis.verdict_append, Xgmii2axis.check, beq_self_eq_true]

theorem Packet.sixty_le (p : Packet) : 60 ≤ p.frame.length := by
  rw [frame, List.length_append, List.length_replicate]
  omega

/-- The words of a run that ends with four cycles without a beat. -/
theorem Tx.carried_plan {t : Tx} (fresh : t.Fresh) {is : List Axis} {plan : List Event}
    (offers : t.transfers is = plan.flatMap Event.offered ++ [none, none, none, none]) :
    carried (t.words is) =
      idles (32 + (Sender.start.laid plan).1) ++ line (Sender.start.laid plan).2 ++ idles 16 := by
  have longer : t.transfers is = (plan ++ [Event.idle, Event.idle]).flatMap Event.offered ++ [none, none] := by
    rw [offers, List.flatMap_append, List.append_assoc]
    rfl
  have flush (s : Sender) : outputs Sender.step Sender.out s [.idle, .idle] = idles 16 := rfl
  rw [Tx.carried_words, fresh.sends_plan longer, outputs_append, flush, Sender.outputs_eq_laid, idles_add]
  simp only [List.append_assoc]

/-- A transmitter and a receiver from reset on. -/
theorem Tx.Fresh.link {t : Tx} (fresh : t.Fresh) {is : List Axis} {plan : List Event}
    (offers : t.transfers is = plan.flatMap Event.offered ++ [none, none, none, none]) {r : Xgmii2axis} (reset : r.Reset) :
    gather [] (r.delivered (t.words is)) =
        (plan.filterMap Event.packet?).map (fun p => { payload := p.frame, good := true }) ∧
      leftover [] (r.delivered (t.words is)) = [] := by
  obtain ⟨first, aligned⟩ := Sender.laid_aligned .start plan
  have bodies := Sender.laid_bodies .start plan
  have fits : ∀ x ∈ (Sender.start.laid plan).2, Xgmii2axis.Fits x := by
    intro x mem
    obtain ⟨lanes, apart⟩ := aligned x mem
    have body : x.body ∈ (Sender.start.laid plan).2.map Sent.body := List.mem_map_of_mem mem
    rw [bodies] at body
    obtain ⟨p, -, same⟩ := List.mem_map.mp body
    have sixty := p.sixty_le
    refine ⟨lanes, apart, ?_⟩
    rw [← same, List.length_append]
    omega
  obtain ⟨packets, closed⟩ := reset.line (Tx.carried_plan fresh offers) (by omega) (by omega) fits
  refine ⟨packets.trans ?_, closed⟩
  have each := congrArg (List.map verdict) bodies
  rw [List.map_map, List.map_map] at each
  exact each.trans (List.map_congr_left fun p _ => verdict_sent p.frame)

/-- **What one end is given, the other delivers**: every packet, once, in order, padded to sixty bytes and found good,
whatever the pauses before and between the packets. A packet has two beats or more and comes without a pause inside,
and the run ends with four ready cycles without a beat. -/
theorem link_delivers (t : Tx) (i : Axis) (rs : List (Bool × Axis)) (empty : t.paddingCtrl.mAxisTvalidD0 = false)
    (is : List Axis) (plan : List Event)
    (offers : (t.reset i rs).transfers is = plan.flatMap Event.offered ++ [none, none, none, none])
    (r : Xgmii2axis) (aresetn : Bool) (w : Word) :
    gather [] ((r.clock true aresetn w).delivered ((t.reset i rs).words is)) =
      (plan.filterMap Event.packet?).map fun p => { payload := p.frame, good := true } :=
  ((Tx.fresh_reset t i rs empty).link offers (Xgmii2axis.reset_clock r aresetn w)).1

theorem link_delivers_two :
    gather [] ((Xgmii2axis.zero.clock true true ⟨qwIdleD, qwIdleC⟩).delivered
      ((Tx.zero.reset Tx.noBeat [(true, Tx.noBeat)]).words (Tx.twoNines 13))) =
      [{ payload := Tx.nine.frame, good := true }, { payload := Tx.nine.frame, good := true }] :=
  link_delivers Tx.zero Tx.noBeat [(true, Tx.noBeat)] rfl (Tx.twoNines 13) [.packet Tx.nine, .packet Tx.nine]
    (by decide +kernel) Xgmii2axis.zero true ⟨qwIdleD, qwIdleC⟩

/-! ## Damage on the line -/

theorem crcBytes_sent (frame : List Byte) : crcBytes crc8023Preset (frame ++ fcs frame) = residue := by
  rw [crcBytes_append]
  exact (crcBytes_eq_residue_iff _ _).mpr rfl

/-- What came differs from what was sent, and only within 32 bits in a row. -/
def Damaged (sent got : List Byte) : Prop :=
  got.length = sent.length ∧ ∃ before burst after, List.zipWith xor (serial sent) (serial got) = before ++ burst ++ after ∧
    true ∉ before ∧ true ∉ after ∧ burst.length ≤ 32 ∧ true ∈ burst

theorem verdict_damaged {frame got : List Byte} (damaged : Damaged (frame ++ fcs frame) got) :
    verdict got = { payload := got.take frame.length, good := false } := by
  obtain ⟨size, before, burst, after, errors, clearBefore, clearAfter, short, flips⟩ := damaged
  rw [List.length_append, length_fcs] at size
  rw [verdict, size, Nat.add_sub_cancel]
  congr 1
  rw [decide_eq_false_iff_not]
  intro good
  have whole : got = got.take frame.length ++ fcs (got.take frame.length) := by
    rw [← good, List.take_append_drop]
  -- Both pass the check, so that the check over the errors is zero.
  have passes : crcBytes crc8023Preset got = residue := by
    rw [whole]
    exact crcBytes_sent _
  have lengths : (serial (frame ++ fcs frame)).length = (serial got).length := by
    rw [length_serial, length_serial, size, List.length_append, length_fcs]
  have zero : divide generator8023 0 (before ++ burst ++ after) = 0 := by
    have linear := divide_xor generator8023 crc8023Preset crc8023Preset lengths
    rw [BitVec.xor_self, errors] at linear
    refine linear.trans ?_
    show crcBytes crc8023Preset (frame ++ fcs frame) ^^^ crcBytes crc8023Preset got = 0
    rw [crcBytes_sent, passes, BitVec.xor_self]
    rfl
  exact divide_burst (g := generator8023) rfl clearBefore clearAfter short flips zero

/-- **Damage within 32 bits is found**: of a line on which frames that fit came as they were sent or damaged, those that
came as they were sent are delivered as good, and the others as bad. -/
theorem damage_found (s : Xgmii2axis) (aresetn : Bool) (w : Word) (ws : List Word) (before : ℕ)
    (frames : List (List Byte × Sent))
    (carries : carried ws = idles before ++ line (frames.map Prod.snd) ++ idles 16) (quiet : 24 ≤ before)
    (aligned : before % 4 = 0) (fits : ∀ x ∈ frames, Xgmii2axis.Fits x.2)
    (came : ∀ x ∈ frames, x.2.body = x.1 ++ fcs x.1 ∨ Damaged (x.1 ++ fcs x.1) x.2.body) :
    gather [] ((s.clock true aresetn w).delivered ws) =
      frames.map fun x => { payload := x.2.body.take x.1.length, good := decide (x.2.body = x.1 ++ fcs x.1) } := by
  rw [((Xgmii2axis.reset_clock s aresetn w).line carries quiet aligned (List.forall_mem_map.mpr fits)).1, List.map_map]
  apply List.map_congr_left
  intro x mem
  rw [Function.comp_apply]
  obtain same | damaged := came x mem
  · rw [same, verdict_sent, List.take_left, decide_eq_true rfl]
  · have differs : x.2.body ≠ x.1 ++ fcs x.1 := by
      intro same
      have bad := verdict_damaged damaged
      rw [same, verdict_sent] at bad
      cases congrArg Received.good bad
    rw [verdict_damaged damaged, decide_eq_false differs]

theorem damage_found_bit :
    gather [] ((Xgmii2axis.zero.clock true true ⟨qwIdleD, qwIdleC⟩).delivered Xgmii2axis.twoFrames) =
      [{ payload := [1#8, 2#8, 3#8, 4#8], good := true }, { payload := [1#8, 2#8, 3#8, 4#8], good := false }] :=
  (damage_found Xgmii2axis.zero true ⟨qwIdleD, qwIdleC⟩ Xgmii2axis.twoFrames 24
    [([1#8, 2#8, 3#8, 4#8], { body := [1#8, 2#8, 3#8, 4#8, 0xcd#8, 0xfb#8, 0x3c#8, 0xb6#8], gap := 11 }),
      ([1#8, 2#8, 3#8, 4#8], { body := [1#8, 2#8, 3#8, 4#8, 0xcc#8, 0xfb#8, 0x3c#8, 0xb6#8], gap := 11 })]
    (by decide +kernel) (by decide) (by decide)
    (List.forall_mem_cons.mpr ⟨by decide, List.forall_mem_cons.mpr ⟨by decide, List.forall_mem_nil _⟩⟩)
    (List.forall_mem_cons.mpr ⟨.inl (by decide +kernel), List.forall_mem_cons.mpr
      ⟨.inr ⟨by decide, List.replicate 32 false, [true], List.replicate 31 false, by decide +kernel, by decide, by decide,
        by decide, by decide⟩, List.forall_mem_nil _⟩⟩)).trans
    (by decide +kernel)

end Zcu102.Nfmac
