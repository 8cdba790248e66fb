import Zcu102.Nfmac.Receive

/-!
# The stream, whatever the line carries

What can be said about the receiver without any assumption on the words that come in:
noise, frames that break off, control characters anywhere. The beats of the stream have
the shape the protocol asks for, and the counters count the packets in it.
-/

namespace Zcu102.Nfmac
set_option autoImplicit false
open Zcu102.Sim
open Axis2xgmii (keep one_to_eight)

namespace Xgmii2axis

/-! ## Inside a frame -/

/-- What a word inside a frame makes of `s`, the state with the assignments that all words have in common. If the
terminate character is in lane `t` and a beat is yet to come, then it has `t - back` bytes. -/
inductive Outcome (back : ℕ) (w : Word) (s : Xgmii2axis) : Xgmii2axis → Prop
  | data (c : w.c = 0#8) : Outcome back w s s
  | ends {k t : ℕ} (pos : 0 < k) (le : k ≤ 8) (less : t < 8) (c : w.c = ~~~keep t) (sum : Bool) :
      Outcome back w s (s.ends (keep k) (sum && isTchar (byteAt w.d t)))
  | later {k t : ℕ} (pos : 0 < k) (le : k ≤ 8) (less : t < 8) (c : w.c = ~~~keep t) (place : k + back = t)
      (rcved calcted : BitVec 32) {fsm : Fsm} (fin : fsm = .fin ∨ fsm = .finL4) :
      Outcome back w s (s.endsLater (keep k) rcved calcted (byteAt w.d t) fsm)
  | breaks : Outcome back w s s.breaks

theorem outcome_lane0 {s : Xgmii2axis} (fsm : s.fsm = .stLane0) (w : Word) :
    Outcome 4 w (s.takesLane0 w.d) (s.adapter w) := by
  rw [adapter, fsm]
  simp only
  repeat' split
  case isTrue c => exact .data c
  case isTrue c => exact .ends (k := 4) (t := 0) (by decide) (by decide) (by decide) c _
  case isTrue c => exact .ends (k := 5) (t := 1) (by decide) (by decide) (by decide) c _
  case isTrue c => exact .ends (k := 6) (t := 2) (by decide) (by decide) (by decide) c _
  case isTrue c => exact .ends (k := 7) (t := 3) (by decide) (by decide) (by decide) c _
  case isTrue c => exact .ends (k := 8) (t := 4) (by decide) (by decide) (by decide) c _
  case isTrue c => exact .later (k := 1) (t := 5) (by decide) (by decide) (by decide) c rfl _ _ (.inl rfl)
  case isTrue c => exact .later (k := 2) (t := 6) (by decide) (by decide) (by decide) c rfl _ _ (.inl rfl)
  case isTrue c => exact .later (k := 3) (t := 7) (by decide) (by decide) (by decide) c rfl _ _ (.inl rfl)
  case isFalse => exact .breaks

theorem outcome_lane4 {s : Xgmii2axis} (fsm : s.fsm = .dLane4) (w : Word) :
    Outcome 0 w (s.takesLane4 w.d) (s.adapter w) := by
  rw [adapter, fsm]
  simp only
  repeat' split
  case isTrue c => exact .data c
  case isTrue c => exact .ends (k := 8) (t := 0) (by decide) (by decide) (by decide) c _
  case isTrue c => exact .later (k := 1) (t := 1) (by decide) (by decide) (by decide) c rfl _ _ (.inr rfl)
  case isTrue c => exact .later (k := 2) (t := 2) (by decide) (by decide) (by decide) c rfl _ _ (.inr rfl)
  case isTrue c => exact .later (k := 3) (t := 3) (by decide) (by decide) (by decide) c rfl _ _ (.inr rfl)
  case isTrue c => exact .later (k := 4) (t := 4) (by decide) (by decide) (by decide) c rfl _ _ (.inl rfl)
  case isTrue c => exact .later (k := 5) (t := 5) (by decide) (by decide) (by decide) c rfl _ _ (.inl rfl)
  case isTrue c => exact .later (k := 6) (t := 6) (by decide) (by decide) (by decide) c rfl _ _ (.inl rfl)
  case isTrue c => exact .later (k := 7) (t := 7) (by decide) (by decide) (by decide) c rfl _ _ (.inl rfl)
  case isFalse => exact .breaks

/-! ## The shape of the beats -/

/-- Enables from the lowest byte up, all of them in every beat but the last of a packet, which alone has a verdict. -/
structure WellFormed (b : Beat) : Prop where
  enables : ∃ k, 0 < k ∧ k ≤ 8 ∧ b.tkeep = keep k
  full : b.tlast = false → b.tkeep = 0xff#8 ∧ b.tuser = false

/-- What the states of the adapter say about the beats on their way. -/
structure Shaped (s : Xgmii2axis) : Prop where
  stage : ∀ b ∈ s.stage, WellFormed b
  empty : s.fsm = .sres ∨ s.fsm = .idle ∨ s.fsm = .stLane4 → s.tvalidD0 = false
  unfinished : s.fsm = .dLane4 → s.tlastI = false ∧ s.tuserI = false
  last : s.fsm = .fin ∨ s.fsm = .finL4 → ∃ k, 0 < k ∧ k ≤ 8 ∧ s.lastTkeepI = keep k

theorem wellFormed_full (d : BitVec 64) : WellFormed { tdata := d, tkeep := 0xff#8, tlast := false, tuser := false } :=
  ⟨⟨8, by decide, by decide, rfl⟩, fun _ => ⟨rfl, rfl⟩⟩

theorem wellFormed_last (d : BitVec 64) {tkeep : BitVec 8} (user : Bool) (enables : ∃ k, 0 < k ∧ k ≤ 8 ∧ tkeep = keep k) :
    WellFormed { tdata := d, tkeep := tkeep, tlast := true, tuser := user } :=
  ⟨enables, fun more => absurd more.symm Bool.false_ne_true⟩

theorem stage_wellFormed {s : Xgmii2axis}
    (shape : s.tvalidI = true → WellFormed { tdata := s.tdataI, tkeep := s.tkeepI, tlast := s.tlastI, tuser := s.tuserI }) :
    ∀ b ∈ s.stage, WellFormed b := by
  intro b mem
  cases valid : s.tvalidI with
  | false =>
    rw [stage_empty valid] at mem
    exact absurd mem List.not_mem_nil
  | true =>
    rw [stage_full valid] at mem
    rw [List.mem_singleton.mp mem]
    exact shape valid

/-- A word inside a frame: a full beat, the last one of a packet, or a full one before the last. -/
theorem Outcome.shaped {back : ℕ} {w : Word} {s s' : Xgmii2axis} (outcome : Outcome back w s s') (frame : s.fsm = .stLane0 ∨ s.fsm = .dLane4)
    (keeps : s.tkeepI = 0xff#8) (plain : s.tlastI = false ∧ s.tuserI = false) : s'.Shaped := by
  have whole : WellFormed { tdata := s.tdataI, tkeep := s.tkeepI, tlast := s.tlastI, tuser := s.tuserI } := by
    rw [keeps, plain.1, plain.2]
    exact wellFormed_full s.tdataI
  cases outcome with
  | data c =>
    refine ⟨stage_wellFormed fun _ => whole, ?_, fun _ => plain, ?_⟩
    · obtain fsm | fsm := frame
      all_goals simp [fsm]
    · obtain fsm | fsm := frame
      all_goals simp [fsm]
  | ends pos le less c sum =>
    exact ⟨stage_wellFormed fun _ => wellFormed_last _ _ ⟨_, pos, le, rfl⟩, fun _ => rfl, Fsm.noConfusion,
      fun fin => fin.elim Fsm.noConfusion Fsm.noConfusion⟩
  | later pos le less c place r crc fin =>
    refine ⟨stage_wellFormed fun _ => whole, ?_, ?_, fun _ => ⟨_, pos, le, rfl⟩⟩
    · obtain rfl | rfl := fin
      all_goals simp [endsLater]
    · obtain rfl | rfl := fin
      all_goals exact Fsm.noConfusion
  | breaks =>
    refine ⟨stage_wellFormed fun _ => wellFormed_last _ _ ⟨8, by decide, by decide, keeps⟩, fun _ => rfl, Fsm.noConfusion,
      fun fin => fin.elim Fsm.noConfusion Fsm.noConfusion⟩

/-- Between frames nothing waits in `tdata_d0`. -/
theorem shaped_between {s : Xgmii2axis} (shape : ∀ b ∈ s.stage, WellFormed b) (waits : s.tvalidD0 = false)
    (fsm : s.fsm = .idle ∨ s.fsm = .stLane0 ∨ s.fsm = .stLane4) : s.Shaped := by
  refine ⟨shape, fun _ => waits, ?_, ?_⟩
  · obtain fsm | fsm | fsm := fsm
    all_goals simp [fsm]
  · obtain fsm | fsm | fsm := fsm
    all_goals simp [fsm]

theorem Shaped.adapter {s : Xgmii2axis} (shaped : s.Shaped) (w : Word) : (s.adapter w).Shaped := by
  have nothing {s' : Xgmii2axis} (moves : s'.tvalidI = s.tvalidD0) (waits : s.tvalidD0 = false) :
      ∀ b ∈ s'.stage, WellFormed b := by
    rw [stage_empty (moves.trans waits)]
    exact fun b mem => absurd mem List.not_mem_nil
  cases fsm : s.fsm with
  | stLane0 => exact (outcome_lane0 fsm w).shaped (.inl fsm) rfl ⟨rfl, rfl⟩
  | dLane4 => exact (outcome_lane4 fsm w).shaped (.inr fsm) rfl (shaped.unfinished fsm)
  | sres =>
    have waits := shaped.empty (.inl fsm)
    rw [Xgmii2axis.adapter, fsm]
    exact shaped_between (nothing rfl waits) waits (.inl rfl)
  | idle =>
    have waits := shaped.empty (.inr (.inl fsm))
    rw [Xgmii2axis.adapter, fsm]
    simp only
    split
    · exact shaped_between (nothing rfl waits) rfl (.inr (.inl rfl))
    · split
      · exact shaped_between (nothing rfl waits) rfl (.inr (.inr rfl))
      · exact shaped_between (nothing rfl waits) rfl (.inl fsm)
  | stLane4 =>
    have waits := shaped.empty (.inr (.inr fsm))
    rw [Xgmii2axis.adapter, fsm]
    refine ⟨nothing rfl waits, fun _ => waits, fun _ => ⟨rfl, rfl⟩, fun fin => ?_⟩
    revert fin
    simp only
    split
    all_goals simp
  | fin =>
    rw [Xgmii2axis.adapter, fsm]
    refine shaped_between (stage_wellFormed fun _ => wellFormed_last _ _ (shaped.last (.inl fsm))) rfl ?_
    simp only
    split
    · exact .inr (.inr rfl)
    · exact .inl rfl
  | finL4 =>
    rw [Xgmii2axis.adapter, fsm]
    refine shaped_between (stage_wellFormed fun _ => wellFormed_last _ _ (shaped.last (.inr fsm))) rfl ?_
    simp only
    split
    · exact .inr (.inl rfl)
    · split
      · exact .inr (.inr rfl)
      · exact .inl rfl

theorem Shaped.next {s : Xgmii2axis} (shaped : s.Shaped) (w : Word) : (s.next w).Shaped := by
  obtain ⟨stage, empty, unfinished, last⟩ := shaped.adapter w
  rw [Xgmii2axis.next, clock, output]
  split
  · exact ⟨stage, empty, unfinished, last⟩
  · split
    · exact ⟨stage, empty, unfinished, last⟩
    · exact ⟨stage, empty, unfinished, last⟩

/-- A beat of the stream was staged, or there is none. -/
theorem mem_beat_next {s : Xgmii2axis} {w : Word} {b : Beat} (mem : b ∈ (s.next w).beat) : b ∈ s.stage := by
  rw [Xgmii2axis.next, clock, output] at mem
  split at mem
  · exact absurd mem List.not_mem_nil
  · split at mem
    · exact mem
    · exact absurd mem List.not_mem_nil

theorem Reset.shaped {s : Xgmii2axis} (reset : s.Reset) : s.Shaped := by
  refine ⟨?_, fun _ => reset.tvalid.2, ?_, ?_⟩
  · rw [stage_empty reset.tvalid.1]
    exact fun b mem => absurd mem List.not_mem_nil
  · simp [reset.fsm]
  · simp [reset.fsm]

theorem Shaped.delivered {s : Xgmii2axis} (shaped : s.Shaped) (ws : List Word) : ∀ b ∈ s.delivered ws, WellFormed b := by
  induction ws generalizing s with
  | nil => exact fun b mem => absurd mem List.not_mem_nil
  | cons w ws ih =>
    intro b mem
    obtain here | later := List.mem_append.mp mem
    · exact shaped.stage b (mem_beat_next here)
    · exact ih (shaped.next w) b later

/-- **The stream is well formed whatever the line carries**: every beat enables one to eight bytes from the lowest up,
a beat that is not the last of its packet enables all of them, and only a last one has `tuser` set. -/
theorem beats_shaped (s : Xgmii2axis) (aresetn : Bool) (v : Word) (ws : List Word) :
    ∀ b ∈ (s.clock true aresetn v).delivered ws, WellFormed b :=
  (reset_clock s aresetn v).shaped.delivered ws

/-- The last beat of the first frame, four bytes of payload with the check left off. -/
theorem beats_shaped_first :
    WellFormed { tdata := 0xb63cfbcd04030201#64, tkeep := 0x0f#8, tlast := true, tuser := true } :=
  beats_shaped zero true ⟨qwIdleD, qwIdleC⟩ twoFrames _ (by decide +kernel)

theorem keep_inj {k : ℕ} (pos : 0 < k) (le : k ≤ 8) (full : keep k = 0xff#8) : k = 8 := by
  obtain rfl | rfl | rfl | rfl | rfl | rfl | rfl | rfl := one_to_eight pos le
  all_goals first | rfl | exact absurd full (by decide)

theorem flatMap_bytes_inj {ws vs : List (BitVec 64)} (same : ws.flatMap (bytes 8) = vs.flatMap (bytes 8)) : ws = vs := by
  induction ws generalizing vs with
  | nil =>
    have size := congrArg List.length same
    rw [Packet.length_flatMap_bytes, Packet.length_flatMap_bytes, List.length_nil] at size
    exact (List.length_eq_zero_iff.mp (by omega)).symm
  | cons w ws ih =>
    cases vs with
    | nil =>
      have size := congrArg List.length same
      rw [Packet.length_flatMap_bytes, Packet.length_flatMap_bytes, List.length_cons, List.length_nil] at size
      omega
    | cons v vs =>
      rw [List.flatMap_cons, List.flatMap_cons] at same
      obtain ⟨first, rest⟩ := List.append_inj same (by rw [length_bytes, length_bytes])
      rw [bytes_inj rfl first, ih rest]

/-- Packets of whole words are what the words of the stream make up. -/
theorem words_of_gather {bs : List Beat} (shape : ∀ b ∈ bs, WellFormed b) {ws : List (BitVec 64)}
    {wss : List (List (BitVec 64))} {good : Bool}
    (packets : gather (ws.flatMap (bytes 8)) bs = wss.map fun vs => { payload := vs.flatMap (bytes 8), good := good })
    (closed : leftover (ws.flatMap (bytes 8)) bs = []) : ws ++ bs.map Beat.tdata = wss.flatten := by
  induction bs generalizing ws wss with
  | nil =>
    have noWords : ws = [] := by
      have size := congrArg List.length closed
      rw [leftover, Packet.length_flatMap_bytes, List.length_nil] at size
      exact List.length_eq_zero_iff.mp (by omega)
    have empty : wss = [] := List.map_eq_nil_iff.mp packets.symm
    rw [noWords, empty]
    rfl
  | cons b bs ih =>
    have rest : ∀ b ∈ bs, WellFormed b := fun x mem => shape x (List.mem_cons_of_mem b mem)
    obtain ⟨⟨k, pos, le, keeps⟩, full⟩ := shape b List.mem_cons_self
    have enabled : b.bytes = (bytes 8 b.tdata).take k := by
      rw [← bytes_keep b.tdata b.tlast b.tuser pos le, ← keeps]
    have snoc : ws.flatMap (bytes 8) ++ bytes 8 b.tdata = (ws ++ [b.tdata]).flatMap (bytes 8) := by
      rw [List.flatMap_append, List.flatMap_singleton]
    cases last : b.tlast with
    | false =>
      have eight : k = 8 := keep_inj pos le (keeps.symm.trans (full last).1)
      rw [eight, List.take_of_length_le (Nat.le_of_eq (length_bytes 8 _))] at enabled
      rw [gather, last, if_neg Bool.false_ne_true, enabled, snoc] at packets
      rw [leftover, last, if_neg Bool.false_ne_true, enabled, snoc] at closed
      have later := ih rest packets closed
      rw [← later, List.map_cons, List.append_assoc]
      rfl
    | true =>
      rw [gather, last, if_pos rfl] at packets
      rw [leftover, last, if_pos rfl] at closed
      cases wss with
      | nil => cases packets
      | cons vs wss =>
        rw [List.map_cons] at packets
        obtain ⟨first, more⟩ := List.cons.inj packets
        have payload := (Received.mk.inj first).1
        have size := congrArg List.length payload
        rw [enabled, List.length_append, Packet.length_flatMap_bytes, Packet.length_flatMap_bytes, List.length_take,
          length_bytes] at size
        have eight : k = 8 := by omega
        rw [enabled, eight, List.take_of_length_le (Nat.le_of_eq (length_bytes 8 _)), snoc] at payload
        have more' : gather (([] : List (BitVec 64)).flatMap (bytes 8)) bs = _ := more
        have later := ih rest more' closed
        rw [List.nil_append] at later
        rw [List.map_cons, List.flatten_cons, ← later, ← flatMap_bytes_inj payload, List.append_assoc]
        rfl

/-! ## The counters -/

theorem Outcome.counts {back : ℕ} {w : Word} {s s' : Xgmii2axis} (outcome : Outcome back w s s') (started : s.fsm ≠ .sres) :
    s'.goodFrames = s.goodFrames ∧ s'.badFrames = s.badFrames ∧ s'.fsm ≠ .sres := by
  cases outcome with
  | data c => exact ⟨rfl, rfl, started⟩
  | ends pos le less c sum => exact ⟨rfl, rfl, Fsm.noConfusion⟩
  | later pos le less c place r crc fin =>
    obtain rfl | rfl := fin
    · exact ⟨rfl, rfl, Fsm.noConfusion⟩
    · exact ⟨rfl, rfl, Fsm.noConfusion⟩
  | breaks => exact ⟨rfl, rfl, Fsm.noConfusion⟩

theorem adapter_counts (s : Xgmii2axis) (w : Word) (started : s.fsm ≠ .sres) :
    (s.adapter w).goodFrames = s.shifts.goodFrames ∧ (s.adapter w).badFrames = s.shifts.badFrames ∧
      (s.adapter w).fsm ≠ .sres := by
  cases fsm : s.fsm with
  | sres => exact absurd fsm started
  | stLane0 => exact (outcome_lane0 fsm w).counts started
  | dLane4 => exact (outcome_lane4 fsm w).counts started
  | idle =>
    rw [adapter, fsm]
    have stays : s.shifts.fsm ≠ .sres := started
    simp only
    split
    · exact ⟨rfl, rfl, Fsm.noConfusion⟩
    · split
      · exact ⟨rfl, rfl, Fsm.noConfusion⟩
      · exact ⟨rfl, rfl, stays⟩
  | stLane4 | fin | finL4 =>
    rw [adapter, fsm]
    refine ⟨rfl, rfl, ?_⟩
    simp only
    repeat' split
    all_goals exact Fsm.noConfusion

def isGood (b : Beat) : Bool := b.tlast && b.tuser

def isBad (b : Beat) : Bool := b.tlast && !b.tuser

theorem gather_good (acc : List Byte) (bs : List Beat) :
    ((gather acc bs).filter Received.good).length = (bs.filter isGood).length := by
  induction bs generalizing acc with
  | nil => rfl
  | cons b bs ih =>
    rw [gather]
    split
    case isTrue last => cases user : b.tuser <;> simp [isGood, last, user, ih]
    case isFalse unfinished => simp [isGood, unfinished, ih]

theorem gather_bad (acc : List Byte) (bs : List Beat) :
    ((gather acc bs).filter fun x => !x.good).length = (bs.filter isBad).length := by
  induction bs generalizing acc with
  | nil => rfl
  | cons b bs ih =>
    rw [gather]
    split
    case isTrue last => cases user : b.tuser <;> simp [isBad, last, user, ih]
    case isFalse unfinished => simp [isBad, unfinished, ih]

/-- The counters, with the beat on the stream that they have yet to see. -/
def counted (s : Xgmii2axis) : BitVec 32 × BitVec 32 :=
  (s.goodFrames + BitVec.ofNat 32 (s.beat.filter isGood).length,
    s.badFrames + BitVec.ofNat 32 (s.beat.filter isBad).length)

theorem shifts_counted (s : Xgmii2axis) : (s.shifts.goodFrames, s.shifts.badFrames) = s.counted := by
  cases valid : s.tvalid <;> cases last : s.tlast <;> cases user : s.tuser <;>
    simp [shifts, counted, beat, isGood, isBad, valid, last, user]

theorem next_counts {s : Xgmii2axis} (w : Word) (started : s.fsm ≠ .sres) :
    ((s.next w).goodFrames, (s.next w).badFrames) = s.counted ∧ (s.next w).fsm ≠ .sres := by
  obtain ⟨good, bad, leaves⟩ := adapter_counts s w started
  obtain ⟨fsm, -, -, -, good', bad'⟩ := next_inner s w
  rw [good', bad', good, bad, shifts_counted, fsm]
  exact ⟨rfl, leaves⟩

theorem counted_runs {s : Xgmii2axis} (started : s.fsm ≠ .sres) (ws : List Word) :
    (runs next s ws).counted = (s.counted.1 + BitVec.ofNat 32 ((s.delivered ws).filter isGood).length,
      s.counted.2 + BitVec.ofNat 32 ((s.delivered ws).filter isBad).length) ∧ (runs next s ws).fsm ≠ .sres := by
  induction ws generalizing s with
  | nil => exact ⟨by simp [delivered, outputs], started⟩
  | cons w ws ih =>
    obtain ⟨now, stays⟩ := next_counts w started
    obtain ⟨later, stays'⟩ := ih stays
    refine ⟨?_, stays'⟩
    have first : s.delivered (w :: ws) = (s.next w).beat ++ (s.next w).delivered ws := rfl
    have here : (s.next w).counted = ((s.next w).goodFrames + BitVec.ofNat 32 ((s.next w).beat.filter isGood).length,
      (s.next w).badFrames + BitVec.ofNat 32 ((s.next w).beat.filter isBad).length) := rfl
    rw [runs_cons, later, here, ← now, first, List.filter_append, List.filter_append, List.length_append,
      List.length_append, BitVec.ofNat_add, BitVec.ofNat_add, ← BitVec.add_assoc, ← BitVec.add_assoc]

/-- **The counters count the packets delivered**, good ones and bad ones, whatever the line carries: they are one clock
behind the stream and wrap at 32 bits. -/
theorem counts_packets (s : Xgmii2axis) (aresetn : Bool) (v w : Word) (ws : List Word) :
    (runs next (s.clock true aresetn v) (ws ++ [w])).goodFrames =
        BitVec.ofNat 32 ((gather [] ((s.clock true aresetn v).delivered ws)).filter Received.good).length ∧
      (runs next (s.clock true aresetn v) (ws ++ [w])).badFrames =
        BitVec.ofNat 32 ((gather [] ((s.clock true aresetn v).delivered ws)).filter fun x => !x.good).length := by
  rw [gather_good, gather_bad, runs_append]
  have reset := reset_clock s aresetn v
  generalize s.clock true aresetn v = r at reset
  -- The first clock clears the counters.
  have clears (u : Word) : (r.next u).goodFrames = 0#32 ∧ (r.next u).badFrames = 0#32 := by
    obtain ⟨-, -, -, -, good, bad⟩ := next_inner r u
    rw [adapter, reset.fsm] at good bad
    exact ⟨good, bad⟩
  cases ws with
  | nil => exact clears w
  | cons u ws =>
    have leaves : (r.next u).fsm ≠ .sres := by
      rw [(reset.next u).fsm]
      exact Fsm.noConfusion
    obtain ⟨counts, stays⟩ := counted_runs leaves ws
    obtain ⟨now, -⟩ := next_counts w stays
    have first : r.delivered (u :: ws) = (r.next u).beat ++ (r.next u).delivered ws := rfl
    have here : (r.next u).counted = (0#32 + BitVec.ofNat 32 ((r.next u).beat.filter isGood).length,
        0#32 + BitVec.ofNat 32 ((r.next u).beat.filter isBad).length) := by
      rw [counted, (clears u).1, (clears u).2]
    rw [counts, here, BitVec.zero_add, BitVec.zero_add, ← BitVec.ofNat_add, ← BitVec.ofNat_add, ← List.length_append,
      ← List.length_append, ← List.filter_append, ← List.filter_append, ← first] at now
    exact Prod.mk.inj now

end Xgmii2axis

end Zcu102.Nfmac
