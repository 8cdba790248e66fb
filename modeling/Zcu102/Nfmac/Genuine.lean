import Zcu102.Nfmac.Stream

/-!
# What is delivered as good was on the line

The converse of what the receiver does with a line of frames: here the line may carry
anything. A packet of four bytes or more with a good verdict was between a start and a
terminate character, followed by its check sequence, and different packets were in
different places, in the order of the stream.
-/

namespace Zcu102.Nfmac
set_option autoImplicit false
open Zcu102.Sim
open Axis2xgmii (keep)

/-! ## Packets on a line -/

/-- Packets that must have been on the line: one to three bytes after a start in lane 4 are judged by a register as
earlier frames left it. -/
def heard (p : Received) : Bool := p.good && decide (4 ≤ p.payload.length)

/-- The packets were on the line as frames, one after the other. -/
inductive Brings : List Symbol → List Received → Prop
  | nothing (line : List Symbol) : Brings line []
  | packet {line : List Symbol} {ps : List Received} (before : Brings line ps) (p : Received) {seven : List Symbol}
      (size : seven.length = 7) (post : List Symbol) :
      Brings (line ++ .control charS :: (seven ++ ((p.payload ++ fcs p.payload).map .data ++ .control charT :: post)))
        (ps ++ [p])

theorem Brings.more {line : List Symbol} {ps : List Received} (brings : Brings line ps) (xs : List Symbol) :
    Brings (line ++ xs) ps := by
  cases brings with
  | nothing => exact .nothing _
  | packet before p size post =>
    have longer := Brings.packet before p size (post ++ xs)
    simpa only [List.append_assoc, List.cons_append] using longer

theorem Brings.front {line : List Symbol} {ps qs : List Received} (brings : Brings line (ps ++ qs)) : Brings line ps := by
  induction qs using List.reverseRecOn generalizing line with
  | nil => rwa [List.append_nil] at brings
  | append_singleton qs q ih =>
    rw [← List.append_assoc] at brings
    generalize all : ps ++ qs ++ [q] = rs at brings
    cases brings with
    | nothing => simp at all
    | packet before p size post =>
      rw [← (List.append_inj' all rfl).1] at before
      exact (ih before).more _

theorem Brings.none {line : List Symbol} {ps qs : List Received} (brings : Brings line ps) (empty : qs = []) :
    Brings line (ps ++ qs) := by
  rwa [empty, List.append_nil]

/-- A frame on the line accounts for the verdict on it. -/
theorem Brings.verdict {line : List Symbol} {ps : List Received} (brings : Brings line ps) {seven : List Symbol}
    (size : seven.length = 7) (body : List Byte) (post : List Symbol) :
    Brings (line ++ .control charS :: (seven ++ (body.map .data ++ .control charT :: post)))
      (ps ++ [verdict body].filter heard) := by
  cases good : heard (Nfmac.verdict body) with
  | false =>
    rw [List.filter_cons_of_neg (by rw [good]; exact Bool.false_ne_true)]
    exact (brings.more _).none rfl
  | true =>
    rw [List.filter_cons_of_pos good]
    have sums := of_decide_eq_true (Bool.and_eq_true_iff.mp good).1
    have whole : (Nfmac.verdict body).payload ++ fcs (Nfmac.verdict body).payload = body := by
      rw [Nfmac.verdict, ← sums]
      exact List.take_append_drop _ body
    have packet := Brings.packet brings (Nfmac.verdict body) size post
    rwa [whole] at packet

namespace Word

theorem symbols_of_sofLane0 {w : Word} (start : sofLane0 w.d w.c = true) :
    ∃ seven, seven.length = 7 ∧ w.symbols = .control charS :: seven := by
  obtain ⟨char, flag⟩ := Bool.and_eq_true_iff.mp start
  refine ⟨(List.range' 1 7).map (lane w.d w.c), rfl, ?_⟩
  show lane w.d w.c 0 :: _ = _
  rw [lane, flag, if_pos rfl]
  exact congrArg (Symbol.control · :: _) (beq_iff_eq.mp char)

theorem symbols_of_sofLane4 {w : Word} (start : sofLane4 w.d w.c = true) :
    ∃ four three, three.length = 3 ∧ w.symbols = four ++ .control charS :: three := by
  obtain ⟨char, flag⟩ := Bool.and_eq_true_iff.mp start
  refine ⟨(List.range' 0 4).map (lane w.d w.c), (List.range' 5 3).map (lane w.d w.c), rfl, ?_⟩
  show (List.range' 0 4).map _ ++ lane w.d w.c 4 :: _ = _
  rw [lane, flag, if_pos rfl]
  exact congrArg (_ ++ Symbol.control · :: _) (beq_iff_eq.mp char)

theorem symbols_of_data {w : Word} (data : w.c = 0#8) : w.symbols = (bytes 8 w.d).map .data := by
  rw [symbols, data, lanes_data]

theorem Ends.symbols {w : Word} {rest : List Byte} (ends : w.Ends rest) :
    ∃ post, w.symbols = rest.map .data ++ .control charT :: post := by
  obtain ⟨less, ctl, front, isT⟩ := ends
  have split : Sim.bytes (rest.length + (8 - rest.length)) w.d = rest ++ (Sim.bytes 8 w.d).drop rest.length := by
    rw [Nat.add_sub_cancel' (Nat.le_of_lt less)]
    exact (List.take_append_drop rest.length _).symm.trans (congrArg (· ++ _) front)
  have tail : (Sim.bytes 8 w.d).drop rest.length = charT :: (Sim.bytes 8 w.d).drop (rest.length + 1) := by
    have inside : rest.length < (Sim.bytes 8 w.d).length := by rwa [length_bytes]
    rw [List.drop_eq_getElem_cons inside]
    congr 1
    simpa [Sim.bytes] using beq_iff_eq.mp isT
  rw [tail] at split
  refine ⟨_, lanes_control rest.length (8 - rest.length) w.d w.c (by omega) ?_ ?_ split rfl⟩
  all_goals
    rw [ctl]
    generalize rest.length = t at less
    obtain rfl | rfl | rfl | rfl | rfl | rfl | rfl | rfl := zero_to_seven less
    all_goals decide

end Word

namespace Xgmii2axis

/-! ## The state and the line so far -/

/-- The line so far has brought the packets `ps`, and `acc` is what has been handed on of the next. -/
inductive Traced (line : List Symbol) (ps : List Received) (acc : List Byte) (s : Xgmii2axis) : Prop
  | between {deaf : Bool} {pend : List Beat} (waiting : s.Waiting deaf pend) (closed : leftover acc pend = [])
      (brings : Brings line (ps ++ (gather acc pend).filter heard))
  | opening {pre three : List Symbol} (opening : s.Opening) (empty : acc = []) (brings : Brings pre ps)
      (size : three.length = 3) (split : line = pre ++ .control charS :: three)
  | inside {pre seven : List Symbol} {taken : List Byte} (inside : s.Inside taken acc) (brings : Brings pre ps)
      (size : seven.length = 7) (split : line = pre ++ .control charS :: (seven ++ taken.map .data))

/-- What a step has to show. -/
def Traces (line : List Symbol) (ps : List Received) (acc : List Byte) (s : Xgmii2axis) : Prop :=
  Traced line (ps ++ (gather acc s.stage).filter heard) (leftover acc s.stage) s

/-- A frame is over: its last beat is staged, or will be. -/
theorem Waiting.traces {s : Xgmii2axis} {deaf : Bool} {pend : List Beat} (waiting : s.Waiting deaf pend)
    {line : List Symbol} {ps : List Received} {acc : List Byte} (closed : leftover acc (s.stage ++ pend) = [])
    (brings : Brings line (ps ++ (gather acc (s.stage ++ pend)).filter heard)) : Traces line ps acc s := by
  rw [leftover_append] at closed
  rw [gather_append, List.filter_append, ← List.append_assoc] at brings
  exact .between waiting closed brings

theorem Traced.next_between {s : Xgmii2axis} {deaf : Bool} {pend : List Beat} (waiting : s.Waiting deaf pend)
    {line : List Symbol} {ps : List Received} {acc : List Byte} (closed : leftover acc pend = [])
    (brings : Brings line (ps ++ (gather acc pend).filter heard)) (w : Word) :
    Traces (line ++ w.symbols) ps acc (s.next w) := by
  by_cases start0 : deaf = false ∧ sofLane0 w.d w.c = true
  · obtain ⟨rfl, start⟩ := start0
    obtain ⟨inside, out⟩ := waiting.lane0 start
    obtain ⟨seven, size, symbols⟩ := Word.symbols_of_sofLane0 start
    rw [Traces, out, closed, symbols]
    exact .inside (.inl inside) brings size (by rw [List.map_nil, List.append_nil])
  have none0 (hears : deaf = false) : sofLane0 w.d w.c = false :=
    Bool.eq_false_iff.mpr fun start => start0 ⟨hears, start⟩
  cases start4 : sofLane4 w.d w.c with
  | true =>
    obtain ⟨opening, out⟩ := waiting.lane4 none0 start4
    obtain ⟨four, three, size, symbols⟩ := Word.symbols_of_sofLane4 start4
    rw [Traces, out, closed, symbols]
    exact .opening opening rfl (brings.more four) size (List.append_assoc _ _ _).symm
  | false =>
    obtain ⟨waiting', out⟩ := waiting.quiet none0 start4
    refine waiting'.traces ?_ ?_
    · rwa [out, List.append_nil]
    · rw [out, List.append_nil]
      exact brings.more _

theorem Opening.broken {s : Xgmii2axis} (opening : s.Opening) {w : Word} (data : w.c ≠ 0#8) :
    (s.next w).Waiting false [] ∧ (s.next w).stage = [] := by
  rw [next_synch opening.synch, adapter, opening.fsm]
  simp only [data, if_false]
  exact ⟨⟨rfl, .inl ⟨rfl, opening.empty, rfl, rfl⟩⟩, stage_empty opening.empty⟩

theorem Opening.traces {s : Xgmii2axis} (opening : s.Opening) {pre three : List Symbol} {ps : List Received}
    (brings : Brings pre ps) (size : three.length = 3) (w : Word) :
    Traces (pre ++ .control charS :: three ++ w.symbols) ps [] (s.next w) := by
  by_cases data : w.c = 0#8
  · obtain ⟨inside, out⟩ := opening.data data
    have parts : w.symbols = ((bytes 8 w.d).take 4).map .data ++ (bytes 4 (w.d.extractLsb' 32 32)).map .data := by
      rw [Word.symbols_of_data data, bytes_upper, ← List.map_append, List.take_append_drop]
    have seven : (three ++ ((bytes 8 w.d).take 4).map Symbol.data).length = 7 := by
      rw [List.length_append, size, List.length_map, List.length_take, length_bytes]
      rfl
    rw [Traces, out]
    refine .inside (.inr inside) (brings.none rfl) seven ?_
    rw [parts]
    simp only [List.append_assoc, List.cons_append]
  · obtain ⟨waiting, out⟩ := opening.broken data
    refine waiting.traces ?_ ?_
    · rw [out]
      rfl
    · rw [out]
      exact ((brings.more _).more _).none rfl

/-! ## Frames that are spoilt -/

theorem not_heard_of_bad {p : Received} (bad : p.good = false) : [p].filter heard = [] :=
  List.filter_cons_of_neg (by simp [heard, bad])

theorem not_heard_of_short {p : Received} (short : p.payload.length < 4) : [p].filter heard = [] :=
  List.filter_cons_of_neg (by simp [heard, short])

/-- The beat that ends a frame closes the packet. -/
theorem leftover_last (acc : List Byte) {b : Beat} (last : b.tlast = true) : leftover acc [b] = [] := by
  rw [leftover, if_pos last]
  rfl

theorem gather_one (acc : List Byte) {b : Beat} (last : b.tlast = true) :
    gather acc [b] = [{ payload := acc ++ b.bytes, good := b.tuser }] := by
  rw [gather, if_pos last]
  rfl

/-- Nothing that is heard comes of a frame without a terminate character, or with too few bytes before it. -/
theorem Outcome.spoilt {back taken : ℕ} {w : Word} {s s' : Xgmii2axis} {acc acc' : List Byte}
    (outcome : Outcome back w s s') (plain : s.tuserI = false) (full : s.tvalidD0 = true)
    (held : s.tvalidI = false ∧ acc = [] ∨ s.tvalidI = true ∧ 8 ≤ taken)
    (hands : ∀ more, gather acc (s.stage ++ more) = gather acc' more) (kept : acc'.length + 4 = taken + back)
    (control : w.c ≠ 0#8)
    (spoilt : ∀ t, t < 8 → w.c = ~~~keep t → isTchar (byteAt w.d t) = true → taken + t < 8) :
    ∃ deaf pend, s'.Rests deaf pend ∧ leftover acc (s'.stage ++ pend) = [] ∧
      (gather acc (s'.stage ++ pend)).filter heard = [] := by
  cases outcome with
  | data c => exact absurd c control
  | @ends k t pos le less c sum =>
    refine ⟨false, [], .inl ⟨rfl, rfl, rfl, rfl⟩, ?_⟩
    rw [List.append_nil]
    obtain ⟨empty, rfl⟩ | ⟨valid, many⟩ := held
    · have silent : (s.ends (keep k) (sum && isTchar (byteAt w.d t))).stage = [] := stage_empty empty
      rw [silent]
      exact ⟨rfl, rfl⟩
    · have one : (s.ends (keep k) (sum && isTchar (byteAt w.d t))).stage = _ := stage_full valid
      have isT : isTchar (byteAt w.d t) = false :=
        Bool.eq_false_iff.mpr fun isT => absurd (spoilt t less c isT) (by omega)
      rw [one, leftover_last acc rfl, gather_one acc rfl]
      refine ⟨rfl, not_heard_of_bad ?_⟩
      show (s.tuserI || (sum && isTchar (byteAt w.d t))) = false
      rw [plain, isT, Bool.and_false]
      rfl
  | @later k t pos le less c place r crc fsm fin =>
    have out : gather acc s.stage = [] ∧ leftover acc s.stage = acc' := leftover_of_gather hands
    refine ⟨decide (fsm = .fin), [{ tdata := s.tdataD0, tkeep := keep k, tlast := true
                                    tuser := check crc r && isTchar (byteAt w.d t) }], ?_, ?_, ?_⟩
    · obtain rfl | rfl := fin
      · exact .inr (.inr ⟨rfl, ⟨full, plain, rfl⟩, rfl⟩)
      · exact .inr (.inl ⟨rfl, ⟨full, plain, rfl⟩, rfl⟩)
    · exact (leftover_append _ _ _).trans (leftover_last _ rfl)
    · have parts := (gather_append acc s.stage [{ tdata := s.tdataD0, tkeep := keep k, tlast := true
                                                  tuser := check crc r && isTchar (byteAt w.d t) }])
      rw [out.1, out.2, gather_last acc' _ _ [] pos le, List.nil_append] at parts
      refine (congrArg _ parts).trans ?_
      cases isT : isTchar (byteAt w.d t) with
      | false => exact not_heard_of_bad (Bool.and_false _)
      | true =>
        have few := spoilt t less c isT
        apply not_heard_of_short
        rw [List.length_append, List.length_take, length_bytes]
        omega
  | breaks =>
    have one : s.breaks.stage = _ := stage_full rfl
    refine ⟨false, [], .inl ⟨rfl, rfl, rfl, rfl⟩, ?_⟩
    rw [List.append_nil, one, leftover_last acc rfl, gather_one acc rfl]
    exact ⟨rfl, not_heard_of_bad plain⟩

/-- The same for the state after a clock. -/
theorem waits_next {s : Xgmii2axis} (synch : s.synch = true) {w : Word} {deaf : Bool} {pend : List Beat}
    (rests : (s.adapter w).Rests deaf pend) : (s.next w).Waiting deaf pend := by
  rw [next_synch synch]
  exact ⟨rfl, rests⟩

theorem stage_next {s : Xgmii2axis} (synch : s.synch = true) (w : Word) : (s.next w).stage = (s.adapter w).stage := by
  rw [next_synch synch]
  rfl

theorem Inside.spoilt {s : Xgmii2axis} {taken acc : List Byte} (inside : s.Inside taken acc) {w : Word}
    (control : w.c ≠ 0#8)
    (spoilt : ∀ t, t < 8 → w.c = ~~~keep t → isTchar (byteAt w.d t) = true → taken.length + t < 8) :
    ∃ deaf pend, (s.next w).Waiting deaf pend ∧ leftover acc ((s.next w).stage ++ pend) = [] ∧
      (gather acc ((s.next w).stage ++ pend)).filter heard = [] := by
  obtain inside | inside := inside
  · have held : (s.takesLane0 w.d).tvalidI = false ∧ acc = [] ∨ (s.takesLane0 w.d).tvalidI = true ∧ 8 ≤ taken.length := by
      obtain ⟨empty, -, rfl⟩ | ⟨full, -, rfl, -⟩ := inside.held
      · exact .inl ⟨empty, rfl⟩
      · exact .inr ⟨full, by rw [List.length_append, length_bytes]; omega⟩
    obtain ⟨deaf, pend, rests, closed, unheard⟩ :=
      (outcome_lane0 inside.fsm w).spoilt rfl rfl held (inside.hands w.d) rfl control spoilt
    rw [stage_next inside.synch]
    exact ⟨deaf, pend, waits_next inside.synch rests, closed, unheard⟩
  · have held : (s.takesLane4 w.d).tvalidI = false ∧ acc = [] ∨ (s.takesLane4 w.d).tvalidI = true ∧ 8 ≤ taken.length := by
      obtain ⟨empty, -, rfl⟩ | ⟨full, -, rfl, -⟩ := inside.held
      · exact .inl ⟨empty, rfl⟩
      · exact .inr ⟨full, by simp only [List.length_append, length_bytes]; omega⟩
    obtain ⟨acc', same, hands⟩ := inside.hands w.d
    obtain ⟨deaf, pend, rests, closed, unheard⟩ :=
      (outcome_lane4 inside.fsm w).spoilt inside.plain.2 rfl held hands (by rw [same, List.length_append, length_bytes])
        control spoilt
    rw [stage_next inside.synch]
    exact ⟨deaf, pend, waits_next inside.synch rests, closed, unheard⟩

/-! ## Along the line -/

theorem Inside.traces {s : Xgmii2axis} {taken acc : List Byte} (inside : s.Inside taken acc) {pre seven : List Symbol}
    {ps : List Received} (brings : Brings pre ps) (size : seven.length = 7) (w : Word) :
    Traces (pre ++ .control charS :: (seven ++ taken.map .data) ++ w.symbols) ps acc (s.next w) := by
  by_cases data : w.c = 0#8
  · obtain ⟨acc', inside', hands⟩ := inside.beat data
    obtain ⟨nothing, left⟩ : gather acc (s.next w).stage = [] ∧ leftover acc (s.next w).stage = acc' :=
      leftover_of_gather hands
    rw [Traces, nothing, left]
    refine .inside inside' (brings.none rfl) size ?_
    rw [Word.symbols_of_data data]
    simp only [List.map_append, List.append_assoc, List.cons_append]
  by_cases ends : ∃ t, t < 8 ∧ w.c = ~~~keep t ∧ isTchar (byteAt w.d t) = true ∧ 8 ≤ taken.length + t
  · -- A frame with a terminate character: the verdict on it is the right one.
    obtain ⟨t, less, c, isT, enough⟩ := ends
    have long : ((bytes 8 w.d).take t).length = t := by
      rw [List.length_take, length_bytes]
      omega
    have ends : w.Ends ((bytes 8 w.d).take t) := by
      constructor
      all_goals rw [long]
      all_goals assumption
    obtain ⟨deaf, pend, waiting, -, delivers⟩ := inside.last ends (by rw [List.length_append, long]; exact enough)
    obtain ⟨all, left⟩ : gather acc ((s.next w).stage ++ pend) = [verdict (taken ++ (bytes 8 w.d).take t)] ∧
        leftover acc ((s.next w).stage ++ pend) = [] :=
      leftover_of_gather fun more => by
        rw [List.append_assoc, delivers]
        rfl
    refine waiting.traces left ?_
    obtain ⟨post, symbols⟩ := ends.symbols
    have frame := brings.verdict size (taken ++ (bytes 8 w.d).take t) post
    rw [all, symbols]
    simpa only [List.map_append, List.append_assoc, List.cons_append] using frame
  · obtain ⟨deaf, pend, waiting, left, unheard⟩ := inside.spoilt data fun t less c isT =>
      Nat.lt_of_not_le fun enough => ends ⟨t, less, c, isT, enough⟩
    exact waiting.traces left (((brings.more _).more _).none unheard)

theorem Traced.next {s : Xgmii2axis} {line : List Symbol} {ps : List Received} {acc : List Byte}
    (traced : Traced line ps acc s) (w : Word) : Traces (line ++ w.symbols) ps acc (s.next w) := by
  cases traced with
  | between waiting closed brings => exact next_between waiting closed brings w
  | opening opening empty brings size split =>
    rw [empty, split]
    exact opening.traces brings size w
  | inside inside brings size split =>
    rw [split]
    exact inside.traces brings size w

theorem Traced.runs {s : Xgmii2axis} {line : List Symbol} {ps : List Received} {acc : List Byte}
    (traced : Traced line ps acc s) (ws : List Word) :
    Traced (line ++ carried ws) (ps ++ (gather acc (s.staged ws)).filter heard) (leftover acc (s.staged ws))
      (Sim.runs Xgmii2axis.next s ws) := by
  induction ws generalizing s line ps acc with
  | nil =>
    have nothing : s.staged [] = [] := rfl
    rw [nothing, gather, leftover, carried, List.flatMap_nil, List.filter_nil, List.append_nil, List.append_nil]
    exact traced
  | cons w ws ih =>
    have later := ih (traced.next w)
    have first : s.staged (w :: ws) = (s.next w).stage ++ (s.next w).staged ws := rfl
    rw [first, gather_append, leftover_append, List.filter_append, ← List.append_assoc, carried, List.flatMap_cons,
      ← List.append_assoc]
    exact later

theorem Traced.brings {s : Xgmii2axis} {line : List Symbol} {ps : List Received} {acc : List Byte}
    (traced : Traced line ps acc s) : Brings line ps := by
  cases traced with
  | between waiting closed brings => exact brings.front
  | opening opening empty brings size split =>
    rw [split]
    exact brings.more _
  | inside inside brings size split =>
    rw [split]
    exact brings.more _

theorem Waiting.brings {s : Xgmii2axis} (waiting : s.Waiting false []) (empty : s.stage = []) (line : List Symbol)
    (ws : List Word) : Brings (line ++ carried ws) ((gather [] (s.delivered ws)).filter heard) := by
  obtain rfl | ⟨ws, w, rfl⟩ := List.eq_nil_or_concat' ws
  · exact .nothing _
  · have start : Traced line [] [] s := .between waiting rfl (.nothing line)
    have all := (start.runs ws).brings.more w.symbols
    rw [delivered_eq_staged waiting.synch, empty, List.nil_append]
    rw [List.nil_append, List.append_assoc] at all
    have both : carried (ws ++ [w]) = carried ws ++ w.symbols := by
      rw [carried, List.flatMap_append, List.flatMap_singleton]
      rfl
    rwa [both]

/-! ## Out of synch -/

/-- Nothing is put out before a gap is seen, and then nothing is on its way. -/
structure Asleep (s : Xgmii2axis) : Prop where
  synch : s.synch = false
  shaped : s.Shaped
  gap : s.inboundFrame = false → s.Resting
  out : s.fsm ≠ .sres

theorem Outcome.inboundFrame {back : ℕ} {w : Word} {s s' : Xgmii2axis} (outcome : Outcome back w s s') :
    s'.inboundFrame = s.inboundFrame := by
  cases outcome with
  | data c => rfl
  | ends pos le less c sum => rfl
  | later pos le less c place r crc fin => rfl
  | breaks => rfl

/-- Only a word without a start, between frames, is a gap. -/
theorem Shaped.gap {s : Xgmii2axis} (shaped : s.Shaped) (busy : s.inboundFrame = true) {w : Word}
    (out : s.fsm ≠ .sres) (gap : (s.adapter w).inboundFrame = false) : (s.adapter w).Resting := by
  have absurd_ {b : Bool} (same : b = true) (not : b = false) : (s.adapter w).Resting := by
    rw [same] at not
    cases not
  cases fsm : s.fsm with
  | sres => exact absurd fsm out
  | stLane0 => exact absurd_ ((outcome_lane0 fsm w).inboundFrame.trans busy) gap
  | dLane4 => exact absurd_ ((outcome_lane4 fsm w).inboundFrame.trans busy) gap
  | stLane4 | fin | finL4 =>
    rw [Xgmii2axis.adapter, fsm] at gap
    exact absurd_ busy gap
  | idle =>
    have waits := shaped.empty (.inr (.inl fsm))
    rw [Xgmii2axis.adapter, fsm] at gap ⊢
    simp only at gap ⊢
    by_cases start0 : sofLane0 w.d w.c = true
    · rw [if_pos start0] at gap
      cases gap
    · by_cases start4 : sofLane4 w.d w.c = true
      · rw [if_neg start0, if_pos start4] at gap
        cases gap
      · rw [if_neg start0, if_neg start4]
        exact ⟨fsm, waits, rfl⟩

theorem next_asleep {s : Xgmii2axis} (synch : s.synch = false) (busy : s.inboundFrame = true) (w : Word) :
    s.next w = { s.adapter w with tvalid := false } := by
  simp [next, clock, output, synch, busy]

theorem adapter_synch (s : Xgmii2axis) (w : Word) : (s.adapter w).synch = s.synch := by
  unfold adapter
  cases s.fsm
  all_goals simp only
  all_goals repeat' split
  all_goals rfl

theorem Asleep.next {s : Xgmii2axis} (asleep : s.Asleep) (busy : s.inboundFrame = true) (w : Word) :
    (s.next w).Asleep ∧ (s.next w).beat = [] := by
  obtain ⟨-, -, stays⟩ := adapter_counts s w asleep.out
  have shaped := asleep.shaped.next w
  have gap (gap : (s.adapter w).inboundFrame = false) := asleep.shaped.gap busy asleep.out gap
  rw [next_asleep asleep.synch busy] at shaped ⊢
  exact ⟨⟨(adapter_synch s w).trans asleep.synch, shaped, fun ended => ⟨(gap ended).fsm, (gap ended).tvalid⟩, stays⟩, rfl⟩

theorem Resting.adapter_synch {s : Xgmii2axis} (resting : s.Resting) (w : Word) :
    ({ s with synch := true } : Xgmii2axis).adapter w = { s.adapter w with synch := true } := by
  simp only [adapter, resting.fsm]
  cases sofLane0 w.d w.c with
  | true => rfl
  | false =>
    cases sofLane4 w.d w.c with
    | true => rfl
    | false => simp [shifts, resting.fsm]

/-- In a gap it makes no difference whether the receiver is in synch. -/
theorem Resting.next_eq {s : Xgmii2axis} (resting : s.Resting) (gap : s.inboundFrame = false) (w : Word) :
    s.next w = ({ s with synch := true } : Xgmii2axis).next w := by
  rw [next_synch (s := { s with synch := true }) rfl, resting.adapter_synch]
  simp [Xgmii2axis.next, clock, output, gap]

theorem Resting.waiting {s : Xgmii2axis} (resting : s.Resting) (synch : s.synch = true) :
    s.Waiting false [] ∧ s.stage = [] :=
  ⟨⟨synch, .inl ⟨resting.fsm, resting.tvalid.2, rfl, rfl⟩⟩, stage_empty resting.tvalid.1⟩

theorem Asleep.brings {s : Xgmii2axis} (asleep : s.Asleep) (line : List Symbol) (ws : List Word) :
    Brings (line ++ carried ws) ((gather [] (s.delivered ws)).filter heard) := by
  induction ws generalizing s line with
  | nil => exact .nothing _
  | cons w ws ih =>
    have first : s.delivered (w :: ws) = (s.next w).beat ++ (s.next w).delivered ws := rfl
    cases busy : s.inboundFrame with
    | true =>
      obtain ⟨asleep', silent⟩ := asleep.next busy w
      rw [first, silent, carried, List.flatMap_cons, ← List.append_assoc]
      exact ih asleep' _
    | false =>
      -- From here on the receiver may as well have been in synch.
      have resting := asleep.gap busy
      have awake : s.delivered (w :: ws) = ({ s with synch := true } : Xgmii2axis).delivered (w :: ws) := by
        rw [first, resting.next_eq busy w]
        rfl
      have resting' : ({ s with synch := true } : Xgmii2axis).Resting := ⟨resting.fsm, resting.tvalid⟩
      obtain ⟨waiting, empty⟩ := resting'.waiting rfl
      rw [awake]
      exact waiting.brings empty line (w :: ws)

/-- **Whatever the line carries, a good packet of four bytes or more was on it** as a frame with its check sequence, and
the packets delivered were in different places, in their order. -/
theorem good_genuine (s : Xgmii2axis) (aresetn : Bool) (v : Word) (ws : List Word) :
    Brings (carried ws) ((gather [] ((s.clock true aresetn v).delivered ws)).filter heard) := by
  have reset := reset_clock s aresetn v
  generalize s.clock true aresetn v = r at reset
  cases ws with
  | nil => exact .nothing _
  | cons w ws =>
    have resting := reset.next w
    have first : r.delivered (w :: ws) = (r.next w).beat ++ (r.next w).delivered ws := rfl
    rw [first, beat_next reset.tvalid.1, List.nil_append, carried, List.flatMap_cons]
    cases synch : (r.next w).synch with
    | true =>
      obtain ⟨waiting, empty⟩ := resting.waiting synch
      exact waiting.brings empty _ ws
    | false =>
      have asleep : (r.next w).Asleep :=
        ⟨synch, reset.shaped.next w, fun _ => resting, by rw [resting.fsm]; exact Fsm.noConfusion⟩
      exact asleep.brings _ ws

/-! ## Frames too short -/

/-- Five bytes after a start in lane 4: the check is against a register that this frame has not written. -/
theorem InLane4.short {s : Xgmii2axis} {b : Byte} {sum : List Byte} (inside : s.InLane4 (b :: sum.take 3) [])
    (stale : sum = bytes 4 (~~~crcRev s.crc32_5B)) {w : Word} (ends : w.Ends (sum.drop 3)) :
    ∃ pend, (s.next w).Waiting false pend ∧ (s.next w).stage = [] ∧
      gather [] pend = [{ payload := [b], good := true }] := by
  have four : sum.length = 4 := by rw [stale, length_bytes]
  have one : (sum.drop 3).length = 1 := by rw [List.length_drop, four]
  obtain ⟨-, ctl, front, isT⟩ := ends
  rw [one] at ctl front isT
  obtain ⟨empty, kept⟩ : s.tvalidD0 = false ∧ b :: sum.take 3 = bytes 4 s.auxDw := by
    obtain ⟨empty, kept, -⟩ | ⟨-, -, long, -⟩ := inside.held
    · exact ⟨empty, kept⟩
    · have size := congrArg List.length long
      simp [four] at size
  have after : s.adapter w = (s.takesLane4 w.d).endsLater (keep 1) (w.d.extractLsb' 0 8 ++ s.auxDw.extractLsb' 8 24)
      s.crc32_5B (byteAt w.d 1) .finL4 := by
    rw [adapter, inside.fsm, ctl]
    rfl
  have rcved : w.d.extractLsb' 0 8 ++ s.auxDw.extractLsb' 8 24 = ~~~crcRev s.crc32_5B := by
    refine bytes_inj (n := 4) rfl ?_
    rw [bytes_across (k := 1) (N := 4) (p := 8) (q := 24) (l := 8) 3 1 w.d s.auxDw rfl rfl rfl rfl rfl, front, ← kept,
      ← stale]
    exact List.take_append_drop 3 sum
  have good : check s.crc32_5B (w.d.extractLsb' 0 8 ++ s.auxDw.extractLsb' 8 24) = true := by
    rw [rcved, check, beq_self_eq_true]
  refine ⟨[{ tdata := w.d.extractLsb' 0 32 ++ s.auxDw, tkeep := keep 1, tlast := true, tuser := true }],
    waits_next inside.synch ?_, ?_, ?_⟩
  · rw [after]
    have same : true = (check s.crc32_5B (w.d.extractLsb' 0 8 ++ s.auxDw.extractLsb' 8 24) && isTchar (byteAt w.d 1)) := by
      rw [good, isT]
      rfl
    exact .inr (.inl ⟨rfl, ⟨rfl, inside.plain.2, congrArg (fun user => [({
      tdata := w.d.extractLsb' 0 32 ++ s.auxDw, tkeep := keep 1, tlast := true, tuser := user } : Beat)]) same⟩, rfl⟩)
  · rw [stage_next inside.synch, after]
    exact stage_empty empty
  · rw [gather_last [] _ _ [] (by decide) (by decide), bytes_shifted, ← kept]
    rfl

end Xgmii2axis

end Zcu102.Nfmac
