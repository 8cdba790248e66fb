import Zcu102.Nfmac.Xgmii2axis

/-!
# What the receiver delivers

A line of frames goes in as words, and the packets come out of the stream: every frame
body without its last four bytes, with the verdict whether these are its check sequence.
Frames must be four idle characters apart and have eight bytes at least: closer ones are
lost after the state `FIN`, and the verdict on shorter ones need not be about them.
-/

namespace Zcu102.Nfmac
set_option autoImplicit false
open Zcu102.Sim

/-- The line as the words carry it. -/
def carried (ws : List Word) : List Symbol := ws.flatMap Word.symbols

theorem take_word {ws : List Word} {xs ys : List Symbol} (carries : carried ws = xs ++ ys) (size : xs.length = 8) :
    ∃ w ws', ws = w :: ws' ∧ w.symbols = xs ∧ carried ws' = ys := by
  cases ws with
  | nil =>
    have empty : xs = [] := (List.append_eq_nil_iff.mp carries.symm).1
    rw [empty] at size
    cases size
  | cons w ws =>
    rw [carried, List.flatMap_cons] at carries
    obtain ⟨first, later⟩ := List.append_inj carries (by rw [Word.symbols, length_lanes, size])
    exact ⟨w, ws, rfl, first, later⟩

theorem length_carried (ws : List Word) : (carried ws).length = 8 * ws.length := by
  rw [carried, List.length_flatMap]
  simp [Word.symbols, Nat.mul_comm]

@[simp] theorem length_idles (n : ℕ) : (idles n).length = n := List.length_replicate

namespace Word

/-- The lanes where a frame can start. -/
theorem sof_of_lanes {w : Word} {x0 x1 x2 x3 x4 : Symbol} (more : List Symbol)
    (word : w.symbols = x0 :: x1 :: x2 :: x3 :: x4 :: more) :
    sofLane0 w.d w.c = (x0.byte == charS && x0.isControl) ∧ sofLane4 w.d w.c = (x4.byte == charS && x4.isControl) := by
  have bytes := bytes_of_lanes word
  have flags := controls_of_lanes word
  simp only [List.map_cons] at bytes flags
  obtain ⟨b0, bytes⟩ := List.cons.inj bytes
  obtain ⟨-, bytes⟩ := List.cons.inj bytes
  obtain ⟨-, bytes⟩ := List.cons.inj bytes
  obtain ⟨-, bytes⟩ := List.cons.inj bytes
  obtain ⟨b4, -⟩ := List.cons.inj bytes
  obtain ⟨c0, flags⟩ := List.cons.inj flags
  obtain ⟨-, flags⟩ := List.cons.inj flags
  obtain ⟨-, flags⟩ := List.cons.inj flags
  obtain ⟨-, flags⟩ := List.cons.inj flags
  obtain ⟨c4, -⟩ := List.cons.inj flags
  rw [← b0, ← b4, ← c0, ← c4]
  exact ⟨rfl, rfl⟩

end Word

namespace Xgmii2axis

theorem staged_append (s : Xgmii2axis) (ws ws' : List Word) :
    s.staged (ws ++ ws') = s.staged ws ++ (runs next s ws).staged ws' := outputs_append next _ s ws ws'

theorem staged_one (s : Xgmii2axis) (w : Word) : s.staged [w] = (s.next w).stage := List.append_nil _

/-! ## The gap -/

theorem Waiting.idle {s : Xgmii2axis} {deaf : Bool} {pend : List Beat} (waiting : s.Waiting deaf pend) {w : Word}
    (word : w.symbols = idles 8) : (s.next w).Waiting false [] ∧ (s.next w).stage = pend := by
  obtain ⟨none0, none4⟩ := Word.sof_of_lanes (idles 3) word
  exact waiting.quiet (fun _ => none0.trans rfl) (none4.trans rfl)

/-- Inside a frame, whichever lane it started in. -/
def Inside (s : Xgmii2axis) (taken acc : List Byte) : Prop := s.InLane0 taken acc ∨ s.InLane4 taken acc

/-- The start of a frame, after `r` idle characters. -/
theorem Waiting.start {s : Xgmii2axis} {deaf : Bool} {pend : List Beat} (waiting : s.Waiting deaf pend)
    {ws : List Word} {r : ℕ} {body : List Byte} {rest : List Symbol}
    (carries : carried ws = idles r ++ (preamble ++ (body.map .data ++ rest))) (aligned : r % 4 = 0)
    (heard : deaf = true → 4 ≤ r) (enough : 4 ≤ body.length) :
    ∃ now ws' taken left, ws = now ++ ws' ∧ (runs next s now).Inside taken [] ∧ body = taken ++ left ∧
      taken.length % 4 = 0 ∧ carried ws' = left.map .data ++ rest ∧ s.staged now = pend := by
  induction r using Nat.strong_induction_on generalizing s deaf pend ws with
  | _ r ih =>
    obtain rfl | rfl | more : r = 0 ∨ r = 4 ∨ 8 ≤ r := by omega
    · -- The frame starts in lane 0.
      have here : carried ws = preamble ++ (body.map .data ++ rest) := carries
      obtain ⟨w, ws, rfl, word, later⟩ := take_word here rfl
      cases deaf with
      | true => exact absurd (heard rfl) (by decide)
      | false =>
        obtain ⟨inside, out⟩ := waiting.lane0 (Word.sof_of_lanes _ word).1
        exact ⟨[w], ws, [], body, rfl, .inl inside, rfl, rfl, later, (staged_one s w).trans out⟩
    · -- It starts in lane 4, and the first four bytes come with the end of the preamble.
      obtain ⟨head, left, rfl, size⟩ : ∃ head left, body = head ++ left ∧ head.length = 4 :=
        ⟨body.take 4, body.drop 4, (List.take_append_drop 4 body).symm, List.length_take_of_le enough⟩
      have split : carried ws = (idles 4 ++ preamble.take 4) ++
          (([0x55#8, 0x55#8, 0x55#8, 0xd5#8] ++ head).map .data ++ (left.map .data ++ rest)) := by
        rw [carries]
        simp only [List.map_append, List.append_assoc]
        rfl
      obtain ⟨w, ws, rfl, word, later⟩ := take_word split rfl
      obtain ⟨v, ws, rfl, word', last⟩ := take_word later (by rw [List.length_map, List.length_append, size]; rfl)
      obtain ⟨none0, start⟩ := Word.sof_of_lanes _ word
      obtain ⟨opening, out⟩ := waiting.lane4 (fun _ => none0.trans rfl) (start.trans rfl)
      obtain ⟨data, bytes⟩ := Word.c_of_data word' (by rw [List.length_append, size]; rfl)
      obtain ⟨inside, out'⟩ := opening.data data
      have upper : Sim.bytes 4 (v.d.extractLsb' 32 32) = head := by
        rw [bytes_upper, bytes]
        rfl
      rw [upper] at inside
      refine ⟨[w, v], ws, head, left, rfl, .inr inside, rfl, by rw [size], last, ?_⟩
      have two : s.staged [w, v] = (s.next w).stage ++ ((s.next w).next v).stage := congrArg _ (List.append_nil _)
      rw [two, out, out', List.append_nil]
    · -- A whole word of idle characters.
      obtain ⟨n, rfl⟩ := Nat.exists_eq_add_of_le more
      rw [idles_add, List.append_assoc] at carries
      obtain ⟨w, ws, rfl, word, later⟩ := take_word carries rfl
      obtain ⟨waiting', out⟩ := waiting.idle word
      obtain ⟨now, ws', taken, left, rfl, inside, parts, four, rest', out'⟩ :=
        ih n (by omega) waiting' later (by omega) (fun deaf => (by cases deaf))
      refine ⟨w :: now, ws', taken, left, rfl, inside, parts, four, rest', ?_⟩
      have first : s.staged (w :: now) = (s.next w).stage ++ (s.next w).staged now := rfl
      rw [first, out, out', List.append_nil]

/-! ## The frame -/

theorem Inside.beat {s : Xgmii2axis} {taken acc : List Byte} (inside : s.Inside taken acc) {w : Word}
    (data : w.c = 0#8) :
    ∃ acc', (s.next w).Inside (taken ++ bytes 8 w.d) acc' ∧
      ∀ more, gather acc ((s.next w).stage ++ more) = gather acc' more := by
  obtain inside | inside := inside
  · obtain ⟨acc', inside', hands⟩ := inside.beat data
    exact ⟨acc', .inl inside', hands⟩
  · obtain ⟨acc', inside', hands⟩ := inside.beat data
    exact ⟨acc', .inr inside', hands⟩

theorem Inside.last {s : Xgmii2axis} {taken acc rest : List Byte} (inside : s.Inside taken acc) {w : Word}
    (ends : w.Ends rest) (enough : 8 ≤ (taken ++ rest).length) :
    ∃ deaf pend, (s.next w).Waiting deaf pend ∧ (deaf = true → 4 ≤ rest.length) ∧
      ∀ more, gather acc ((s.next w).stage ++ (pend ++ more)) = verdict (taken ++ rest) :: gather [] more := by
  obtain inside | inside := inside
  · exact inside.last ends enough
  · exact inside.last ends enough

/-- The bytes that are left, the terminate character and the gap. -/
theorem Inside.frame {s : Xgmii2axis} {taken acc left : List Byte} (inside : s.Inside taken acc) {ws : List Word}
    {gap : ℕ} {rest : List Symbol} (carries : carried ws = left.map .data ++ (.control charT :: idles gap ++ rest))
    (aligned : (left.length + 1 + gap) % 4 = 0) (apart : 4 ≤ gap) (enough : 8 ≤ (taken ++ left).length) :
    ∃ now ws' deaf pend r, ws = now ++ ws' ∧ (runs next s now).Waiting deaf pend ∧ carried ws' = idles r ++ rest ∧
      r % 4 = 0 ∧ (deaf = true → 4 ≤ r) ∧
      ∀ more, gather acc (s.staged now ++ (pend ++ more)) = verdict (taken ++ left) :: gather [] more := by
  induction size : left.length using Nat.strong_induction_on generalizing s taken acc left ws with
  | _ n ih =>
    obtain few | many : n < 8 ∨ 8 ≤ n := by omega
    · obtain ⟨r, rfl⟩ : ∃ r, gap = (7 - n) + r := ⟨gap - (7 - n), by omega⟩
      have split : carried ws = (left.map .data ++ .control charT :: idles (7 - left.length)) ++ (idles r ++ rest) := by
        rw [carries, idles_add, size]
        simp only [List.append_assoc, List.cons_append]
      have whole : (left.map Symbol.data ++ .control charT :: idles (7 - left.length)).length = 8 := by
        rw [List.length_append, List.length_map, List.length_cons, length_idles]
        omega
      obtain ⟨w, ws, rfl, word, later⟩ := take_word split whole
      obtain ⟨deaf, pend, waiting, late, delivers⟩ := inside.last (Word.ends_of_symbols (by omega) word) enough
      refine ⟨[w], ws, deaf, pend, r, rfl, waiting, later, by omega, fun deaf => ?_, fun more => ?_⟩
      · have four := late deaf
        omega
      · rw [staged_one, delivers]
    · obtain ⟨head, left, rfl, eight⟩ : ∃ head left', left = head ++ left' ∧ head.length = 8 :=
        ⟨left.take 8, left.drop 8, (List.take_append_drop 8 left).symm, List.length_take_of_le (by omega)⟩
      rw [List.map_append, List.append_assoc] at carries
      rw [List.length_append, eight] at size aligned
      obtain ⟨w, ws, rfl, word, later⟩ := take_word carries (by rw [List.length_map, eight])
      obtain ⟨data, here⟩ := Word.c_of_data word eight
      obtain ⟨acc', inside', hands⟩ := inside.beat data
      rw [here] at inside'
      obtain ⟨now, ws', deaf, pend, r, rfl, waiting, rest', four, heard, delivers⟩ :=
        ih left.length (by omega) inside' later (by omega) (by rwa [List.append_assoc]) rfl
      refine ⟨w :: now, ws', deaf, pend, r, rfl, waiting, rest', four, heard, fun more => ?_⟩
      have first : s.staged (w :: now) = (s.next w).stage ++ (s.next w).staged now := rfl
      rw [first, List.append_assoc, hands, delivers, List.append_assoc]

/-! ## The line -/

/-- The frames the receiver takes. -/
def Fits (x : Sent) : Prop := x.Aligned ∧ 4 ≤ x.gap ∧ 8 ≤ x.body.length

instance (x : Sent) : Decidable (Fits x) := inferInstanceAs (Decidable (_ % 4 = 0 ∧ _ ∧ _))

/-- Idle words bring out what is pending. -/
theorem Waiting.flush {s : Xgmii2axis} {deaf : Bool} {pend : List Beat} (waiting : s.Waiting deaf pend) {ws : List Word}
    {n : ℕ} (carries : carried ws = idles n) (pos : 0 < n) : s.staged ws = pend := by
  induction ws generalizing s deaf pend n with
  | nil =>
    have empty := congrArg List.length carries
    rw [length_idles] at empty
    exact absurd empty.symm (Nat.ne_of_gt pos)
  | cons w ws ih =>
    have size : 8 * (ws.length + 1) = n := by
      have both := congrArg List.length carries
      rwa [length_carried, length_idles, List.length_cons] at both
    have eight : n = 8 + 8 * ws.length := by omega
    rw [eight, idles_add] at carries
    obtain ⟨v, vs, same, word, later⟩ := take_word carries rfl
    obtain ⟨rfl, rfl⟩ := List.cons.inj same
    obtain ⟨waiting', out⟩ := waiting.idle word
    have first : s.staged (w :: ws) = (s.next w).stage ++ (s.next w).staged ws := rfl
    rw [first, out]
    cases ws with
    | nil => exact List.append_nil _
    | cons v vs =>
      rw [ih waiting' later (by rw [List.length_cons]; omega), List.append_nil]

/-- **A line of frames becomes the packets in it.** -/
theorem Waiting.line {s : Xgmii2axis} {deaf : Bool} {pend : List Beat} (waiting : s.Waiting deaf pend)
    {ws : List Word} {r : ℕ} {sent : List Sent} (carries : carried ws = idles r ++ (Nfmac.line sent ++ idles 8))
    (aligned : r % 4 = 0) (heard : deaf = true → 4 ≤ r) (fits : ∀ x ∈ sent, Fits x) :
    ∃ beats, s.staged ws = pend ++ beats ∧
      ∀ more, gather [] (beats ++ more) = sent.map (fun x => verdict x.body) ++ gather [] more := by
  induction sent generalizing s deaf pend ws r with
  | nil =>
    rw [Nfmac.line, List.flatMap_nil, List.nil_append, ← idles_add] at carries
    exact ⟨[], (waiting.flush carries (by omega)).trans (List.append_nil _).symm, fun _ => rfl⟩
  | cons x sent ih =>
    obtain ⟨lanes, apart, enough⟩ := fits x List.mem_cons_self
    have split : carried ws = idles r ++ (preamble ++ (x.body.map .data ++
        (.control charT :: idles x.gap ++ (Nfmac.line sent ++ idles 8)))) := by
      rw [carries, Nfmac.line, List.flatMap_cons, framed]
      simp only [List.append_assoc, List.cons_append, List.nil_append]
      rfl
    obtain ⟨now, ws, taken, left, rfl, inside, body, four, later, out⟩ :=
      waiting.start split aligned heard (by omega)
    rw [Sent.Aligned, body, List.length_append] at lanes
    obtain ⟨now', ws, deaf', pend', r', rfl, waiting', rest, four', heard', delivers⟩ :=
      inside.frame later (by omega) apart (by rwa [← body])
    obtain ⟨beats, outs, packets⟩ := ih waiting' rest four' heard' fun y mem => fits y (List.mem_cons_of_mem x mem)
    refine ⟨(runs next s now).staged now' ++ (pend' ++ beats), ?_, ?_⟩
    · rw [staged_append, staged_append, out, outs]
    · intro more
      rw [List.append_assoc, List.append_assoc, delivers, packets, List.map_cons, ← body, List.cons_append]

/-! ## From reset on -/

/-- In synch a beat is on the stream one clock after it was staged. -/
theorem delivered_eq_staged {s : Xgmii2axis} (synch : s.synch = true) (ws : List Word) (w : Word) :
    s.delivered (ws ++ [w]) = s.stage ++ s.staged ws := by
  have shows (v : Word) : (s.next v).beat = s.stage := by
    rw [next_synch synch]
    rfl
  induction ws generalizing s with
  | nil =>
    have one : s.delivered [w] = (s.next w).beat := List.append_nil _
    rw [List.nil_append, one, shows]
    exact (List.append_nil _).symm
  | cons v ws ih =>
    have synch' : (s.next v).synch = true := by
      rw [next_synch synch]
    have later := ih synch' fun u => by
      rw [next_synch synch']
      rfl
    have first : s.delivered (v :: ws ++ [w]) = (s.next v).beat ++ (s.next v).delivered (ws ++ [w]) := rfl
    rw [first, shows, later]
    rfl

/-- In reset, whatever was going on. -/
structure Reset (s : Xgmii2axis) : Prop where
  fsm : s.fsm = .sres
  tvalid : s.tvalidI = false ∧ s.tvalidD0 = false

/-- The reset of the output side makes no difference to it. -/
theorem reset_clock (s : Xgmii2axis) (aresetn : Bool) (w : Word) : (s.clock true aresetn w).Reset := by
  unfold clock output
  rw [if_pos rfl]
  split
  · exact ⟨rfl, rfl, rfl⟩
  · split
    · exact ⟨rfl, rfl, rfl⟩
    · exact ⟨rfl, rfl, rfl⟩

/-- Nothing is put out while nothing is staged. -/
theorem beat_next {s : Xgmii2axis} (empty : s.tvalidI = false) (w : Word) : (s.next w).beat = [] := by
  have silent : (s.next w).tvalid = false := by
    rw [next, clock, output]
    split
    · rfl
    · split
      · exact empty
      · rfl
  rw [beat, silent, if_neg Bool.false_ne_true]

/-- The process `output` leaves the registers of the adapter alone. -/
theorem next_inner (s : Xgmii2axis) (w : Word) :
    (s.next w).fsm = (s.adapter w).fsm ∧ (s.next w).tvalidI = (s.adapter w).tvalidI ∧
      (s.next w).tvalidD0 = (s.adapter w).tvalidD0 ∧ (s.next w).inboundFrame = (s.adapter w).inboundFrame ∧
      (s.next w).goodFrames = (s.adapter w).goodFrames ∧ (s.next w).badFrames = (s.adapter w).badFrames := by
  unfold next clock output
  simp only [Bool.false_eq_true, if_false]
  split
  · exact ⟨rfl, rfl, rfl, rfl, rfl, rfl⟩
  · split
    · exact ⟨rfl, rfl, rfl, rfl, rfl, rfl⟩
    · exact ⟨rfl, rfl, rfl, rfl, rfl, rfl⟩

/-- Out of reset, and no frame has come. -/
structure Resting (s : Xgmii2axis) : Prop where
  fsm : s.fsm = .idle
  tvalid : s.tvalidI = false ∧ s.tvalidD0 = false

theorem Reset.next {s : Xgmii2axis} (reset : s.Reset) (w : Word) : (s.next w).Resting := by
  obtain ⟨fsm, valid, valid', -⟩ := next_inner s w
  rw [adapter, reset.fsm] at fsm valid valid'
  exact ⟨fsm, valid.trans reset.tvalid.2, valid'.trans reset.tvalid.2⟩

/-- A word of idle characters ends any frame that was coming in, and the word after it finds the receiver in synch. -/
theorem Resting.idle {s : Xgmii2axis} (resting : s.Resting) {w : Word} (word : w.symbols = idles 8) :
    (s.next w).Resting ∧ (s.next w).inboundFrame = false ∧ (s.inboundFrame = false → (s.next w).synch = true) := by
  obtain ⟨none0, none4⟩ := Word.sof_of_lanes (idles 3) word
  have after : s.adapter w = { s.shifts with
      tvalidD0 := false, tlastI := false, tuserI := false, crc32 := crc8023Preset, inboundFrame := false, dReg := w.d } := by
    rw [adapter, resting.fsm]
    simp only [none0.trans (rfl : _ = false), none4.trans (rfl : _ = false), Bool.false_eq_true, if_false]
  obtain ⟨fsm, valid, valid', inbound, -⟩ := next_inner s w
  rw [after] at fsm valid valid' inbound
  refine ⟨⟨fsm.trans resting.fsm, valid.trans resting.tvalid.2, valid'⟩, inbound, fun gap => ?_⟩
  simp [Xgmii2axis.next, clock, output, gap]

/-- Three words after a reset, the first of them any. -/
theorem Reset.waiting {s : Xgmii2axis} (reset : s.Reset) {u v w : Word} (word : v.symbols = idles 8)
    (word' : w.symbols = idles 8) :
    (runs Xgmii2axis.next s [u, v, w]).Waiting false [] ∧ (runs Xgmii2axis.next s [u, v, w]).stage = [] ∧
      s.delivered [u, v, w] = [] := by
  have one := reset.next u
  obtain ⟨two, gap, -⟩ := one.idle word
  obtain ⟨three, -, synch⟩ := two.idle word'
  refine ⟨⟨synch gap, .inl ⟨three.fsm, three.tvalid.2, rfl, rfl⟩⟩, stage_empty three.tvalid.1, ?_⟩
  have parts : s.delivered [u, v, w] =
      (s.next u).beat ++ (((s.next u).next v).beat ++ ((((s.next u).next v).next w).beat ++ [])) := rfl
  rw [parts, beat_next reset.tvalid.1, beat_next one.tvalid.1, beat_next two.tvalid.1]
  rfl

/-- A line of frames from reset on, and no part of a packet is left at its end. -/
theorem Reset.line {s : Xgmii2axis} (reset : s.Reset) {ws : List Word} {before : ℕ} {sent : List Sent}
    (carries : carried ws = idles before ++ Nfmac.line sent ++ idles 16) (quiet : 24 ≤ before) (aligned : before % 4 = 0)
    (fits : ∀ x ∈ sent, Fits x) :
    gather [] (s.delivered ws) = sent.map (fun x => verdict x.body) ∧ leftover [] (s.delivered ws) = [] := by
  obtain ⟨r, rfl⟩ := Nat.exists_eq_add_of_le quiet
  -- The first three words, and the last one.
  have split : carried ws = idles 8 ++ (idles 8 ++ (idles 8 ++ (idles r ++ (Nfmac.line sent ++ idles 16)))) := by
    have count : 24 + r = 8 + (8 + (8 + r)) := by omega
    rw [carries, count]
    simp only [idles_add, List.append_assoc]
  obtain ⟨w₁, ws, rfl, -, split₁⟩ := take_word split rfl
  obtain ⟨w₂, ws, rfl, word₂, split₂⟩ := take_word split₁ rfl
  obtain ⟨w₃, ws, rfl, word₃, split₃⟩ := take_word split₂ rfl
  obtain ⟨waiting, empty, silent⟩ := reset.waiting (u := w₁) word₂ word₃
  obtain rfl | ⟨ws, last, rfl⟩ := List.eq_nil_or_concat' ws
  · have lengths := congrArg List.length split₃
    rw [length_carried, List.length_append, List.length_append, length_idles 16] at lengths
    simp only [List.length_nil] at lengths
    omega
  have split₄ : carried ws = idles r ++ (Nfmac.line sent ++ idles 8) := by
    have both : carried ws ++ last.symbols = (idles r ++ (Nfmac.line sent ++ idles 8)) ++ idles 8 := by
      have all : carried (ws ++ [last]) = carried ws ++ last.symbols := by
        rw [carried, List.flatMap_append, List.flatMap_singleton]
        rfl
      rw [← all, split₃, idles_add 8 8]
      simp only [List.append_assoc]
    exact (List.append_inj' both (length_lanes _ _)).1
  obtain ⟨beats, out, packets⟩ := waiting.line split₄ (by omega) (fun deaf => (by cases deaf)) fits
  have parts : s.delivered (w₁ :: w₂ :: w₃ :: (ws ++ [last])) =
      s.delivered [w₁, w₂, w₃] ++ (runs Xgmii2axis.next s [w₁, w₂, w₃]).delivered (ws ++ [last]) :=
    outputs_append Xgmii2axis.next _ s [w₁, w₂, w₃] (ws ++ [last])
  apply leftover_of_gather
  rw [parts, silent, delivered_eq_staged waiting.synch, empty, out]
  exact packets

/-- **The receiver delivers the frames of a line** that it can take, in order, without their check sequences and each
with the verdict on it. -/
theorem receives_line (s : Xgmii2axis) (aresetn : Bool) (w : Word) (ws : List Word) (before : ℕ) (sent : List Sent)
    (carries : carried ws = idles before ++ line sent ++ idles 16) (quiet : 24 ≤ before) (aligned : before % 4 = 0)
    (fits : ∀ x ∈ sent, Fits x) :
    gather [] ((s.clock true aresetn w).delivered ws) = sent.map fun x => verdict x.body :=
  ((reset_clock s aresetn w).line carries quiet aligned fits).1

/-- All registers clear. -/
def zero : Xgmii2axis where
  synch := false
  tdata := 0#64
  tkeep := 0#8
  tvalid := false
  tlast := false
  tuser := false
  goodFrames := 0#32
  badFrames := 0#32
  fsm := .sres
  tdataI := 0#64
  tkeepI := 0#8
  lastTkeepI := 0#8
  tvalidI := false
  tlastI := false
  tuserI := false
  tdataD0 := 0#64
  tvalidD0 := false
  dReg := 0#64
  inboundFrame := false
  auxDw := 0#32
  chkTchar := false
  crc32 := 0#32
  crc32_7B := 0#32
  crc32_6B := 0#32
  crc32_5B := 0#32
  crc32_4B := 0#32
  rcvedCrc := 0#32
  calctedCrc := 0#32

/-- Two frames of eight bytes on the line, one that starts in lane 0 and one in lane 4. The check sequence of the second
is wrong. -/
def twoFrames : List Word :=
  [⟨qwIdleD, qwIdleC⟩, ⟨qwIdleD, qwIdleC⟩, ⟨qwIdleD, qwIdleC⟩,
    ⟨preambleLane0D, preambleLane0C⟩, ⟨0xb63cfbcd04030201#64, 0x00#8⟩, ⟨0x07070707070707fd#64, 0xff#8⟩,
    ⟨preambleLane4D, preambleLane4C⟩, ⟨0x04030201d5555555#64, 0x00#8⟩, ⟨0x070707fdb63cfbcc#64, 0xf0#8⟩,
    ⟨qwIdleD, qwIdleC⟩, ⟨qwIdleD, qwIdleC⟩, ⟨qwIdleD, qwIdleC⟩]

theorem receives_two : gather [] ((zero.clock true true ⟨qwIdleD, qwIdleC⟩).delivered twoFrames) =
    [{ payload := [1#8, 2#8, 3#8, 4#8], good := true }, { payload := [1#8, 2#8, 3#8, 4#8], good := false }] :=
  (receives_line zero true ⟨qwIdleD, qwIdleC⟩ twoFrames 24
    [{ body := [1#8, 2#8, 3#8, 4#8, 0xcd#8, 0xfb#8, 0x3c#8, 0xb6#8], gap := 11 },
      { body := [1#8, 2#8, 3#8, 4#8, 0xcc#8, 0xfb#8, 0x3c#8, 0xb6#8], gap := 11 }]
    (by decide +kernel) (by decide) (by decide)
    (List.forall_mem_cons.mpr ⟨by decide, List.forall_mem_cons.mpr ⟨by decide, List.forall_mem_nil _⟩⟩)).trans
    (by decide +kernel)

end Xgmii2axis

end Zcu102.Nfmac
