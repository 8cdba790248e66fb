import Zcu102.Nfmac.Tx

/-!
# From the line to the stream

`xgmii2axis.v` looks for a start character in lane 0 or 4 and passes the bytes after the
preamble on as beats. Where the frame ends is known only when the terminate character
comes, so that a beat waits until the word after it is seen, and the checks over four to
eight bytes of every word are kept. The last beat carries the verdict on the check
sequence in `tuser`.
-/

namespace Zcu102.Nfmac
set_option autoImplicit false
open Zcu102.Sim

/-! ## The model -/

namespace Xgmii2axis

inductive Fsm
  | sres | idle | stLane0 | stLane4 | fin | dLane4 | finL4
  deriving DecidableEq

end Xgmii2axis

/-- The registers of the module, but for `len` and `c_reg`, which nothing reads. -/
structure Xgmii2axis where
  synch : Bool
  tdata : BitVec 64
  tkeep : BitVec 8
  tvalid : Bool
  tlast : Bool
  tuser : Bool
  goodFrames : BitVec 32
  badFrames : BitVec 32
  fsm : Xgmii2axis.Fsm
  tdataI : BitVec 64
  tkeepI : BitVec 8
  lastTkeepI : BitVec 8
  tvalidI : Bool
  tlastI : Bool
  tuserI : Bool
  tdataD0 : BitVec 64
  tvalidD0 : Bool
  dReg : BitVec 64
  inboundFrame : Bool
  auxDw : BitVec 32
  chkTchar : Bool
  crc32 : BitVec 32
  crc32_7B : BitVec 32
  crc32_6B : BitVec 32
  crc32_5B : BitVec 32
  crc32_4B : BitVec 32
  rcvedCrc : BitVec 32
  calctedCrc : BitVec 32

/-- A word of the line. -/
structure Word where
  d : BitVec 64
  c : BitVec 8

def Word.symbols (w : Word) : List Symbol := lanes w.d w.c

namespace Xgmii2axis

/-- The checks over four to eight bytes of a word. -/
def crcs (s : Xgmii2axis) (d : BitVec 64) : Xgmii2axis :=
  { s with
    crc32 := crc8B s.crc32 d
    crc32_7B := crc7B s.crc32 (d.extractLsb' 0 56)
    crc32_6B := crc6B s.crc32 (d.extractLsb' 0 48)
    crc32_5B := crc5B s.crc32 (d.extractLsb' 0 40)
    crc32_4B := crc4B s.crc32 (d.extractLsb' 0 32) }

/-- What every clock out of reset does before the `case`: the counters and the second stage. -/
def shifts (s : Xgmii2axis) : Xgmii2axis :=
  { s with
    goodFrames := if s.tvalid && s.tlast && s.tuser then s.goodFrames + 1#32 else s.goodFrames
    badFrames := if s.tvalid && s.tlast && !s.tuser then s.badFrames + 1#32 else s.badFrames
    tdataI := s.tdataD0, tvalidI := s.tvalidD0 }

/-- The assignments of `ST_LANE0` before its `case`. -/
def takesLane0 (s : Xgmii2axis) (d : BitVec 64) : Xgmii2axis :=
  { s.shifts.crcs d with
    tdataD0 := d, tvalidD0 := true, tkeepI := 0xff#8, tlastI := false, tuserI := false, dReg := d }

/-- The assignments of `D_LANE4` before its `case`. -/
def takesLane4 (s : Xgmii2axis) (d : BitVec 64) : Xgmii2axis :=
  { s.shifts.crcs d with
    tdataD0 := d.extractLsb' 0 32 ++ s.auxDw, tvalidD0 := true, tkeepI := 0xff#8, auxDw := d.extractLsb' 32 32
    dReg := d }

/-- A check sequence against a register. -/
def check (crc rcved : BitVec 32) : Bool := ~~~crcRev crc == rcved

/-- The terminate character comes early enough for the beat before it to be the last one. -/
def ends (s : Xgmii2axis) (tkeep : BitVec 8) (good : Bool) : Xgmii2axis :=
  { s with tkeepI := tkeep, tvalidD0 := false, tlastI := true, tuserI := s.tuserI || good, fsm := .idle }

/-- The word with the terminate character has bytes of the frame: one more beat is to come. -/
def endsLater (s : Xgmii2axis) (lastTkeep : BitVec 8) (rcved calcted : BitVec 32) (tchar : Byte) (fsm : Fsm) :
    Xgmii2axis :=
  { s with lastTkeepI := lastTkeep, rcvedCrc := rcved, calctedCrc := calcted, chkTchar := isTchar tchar, fsm := fsm }

/-- Control characters where there should be none. -/
def breaks (s : Xgmii2axis) : Xgmii2axis := { s with tlastI := true, tvalidD0 := false, tvalidI := true, fsm := .idle }

/-- The beat that was waiting is the last one. -/
def finish (s : Xgmii2axis) : Xgmii2axis :=
  { s with
    tkeepI := s.lastTkeepI, tlastI := true, tvalidD0 := false, crc32 := crc8023Preset
    tuserI := s.tuserI || (check s.calctedCrc s.rcvedCrc && s.chkTchar) }

/-- The process `adapter` out of reset. -/
def adapter (s : Xgmii2axis) (w : Word) : Xgmii2axis :=
  let d := w.d
  let c := w.c
  let s' := s.shifts
  match s.fsm with
  | .sres => { s' with goodFrames := 0#32, badFrames := 0#32, fsm := .idle }
  | .idle =>
    let s' := { s' with
      tvalidD0 := false, tlastI := false, tuserI := false, crc32 := crc8023Preset, inboundFrame := false, dReg := d }
    if sofLane0 d c then { s' with inboundFrame := true, fsm := .stLane0 }
    else if sofLane4 d c then { s' with inboundFrame := true, fsm := .stLane4 }
    else s'
  | .stLane0 =>
    let s' := s.takesLane0 d
    if c = 0x00#8 then s'
    else if c = 0xff#8 then
      s'.ends 0x0f#8 (check s.crc32_4B (s.dReg.extractLsb' 32 32) && isTchar (d.extractLsb' 0 8))
    else if c = 0xfe#8 then
      s'.ends 0x1f#8
        (check s.crc32_5B (d.extractLsb' 0 8 ++ s.dReg.extractLsb' 40 24) && isTchar (d.extractLsb' 8 8))
    else if c = 0xfc#8 then
      s'.ends 0x3f#8
        (check s.crc32_6B (d.extractLsb' 0 16 ++ s.dReg.extractLsb' 48 16) && isTchar (d.extractLsb' 16 8))
    else if c = 0xf8#8 then
      s'.ends 0x7f#8
        (check s.crc32_7B (d.extractLsb' 0 24 ++ s.dReg.extractLsb' 56 8) && isTchar (d.extractLsb' 24 8))
    else if c = 0xf0#8 then
      s'.ends 0xff#8 (check s.crc32 (d.extractLsb' 0 32) && isTchar (d.extractLsb' 32 8))
    else if c = 0xe0#8 then
      s'.endsLater 0x01#8 (d.extractLsb' 8 32) (crc1B s.crc32 (d.extractLsb' 0 8)) (d.extractLsb' 40 8) .fin
    else if c = 0xc0#8 then
      s'.endsLater 0x03#8 (d.extractLsb' 16 32) (crc2B s.crc32 (d.extractLsb' 0 16)) (d.extractLsb' 48 8) .fin
    else if c = 0x80#8 then
      s'.endsLater 0x07#8 (d.extractLsb' 24 32) (crc3B s.crc32 (d.extractLsb' 0 24)) (d.extractLsb' 56 8) .fin
    else s'.breaks
  | .fin => { s'.finish with fsm := if sofLane4 d c then .stLane4 else .idle }
  | .stLane4 =>
    { s' with
      tlastI := false, tuserI := false, crc32 := crc4B s.crc32 (d.extractLsb' 32 32), auxDw := d.extractLsb' 32 32
      fsm := if c = 0x00#8 then .dLane4 else .idle }
  | .dLane4 =>
    let s' := s.takesLane4 d
    if c = 0x00#8 then s'
    else if c = 0xff#8 then
      s'.ends 0xff#8 (check s.crc32_4B (s.dReg.extractLsb' 32 32) && isTchar (d.extractLsb' 0 8))
    else if c = 0xfe#8 then
      s'.endsLater 0x01#8 (d.extractLsb' 0 8 ++ s.auxDw.extractLsb' 8 24) s.crc32_5B (d.extractLsb' 8 8) .finL4
    else if c = 0xfc#8 then
      s'.endsLater 0x03#8 (d.extractLsb' 0 16 ++ s.auxDw.extractLsb' 16 16) s.crc32_6B (d.extractLsb' 16 8) .finL4
    else if c = 0xf8#8 then
      s'.endsLater 0x07#8 (d.extractLsb' 0 24 ++ s.auxDw.extractLsb' 24 8) s.crc32_7B (d.extractLsb' 24 8) .finL4
    else if c = 0xf0#8 then
      s'.endsLater 0x0f#8 (d.extractLsb' 0 32) s.crc32 (d.extractLsb' 32 8) .fin
    else if c = 0xe0#8 then
      s'.endsLater 0x1f#8 (d.extractLsb' 8 32) (crc1B s.crc32 (d.extractLsb' 0 8)) (d.extractLsb' 40 8) .fin
    else if c = 0xc0#8 then
      s'.endsLater 0x3f#8 (d.extractLsb' 16 32) (crc2B s.crc32 (d.extractLsb' 0 16)) (d.extractLsb' 48 8) .fin
    else if c = 0x80#8 then
      s'.endsLater 0x7f#8 (d.extractLsb' 24 32) (crc3B s.crc32 (d.extractLsb' 0 24)) (d.extractLsb' 56 8) .fin
    else s'.breaks
  | .finL4 =>
    { s'.finish with fsm := if sofLane0 d c then .stLane0 else if sofLane4 d c then .stLane4 else .idle }

/-- The process `output`, on the registers of the clock before: nothing is put out until a gap has been seen. -/
def output (s : Xgmii2axis) (aresetn : Bool) (s' : Xgmii2axis) : Xgmii2axis :=
  if !aresetn then { s' with tvalid := false, synch := false }
  else if !s.inboundFrame || s.synch then
    { s' with
      synch := true, tdata := s.tdataI, tkeep := s.tkeepI, tvalid := s.tvalidI, tlast := s.tlastI, tuser := s.tuserI }
  else { s' with tvalid := false }

/-- One clock of both processes. -/
def clock (s : Xgmii2axis) (rst aresetn : Bool) (w : Word) : Xgmii2axis :=
  s.output aresetn (if rst then { s with tvalidI := false, tvalidD0 := false, fsm := .sres } else s.adapter w)

/-- One clock out of reset. -/
def next (s : Xgmii2axis) (w : Word) : Xgmii2axis := s.clock false true w

/-- The beat the stream shows. -/
def beat (s : Xgmii2axis) : List Beat :=
  if s.tvalid then [{ tdata := s.tdata, tkeep := s.tkeep, tlast := s.tlast, tuser := s.tuser }] else []

/-- What a run delivers. -/
def delivered (s : Xgmii2axis) (ws : List Word) : List Beat := outputs next (fun s w => (s.next w).beat) s ws

end Xgmii2axis

/-! ## Packets out of beats -/

/-- The enabled bytes. -/
def Beat.bytes (b : Beat) : List Byte := ((List.range 8).filter b.tkeep.getLsbD).map (byteAt b.tdata)

/-- A packet as the stream delivers it. -/
structure Received where
  payload : List Byte
  good : Bool
  deriving DecidableEq

/-- The packets in a stream of beats, where `acc` is what has come of the first. -/
def gather (acc : List Byte) : List Beat → List Received
  | [] => []
  | b :: bs =>
    if b.tlast then { payload := acc ++ b.bytes, good := b.tuser } :: gather [] bs else gather (acc ++ b.bytes) bs

/-- What should become of a frame body: the last four bytes are its check sequence. -/
def verdict (body : List Byte) : Received :=
  { payload := body.take (body.length - 4)
    good := decide (body.drop (body.length - 4) = fcs (body.take (body.length - 4))) }

open Axis2xgmii (keep one_to_eight)

theorem bytes_keep (d : BitVec 64) (last user : Bool) {k : ℕ} (pos : 0 < k) (le : k ≤ 8) :
    Beat.bytes { tdata := d, tkeep := keep k, tlast := last, tuser := user } = (Sim.bytes 8 d).take k := by
  have enabled : (List.range 8).filter (keep k).getLsbD = List.range k := by
    obtain rfl | rfl | rfl | rfl | rfl | rfl | rfl | rfl := one_to_eight pos le
    all_goals decide
  rw [bytes_take d le, Beat.bytes, enabled]
  rfl

theorem gather_full (acc : List Byte) (d : BitVec 64) (user : Bool) (more : List Beat) :
    gather acc ({ tdata := d, tkeep := 0xff#8, tlast := false, tuser := user } :: more) =
      gather (acc ++ Sim.bytes 8 d) more := by
  have whole := bytes_keep d false user (k := 8) (by decide) (by decide)
  rw [List.take_of_length_le (by rw [length_bytes])] at whole
  rw [gather, if_neg Bool.false_ne_true]
  exact congrArg (fun bs => gather (acc ++ bs) more) whole

theorem gather_last (acc : List Byte) (d : BitVec 64) (user : Bool) (more : List Beat) {k : ℕ} (pos : 0 < k) (le : k ≤ 8) :
    gather acc ({ tdata := d, tkeep := keep k, tlast := true, tuser := user } :: more) =
      { payload := acc ++ (Sim.bytes 8 d).take k, good := user } :: gather [] more := by
  rw [gather, if_pos rfl, bytes_keep d true user pos le]

/-- What has come of the packet that is not complete after some beats. -/
def leftover (acc : List Byte) : List Beat → List Byte
  | [] => acc
  | b :: bs => if b.tlast then leftover [] bs else leftover (acc ++ b.bytes) bs

theorem gather_append (acc : List Byte) (bs cs : List Beat) :
    gather acc (bs ++ cs) = gather acc bs ++ gather (leftover acc bs) cs := by
  induction bs generalizing acc with
  | nil => rfl
  | cons b bs ih =>
    rw [List.cons_append, gather, gather, leftover]
    split
    · rw [ih, List.cons_append]
    · exact ih _

theorem leftover_append (acc : List Byte) (bs cs : List Beat) :
    leftover acc (bs ++ cs) = leftover (leftover acc bs) cs := by
  induction bs generalizing acc with
  | nil => rfl
  | cons b bs ih =>
    rw [List.cons_append, leftover, leftover]
    split
    · exact ih _
    · exact ih _

/-- A last beat with nothing in it shows what is left over. -/
theorem leftover_of_gather {acc acc' : List Byte} {bs : List Beat} {ps : List Received}
    (same : ∀ more, gather acc (bs ++ more) = ps ++ gather acc' more) : gather acc bs = ps ∧ leftover acc bs = acc' := by
  have all := same []
  have mark := same [{ tdata := 0#64, tkeep := 0#8, tlast := true, tuser := false }]
  simp only [gather, List.append_nil] at all
  rw [gather_append, all] at mark
  obtain ⟨last, -⟩ := List.cons.inj (List.append_cancel_left mark)
  refine ⟨all, List.append_cancel_right (Received.mk.inj last).1⟩

/-! ## Words of the line -/

theorem zero_to_seven {t : ℕ} (less : t < 8) :
    t = 0 ∨ t = 1 ∨ t = 2 ∨ t = 3 ∨ t = 4 ∨ t = 5 ∨ t = 6 ∨ t = 7 := by
  omega

namespace Word

theorem c_of_data {w : Word} {bs : List Byte} (word : w.symbols = bs.map .data) (size : bs.length = 8) :
    w.c = 0#8 ∧ bytes 8 w.d = bs := by
  constructor
  · apply controls_inj
    rw [controls_of_lanes word, List.map_map]
    exact List.map_const'.trans (by rw [size]; rfl)
  · rw [bytes_of_lanes word, List.map_map]
    exact List.map_id bs

/-- The end of a frame as the receiver looks at it: `rest`, the terminate character and control characters. -/
structure Ends (w : Word) (rest : List Byte) : Prop where
  less : rest.length < 8
  c : w.c = ~~~keep rest.length
  front : (Sim.bytes 8 w.d).take rest.length = rest
  tchar : isTchar (byteAt w.d rest.length) = true

/-- The end of a frame on a line of frames. -/
theorem ends_of_symbols {w : Word} {rest : List Byte} (less : rest.length < 8)
    (symbols : w.symbols = rest.map .data ++ .control charT :: idles (7 - rest.length)) : w.Ends rest := by
  have data : (rest.map Symbol.data).map Symbol.isControl = List.replicate rest.length false := by
    rw [List.map_map]
    exact List.map_const'
  have bytes : Sim.bytes 8 w.d = rest ++ charT :: List.replicate (7 - rest.length) charI := by
    rw [bytes_of_lanes symbols, List.map_append, List.map_map, List.map_cons, idles, List.map_replicate]
    exact congrArg (· ++ _) (List.map_id rest)
  refine ⟨less, ?_, by rw [bytes, List.take_left], ?_⟩
  · apply controls_inj
    rw [controls_of_lanes symbols, List.map_append, data]
    generalize rest.length = t at less
    obtain rfl | rfl | rfl | rfl | rfl | rfl | rfl | rfl := zero_to_seven less
    all_goals decide
  · have here : (Sim.bytes 8 w.d)[rest.length]? = some charT := by
      rw [bytes, List.getElem?_append_right (Nat.le_refl _), Nat.sub_self]
      rfl
    rw [Sim.bytes, List.getElem?_map, List.getElem?_range less] at here
    rw [Option.some.inj here]
    rfl

end Word

namespace Xgmii2axis

/-- The comparison of the source is the one of the bytes. -/
theorem verdict_append (payload : List Byte) (r : BitVec 32) :
    verdict (payload ++ bytes 4 r) = { payload := payload, good := check (crcBytes crc8023Preset payload) r } := by
  have size : (payload ++ bytes 4 r).length - 4 = payload.length := by
    rw [List.length_append, length_bytes, Nat.add_sub_cancel]
  rw [verdict, size, List.take_left, List.drop_left, check, fcs]
  congr 1
  rw [Bool.eq_iff_iff, decide_eq_true_iff, beq_iff_eq]
  exact ⟨fun same => (bytes_inj rfl same).symm, fun same => congrArg _ same.symm⟩

/-! ## States of the adapter -/

/-- The beat that goes to the output registers next. -/
def stage (s : Xgmii2axis) : List Beat :=
  if s.tvalidI then [{ tdata := s.tdataI, tkeep := s.tkeepI, tlast := s.tlastI, tuser := s.tuserI }] else []

theorem stage_empty {s : Xgmii2axis} (empty : s.tvalidI = false) : s.stage = [] := by
  rw [stage, empty, if_neg Bool.false_ne_true]

theorem stage_full {s : Xgmii2axis} (full : s.tvalidI = true) :
    s.stage = [{ tdata := s.tdataI, tkeep := s.tkeepI, tlast := s.tlastI, tuser := s.tuserI }] := by
  rw [stage, full, if_pos rfl]

/-- What a run hands to the output registers. -/
def staged (s : Xgmii2axis) (ws : List Word) : List Beat := outputs next (fun s w => (s.next w).stage) s ws

/-- In synch the output registers follow. -/
theorem next_synch {s : Xgmii2axis} (synch : s.synch = true) (w : Word) :
    s.next w = { s.adapter w with
      synch := true, tdata := s.tdataI, tkeep := s.tkeepI, tvalid := s.tvalidI, tlast := s.tlastI, tuser := s.tuserI } := by
  simp [next, clock, output, synch]

/-- The last beat of a frame is in `tdata_d0`, and the verdict on it is out. -/
def Holds (s : Xgmii2axis) (pend : List Beat) : Prop :=
  s.tvalidD0 = true ∧ s.tuserI = false ∧
    pend = [{ tdata := s.tdataD0, tkeep := s.lastTkeepI, tlast := true
              tuser := check s.calctedCrc s.rcvedCrc && s.chkTchar }]

theorem Holds.stage {s s' : Xgmii2axis} {pend : List Beat} (holds : s.Holds pend) (valid : s'.tvalidI = s.tvalidD0)
    (data : s'.tdataI = s.tdataD0) (keeps : s'.tkeepI = s.lastTkeepI) (last : s'.tlastI = true)
    (user : s'.tuserI = (s.tuserI || (check s.calctedCrc s.rcvedCrc && s.chkTchar))) : s'.stage = pend := by
  obtain ⟨full, plain, rfl⟩ := holds
  rw [stage_full (valid.trans full), data, keeps, last, user, plain, Bool.false_or]

/-- No frame is coming in, and `pend` is yet to be staged. In the state `FIN` a start in lane 0 is not seen. -/
def Rests (s : Xgmii2axis) (deaf : Bool) (pend : List Beat) : Prop :=
  s.fsm = .idle ∧ s.tvalidD0 = false ∧ pend = [] ∧ deaf = false ∨
    s.fsm = .finL4 ∧ s.Holds pend ∧ deaf = false ∨ s.fsm = .fin ∧ s.Holds pend ∧ deaf = true

/-- Between frames. -/
structure Waiting (s : Xgmii2axis) (deaf : Bool) (pend : List Beat) : Prop where
  synch : s.synch = true
  state : s.Rests deaf pend

/-- After a start in lane 0: `taken` has come, and `acc` of it has been handed on. -/
structure InLane0 (s : Xgmii2axis) (taken acc : List Byte) : Prop where
  synch : s.synch = true
  fsm : s.fsm = .stLane0
  crc : s.crc32 = crcBytes crc8023Preset taken
  held : s.tvalidD0 = false ∧ taken = [] ∧ acc = [] ∨
    s.tvalidD0 = true ∧ s.tdataD0 = s.dReg ∧ taken = acc ++ bytes 8 s.dReg ∧
      s.crc32_7B = crcBytes crc8023Preset (acc ++ (bytes 8 s.dReg).take 7) ∧
      s.crc32_6B = crcBytes crc8023Preset (acc ++ (bytes 8 s.dReg).take 6) ∧
      s.crc32_5B = crcBytes crc8023Preset (acc ++ (bytes 8 s.dReg).take 5) ∧
      s.crc32_4B = crcBytes crc8023Preset (acc ++ (bytes 8 s.dReg).take 4)

/-- After a start in lane 4 the beats are shifted: half a word is in `aux_dw`. -/
structure InLane4 (s : Xgmii2axis) (taken acc : List Byte) : Prop where
  synch : s.synch = true
  fsm : s.fsm = .dLane4
  plain : s.tlastI = false ∧ s.tuserI = false
  crc : s.crc32 = crcBytes crc8023Preset taken
  held : s.tvalidD0 = false ∧ taken = bytes 4 s.auxDw ∧ acc = [] ∨
    s.tvalidD0 = true ∧ s.dReg.extractLsb' 32 32 = s.auxDw ∧ taken = acc ++ bytes 8 s.tdataD0 ++ bytes 4 s.auxDw ∧
      s.crc32_7B = crcBytes crc8023Preset (acc ++ bytes 8 s.tdataD0 ++ (bytes 4 s.auxDw).take 3) ∧
      s.crc32_6B = crcBytes crc8023Preset (acc ++ bytes 8 s.tdataD0 ++ (bytes 4 s.auxDw).take 2) ∧
      s.crc32_5B = crcBytes crc8023Preset (acc ++ bytes 8 s.tdataD0 ++ (bytes 4 s.auxDw).take 1) ∧
      s.crc32_4B = crcBytes crc8023Preset (acc ++ bytes 8 s.tdataD0)

/-! ## Between frames -/

theorem Waiting.quiet {s : Xgmii2axis} {deaf : Bool} {pend : List Beat} (waiting : s.Waiting deaf pend) {w : Word}
    (none0 : deaf = false → sofLane0 w.d w.c = false) (none4 : sofLane4 w.d w.c = false) :
    (s.next w).Waiting false [] ∧ (s.next w).stage = pend := by
  obtain ⟨synch, ⟨fsm, empty, rfl, hears⟩ | ⟨fsm, holds, hears⟩ | ⟨fsm, holds, -⟩⟩ := waiting
  all_goals rw [next_synch synch, adapter, fsm]
  · simp only [none0 hears, none4, Bool.false_eq_true, if_false]
    exact ⟨⟨rfl, .inl ⟨fsm, rfl, rfl, rfl⟩⟩, stage_empty empty⟩
  · simp only [none0 hears, none4, Bool.false_eq_true, if_false]
    exact ⟨⟨rfl, .inl ⟨rfl, rfl, rfl, rfl⟩⟩, holds.stage rfl rfl rfl rfl rfl⟩
  · simp only [none4, Bool.false_eq_true, if_false]
    exact ⟨⟨rfl, .inl ⟨rfl, rfl, rfl, rfl⟩⟩, holds.stage rfl rfl rfl rfl rfl⟩

theorem Waiting.lane0 {s : Xgmii2axis} {pend : List Beat} (waiting : s.Waiting false pend) {w : Word}
    (start : sofLane0 w.d w.c = true) : (s.next w).InLane0 [] [] ∧ (s.next w).stage = pend := by
  obtain ⟨synch, ⟨fsm, empty, rfl, -⟩ | ⟨fsm, holds, -⟩ | ⟨-, -, deaf⟩⟩ := waiting
  · rw [next_synch synch, adapter, fsm]
    simp only [start, if_true]
    exact ⟨⟨rfl, rfl, rfl, .inl ⟨rfl, rfl, rfl⟩⟩, stage_empty empty⟩
  · rw [next_synch synch, adapter, fsm]
    simp only [start, if_true]
    exact ⟨⟨rfl, rfl, rfl, .inl ⟨rfl, rfl, rfl⟩⟩, holds.stage rfl rfl rfl rfl rfl⟩
  · cases deaf

/-- A start in lane 4: the rest of the preamble comes with the next word. -/
structure Opening (s : Xgmii2axis) : Prop where
  synch : s.synch = true
  fsm : s.fsm = .stLane4
  crc : s.crc32 = crc8023Preset
  empty : s.tvalidD0 = false

theorem Waiting.lane4 {s : Xgmii2axis} {deaf : Bool} {pend : List Beat} (waiting : s.Waiting deaf pend) {w : Word}
    (none0 : deaf = false → sofLane0 w.d w.c = false) (start : sofLane4 w.d w.c = true) :
    (s.next w).Opening ∧ (s.next w).stage = pend := by
  obtain ⟨synch, ⟨fsm, empty, rfl, hears⟩ | ⟨fsm, holds, hears⟩ | ⟨fsm, holds, -⟩⟩ := waiting
  all_goals rw [next_synch synch, adapter, fsm]
  · simp only [none0 hears, start, Bool.false_eq_true, if_false, if_true]
    exact ⟨⟨rfl, rfl, rfl, rfl⟩, stage_empty empty⟩
  · simp only [none0 hears, start, Bool.false_eq_true, if_false, if_true]
    exact ⟨⟨rfl, rfl, rfl, rfl⟩, holds.stage rfl rfl rfl rfl rfl⟩
  · simp only [start, if_true]
    exact ⟨⟨rfl, rfl, rfl, rfl⟩, holds.stage rfl rfl rfl rfl rfl⟩

theorem Opening.data {s : Xgmii2axis} (opening : s.Opening) {w : Word} (data : w.c = 0#8) :
    (s.next w).InLane4 (bytes 4 (w.d.extractLsb' 32 32)) [] ∧ (s.next w).stage = [] := by
  obtain ⟨synch, fsm, crc, empty⟩ := opening
  rw [next_synch synch, adapter, fsm]
  simp only [data, if_true]
  refine ⟨⟨rfl, rfl, ⟨rfl, rfl⟩, ?_, .inl ⟨empty, rfl, rfl⟩⟩, ?_⟩
  · show crc4B s.crc32 (w.d.extractLsb' 32 32) = _
    rw [crc4B_eq, crc]
  · exact stage_empty empty

/-! ## Inside a frame -/

/-- With the next word the beat that was waiting is handed on. -/
theorem InLane0.hands {s : Xgmii2axis} {taken acc : List Byte} (inside : s.InLane0 taken acc) (d : BitVec 64)
    (more : List Beat) : gather acc ((s.takesLane0 d).stage ++ more) = gather taken more := by
  obtain ⟨-, -, -, ⟨empty, rfl, rfl⟩ | ⟨full, same, rfl, -⟩⟩ := inside
  · rw [stage_empty empty]
    rfl
  · rw [stage_full full]
    show gather acc ({ tdata := s.tdataD0, tkeep := 0xff#8, tlast := false, tuser := false } :: more) = _
    rw [same, gather_full]

theorem InLane0.sums {s : Xgmii2axis} {taken acc : List Byte} (inside : s.InLane0 taken acc) (bs : List Byte) :
    crcBytes s.crc32 bs = crcBytes crc8023Preset (taken ++ bs) := by
  rw [inside.crc, crcBytes_append]

/-- All but the half word that is kept back. -/
theorem InLane4.hands {s : Xgmii2axis} {taken acc : List Byte} (inside : s.InLane4 taken acc) (d : BitVec 64) :
    ∃ acc', taken = acc' ++ bytes 4 s.auxDw ∧
      ∀ more, gather acc ((s.takesLane4 d).stage ++ more) = gather acc' more := by
  obtain ⟨-, -, ⟨unfinished, user⟩, -, ⟨empty, rfl, rfl⟩ | ⟨full, -, rfl, -⟩⟩ := inside
  · refine ⟨[], rfl, fun more => ?_⟩
    rw [stage_empty empty]
    rfl
  · refine ⟨_, rfl, fun more => ?_⟩
    rw [stage_full full]
    show gather acc ({ tdata := s.tdataD0, tkeep := 0xff#8, tlast := s.tlastI, tuser := s.tuserI } :: more) = _
    rw [unfinished, gather_full]

theorem InLane4.sums {s : Xgmii2axis} {taken acc : List Byte} (inside : s.InLane4 taken acc) (bs : List Byte) :
    crcBytes s.crc32 bs = crcBytes crc8023Preset (taken ++ bs) := by
  rw [inside.crc, crcBytes_append]

/-- The beat of a shifted word. -/
theorem bytes_shifted (d : BitVec 64) (aux : BitVec 32) :
    bytes 8 (d.extractLsb' 0 32 ++ aux) = bytes 4 aux ++ (bytes 8 d).take 4 := by
  rw [bytes_append 4 4 _ _ rfl, bytes_low 4 d rfl (by decide)]

theorem InLane0.beat {s : Xgmii2axis} {taken acc : List Byte} (inside : s.InLane0 taken acc) {w : Word}
    (data : w.c = 0#8) :
    ∃ acc', (s.next w).InLane0 (taken ++ bytes 8 w.d) acc' ∧
      ∀ more, gather acc ((s.next w).stage ++ more) = gather acc' more := by
  have after : s.adapter w = s.takesLane0 w.d := by
    rw [adapter, inside.fsm, data]
    rfl
  rw [next_synch inside.synch, after]
  refine ⟨taken, ⟨rfl, inside.fsm, ?_, .inr ⟨rfl, rfl, rfl, ?_, ?_, ?_, ?_⟩⟩, inside.hands w.d⟩
  · exact (crc8B_eq _ _).trans (inside.sums _)
  · exact (crc7B_low _ _).trans (inside.sums _)
  · exact (crc6B_low _ _).trans (inside.sums _)
  · exact (crc5B_low _ _).trans (inside.sums _)
  · exact (crc4B_low _ _).trans (inside.sums _)

theorem InLane4.beat {s : Xgmii2axis} {taken acc : List Byte} (inside : s.InLane4 taken acc) {w : Word}
    (data : w.c = 0#8) :
    ∃ acc', (s.next w).InLane4 (taken ++ bytes 8 w.d) acc' ∧
      ∀ more, gather acc ((s.next w).stage ++ more) = gather acc' more := by
  have after : s.adapter w = s.takesLane4 w.d := by
    rw [adapter, inside.fsm, data]
    rfl
  rw [next_synch inside.synch, after]
  obtain ⟨acc', front, hands⟩ := inside.hands w.d
  have upper : bytes 4 (w.d.extractLsb' 32 32) = (bytes 8 w.d).drop 4 := bytes_extract 4 4 w.d rfl rfl 8 (by decide)
  have split (k : ℕ) : taken ++ (bytes 8 w.d).take (4 + k) =
      acc' ++ bytes 8 (w.d.extractLsb' 0 32 ++ s.auxDw) ++ (bytes 4 (w.d.extractLsb' 32 32)).take k := by
    rw [front, bytes_shifted, upper, List.take_add]
    simp only [List.append_assoc]
  refine ⟨acc', ⟨rfl, inside.fsm, inside.plain, ?_, .inr ⟨rfl, rfl, ?_, ?_, ?_, ?_, ?_⟩⟩, hands⟩
  · exact (crc8B_eq _ _).trans (inside.sums _)
  · exact split 4
  · exact ((crc7B_low _ _).trans (inside.sums _)).trans (congrArg _ (split 3))
  · exact ((crc6B_low _ _).trans (inside.sums _)).trans (congrArg _ (split 2))
  · exact ((crc5B_low _ _).trans (inside.sums _)).trans (congrArg _ (split 1))
  · exact ((crc4B_low _ _).trans (inside.sums _)).trans (congrArg _ ((split 0).trans (List.append_nil _)))

/-! ## The end of a frame -/

/-- A frame whose last beat is the one that was waiting. -/
theorem ends_delivers (s₀ : Xgmii2axis) (k : ℕ) {s : Xgmii2axis} {w : Word} {acc body : List Byte} {crc r : BitVec 32}
    {tchar : Byte}
    (synch : s.synch = true) (after : s.adapter w = s₀.ends (keep k) (check crc r && isTchar tchar))
    (full : s₀.tvalidI = true) (plain : s₀.tuserI = false) (isT : isTchar tchar = true) (pos : 0 < k) (le : k ≤ 8)
    (sum : crc = crcBytes crc8023Preset (acc ++ (bytes 8 s₀.tdataI).take k))
    (split : body = acc ++ (bytes 8 s₀.tdataI).take k ++ bytes 4 r) :
    (s.next w).Waiting false [] ∧ ∀ more, gather acc ((s.next w).stage ++ more) = verdict body :: gather [] more := by
  have valid : (s.next w).tvalidI = true := by
    rw [next_synch synch, after]
    exact full
  have beat : (s.next w).stage = [{ tdata := s₀.tdataI, tkeep := keep k, tlast := true, tuser := check crc r }] := by
    rw [stage_full valid, next_synch synch, after, ends, plain, isT, Bool.and_true, Bool.false_or]
  constructor
  · rw [next_synch synch, after]
    exact ⟨rfl, .inl ⟨rfl, rfl, rfl, rfl⟩⟩
  · intro more
    rw [beat, List.singleton_append, gather_last acc _ _ more pos le, split, verdict_append, ← sum]

/-- A frame whose last beat comes with the terminate character. -/
theorem endsLater_delivers (s₀ : Xgmii2axis) (k : ℕ) {s : Xgmii2axis} {w : Word} {acc acc' body : List Byte}
    {crc r : BitVec 32} {tchar : Byte} {fsm : Fsm} {deaf : Bool} (synch : s.synch = true)
    (after : s.adapter w = s₀.endsLater (keep k) r crc tchar fsm)
    (kind : fsm = .finL4 ∧ deaf = false ∨ fsm = .fin ∧ deaf = true)
    (full : s₀.tvalidD0 = true) (plain : s₀.tuserI = false) (isT : isTchar tchar = true) (pos : 0 < k) (le : k ≤ 8)
    (hands : ∀ more, gather acc (s₀.stage ++ more) = gather acc' more)
    (sum : crc = crcBytes crc8023Preset (acc' ++ (bytes 8 s₀.tdataD0).take k))
    (split : body = acc' ++ (bytes 8 s₀.tdataD0).take k ++ bytes 4 r) :
    ∃ pend, (s.next w).Waiting deaf pend ∧
      ∀ more, gather acc ((s.next w).stage ++ (pend ++ more)) = verdict body :: gather [] more := by
  rw [next_synch synch, after]
  refine ⟨[{ tdata := s₀.tdataD0, tkeep := keep k, tlast := true, tuser := check crc r && isTchar tchar }],
    ⟨rfl, ?_⟩, fun more => ?_⟩
  · obtain ⟨rfl, rfl⟩ | ⟨rfl, rfl⟩ := kind
    · exact .inr (.inl ⟨rfl, ⟨full, plain, rfl⟩, rfl⟩)
    · exact .inr (.inr ⟨rfl, ⟨full, plain, rfl⟩, rfl⟩)
  · refine (hands _).trans ?_
    rw [List.singleton_append, gather_last acc' _ _ more pos le, isT, Bool.and_true, split, verdict_append, ← sum]

/-- A check sequence that begins in the word before. -/
theorem bytes_across {n : ℕ} (m t : ℕ) (x : BitVec 64) (y : BitVec n) {k N p q l : ℕ} (four : m + t = 4)
    (low : l = 8 * t) (start : p = 8 * k) (size : q = 8 * m) (whole : k + m = N) :
    bytes 4 (x.extractLsb' 0 l ++ y.extractLsb' p q) = (bytes N y).drop k ++ (bytes 8 x).take t := by
  rw [← four, bytes_append m t _ _ size, bytes_low t x low (by omega),
    bytes_extract k m y start size N (Nat.le_of_eq whole), List.take_of_length_le]
  rw [List.length_drop, length_bytes]
  omega

/-- A check sequence inside a word. -/
theorem bytes_within (k : ℕ) (x : BitVec 64) {p : ℕ} (start : p = 8 * k) (le : k ≤ 4) :
    (bytes 8 x).take (k + 4) = (bytes 8 x).take k ++ bytes 4 (x.extractLsb' p 32) := by
  rw [List.take_add, bytes_extract k 4 x start rfl 8 (by omega)]

theorem bytes_upper (x : BitVec 64) : bytes 4 (x.extractLsb' 32 32) = (bytes 8 x).drop 4 :=
  bytes_extract 4 4 x rfl rfl 8 (by decide)

theorem InLane0.last {s : Xgmii2axis} {taken acc rest : List Byte} (inside : s.InLane0 taken acc) {w : Word}
    (ends : w.Ends rest) (enough : 8 ≤ (taken ++ rest).length) :
    ∃ deaf pend, (s.next w).Waiting deaf pend ∧ (deaf = true → 4 ≤ rest.length) ∧
      ∀ more, gather acc ((s.next w).stage ++ (pend ++ more)) = verdict (taken ++ rest) :: gather [] more := by
  obtain ⟨less, ctl, front, isT⟩ := ends
  obtain ⟨t, size⟩ : ∃ t, rest.length = t := ⟨_, rfl⟩
  rw [size] at less ctl front isT ⊢
  obtain early | late : t < 5 ∨ 5 ≤ t := by omega
  · -- There has been a whole word, and it is the last beat.
    obtain ⟨-, rfl, -⟩ | ⟨full, same, rfl, crc7, crc6, crc5, crc4⟩ := inside.held
    · rw [List.nil_append, size] at enough
      omega
    have split (k : ℕ) (r : BitVec 32) (tail : bytes 4 r = (bytes 8 s.dReg).drop k ++ rest) :
        acc ++ bytes 8 s.dReg ++ rest = acc ++ (bytes 8 s.tdataD0).take k ++ bytes 4 r := by
      rw [tail, same, List.append_assoc, List.append_assoc, ← List.append_assoc (List.take k _), List.take_append_drop]
    have sum := inside.crc
    rw [← same] at crc7 crc6 crc5 crc4
    obtain ⟨waiting, delivers⟩ : (s.next w).Waiting false [] ∧ ∀ more,
        gather acc ((s.next w).stage ++ more) = verdict (acc ++ bytes 8 s.dReg ++ rest) :: gather [] more := by
      obtain rfl | rfl | rfl | rfl | rfl : t = 0 ∨ t = 1 ∨ t = 2 ∨ t = 3 ∨ t = 4 := by omega
      · refine ends_delivers (s.takesLane0 w.d) 4 inside.synch (by rw [adapter, inside.fsm, ctl]; rfl)
          full rfl isT (by decide) (by decide) crc4 (split 4 _ ?_)
        rw [bytes_upper, ← front, List.take_zero, List.append_nil]
      · refine ends_delivers (s.takesLane0 w.d) 5 inside.synch (by rw [adapter, inside.fsm, ctl]; rfl)
          full rfl isT (by decide) (by decide) crc5 (split 5 _ ?_)
        rw [bytes_across (k := 5) (N := 8) (p := 40) (q := 24) (l := 8) 3 1 w.d s.dReg rfl rfl rfl rfl rfl, front]
      · refine ends_delivers (s.takesLane0 w.d) 6 inside.synch (by rw [adapter, inside.fsm, ctl]; rfl)
          full rfl isT (by decide) (by decide) crc6 (split 6 _ ?_)
        rw [bytes_across (k := 6) (N := 8) (p := 48) (q := 16) (l := 16) 2 2 w.d s.dReg rfl rfl rfl rfl rfl, front]
      · refine ends_delivers (s.takesLane0 w.d) 7 inside.synch (by rw [adapter, inside.fsm, ctl]; rfl)
          full rfl isT (by decide) (by decide) crc7 (split 7 _ ?_)
        rw [bytes_across (k := 7) (N := 8) (p := 56) (q := 8) (l := 24) 1 3 w.d s.dReg rfl rfl rfl rfl rfl, front]
      · refine ends_delivers (s.takesLane0 w.d) 8 inside.synch (by rw [adapter, inside.fsm, ctl]; rfl)
          full rfl isT (by decide) (by decide) (sum.trans ?_) (split 8 _ ?_)
        · rw [← same, List.take_of_length_le (Nat.le_of_eq (length_bytes 8 _))]
          rfl
        · rw [bytes_low 4 w.d rfl (by decide), front, List.drop_of_length_le (Nat.le_of_eq (length_bytes 8 _))]
          rfl
    exact ⟨false, [], waiting, fun deaf => (by cases deaf), delivers⟩
  · -- The terminate character comes in the word of the last beat.
    have split (k : ℕ) {p : ℕ} (start : p = 8 * k) (le : k ≤ 4) (here : t = k + 4) :
        taken ++ rest = taken ++ (bytes 8 w.d).take k ++ bytes 4 (w.d.extractLsb' p 32) := by
      rw [List.append_assoc, ← bytes_within k w.d start le, ← here, front]
    obtain ⟨pend, waiting, delivers⟩ : ∃ pend, (s.next w).Waiting true pend ∧ ∀ more,
        gather acc ((s.next w).stage ++ (pend ++ more)) = verdict (taken ++ rest) :: gather [] more := by
      obtain rfl | rfl | rfl : t = 5 ∨ t = 6 ∨ t = 7 := by omega
      · exact endsLater_delivers (s.takesLane0 w.d) 1 inside.synch
          (by rw [adapter, inside.fsm, ctl]; rfl) (.inr ⟨rfl, rfl⟩) rfl rfl isT (by decide) (by decide)
          (inside.hands w.d) ((crc1B_low _ _).trans (inside.sums _)) (split 1 rfl (by decide) rfl)
      · exact endsLater_delivers (s.takesLane0 w.d) 2 inside.synch
          (by rw [adapter, inside.fsm, ctl]; rfl) (.inr ⟨rfl, rfl⟩) rfl rfl isT (by decide) (by decide)
          (inside.hands w.d) ((crc2B_low _ _).trans (inside.sums _)) (split 2 rfl (by decide) rfl)
      · exact endsLater_delivers (s.takesLane0 w.d) 3 inside.synch
          (by rw [adapter, inside.fsm, ctl]; rfl) (.inr ⟨rfl, rfl⟩) rfl rfl isT (by decide) (by decide)
          (inside.hands w.d) ((crc3B_low _ _).trans (inside.sums _)) (split 3 rfl (by decide) rfl)
    exact ⟨true, pend, waiting, fun _ => by omega, delivers⟩

theorem InLane4.last {s : Xgmii2axis} {taken acc rest : List Byte} (inside : s.InLane4 taken acc) {w : Word}
    (ends : w.Ends rest) (enough : 8 ≤ (taken ++ rest).length) :
    ∃ deaf pend, (s.next w).Waiting deaf pend ∧ (deaf = true → 4 ≤ rest.length) ∧
      ∀ more, gather acc ((s.next w).stage ++ (pend ++ more)) = verdict (taken ++ rest) :: gather [] more := by
  obtain ⟨less, ctl, front, isT⟩ := ends
  obtain ⟨t, size⟩ : ∃ t, rest.length = t := ⟨_, rfl⟩
  rw [size] at less ctl front isT ⊢
  obtain early | late : t < 4 ∨ 4 ≤ t := by omega
  · -- There has been a whole word, and the check sequence begins in the half word kept back.
    obtain ⟨-, rfl, -⟩ | ⟨full, upper, rfl, crc7, crc6, crc5, crc4⟩ := inside.held
    · rw [List.length_append, length_bytes, size] at enough
      omega
    have hands (more : List Beat) :
        gather acc ((s.takesLane4 w.d).stage ++ more) = gather (acc ++ bytes 8 s.tdataD0) more := by
      obtain ⟨acc', same, hands⟩ := inside.hands w.d
      rw [hands, List.append_cancel_right same]
    have kept (k : ℕ) (le : k ≤ 4) :
        (bytes 8 (s.takesLane4 w.d).tdataD0).take k = (bytes 4 s.auxDw).take k := by
      show (bytes 8 (w.d.extractLsb' 0 32 ++ s.auxDw)).take k = _
      rw [bytes_shifted, List.take_append_of_le_length (by rwa [length_bytes])]
    have split (k : ℕ) (le : k ≤ 4) (r : BitVec 32) (tail : bytes 4 r = (bytes 4 s.auxDw).drop k ++ rest) :
        acc ++ bytes 8 s.tdataD0 ++ bytes 4 s.auxDw ++ rest =
          acc ++ bytes 8 s.tdataD0 ++ (bytes 8 (s.takesLane4 w.d).tdataD0).take k ++ bytes 4 r := by
      rw [tail, kept k le, List.append_assoc (acc ++ _), List.append_assoc (acc ++ _), ← List.append_assoc (List.take k _),
        List.take_append_drop]
    obtain rfl | rfl | rfl | rfl : t = 0 ∨ t = 1 ∨ t = 2 ∨ t = 3 := by omega
    · obtain ⟨waiting, delivers⟩ : (s.next w).Waiting false [] ∧ ∀ more, gather acc ((s.next w).stage ++ more) =
          verdict (acc ++ bytes 8 s.tdataD0 ++ bytes 4 s.auxDw ++ rest) :: gather [] more := by
        have whole : (bytes 8 s.tdataD0).take 8 = bytes 8 s.tdataD0 :=
          List.take_of_length_le (Nat.le_of_eq (length_bytes 8 _))
        refine ends_delivers (s.takesLane4 w.d) 8 inside.synch (by rw [adapter, inside.fsm, ctl]; rfl) full
          inside.plain.2 isT (by decide) (by decide) (crc4.trans ?_) ?_
        · exact congrArg (fun bs => crcBytes crc8023Preset (acc ++ bs)) whole.symm
        · rw [List.length_eq_zero_iff.mp size, upper, List.append_nil]
          exact congrArg (fun bs => acc ++ bs ++ _) whole.symm
      exact ⟨false, [], waiting, fun deaf => (by cases deaf), delivers⟩
    · obtain ⟨pend, waiting, delivers⟩ := endsLater_delivers (s.takesLane4 w.d) 1
        inside.synch (by rw [adapter, inside.fsm, ctl]; rfl) (.inl ⟨rfl, rfl⟩) rfl inside.plain.2 isT (by decide)
        (by decide) hands (by rw [crc5, kept 1 (by decide)]) (split 1 (by decide) _ (by
          rw [bytes_across (k := 1) (N := 4) (p := 8) (q := 24) (l := 8) 3 1 w.d s.auxDw rfl rfl rfl rfl rfl, front]))
      exact ⟨false, pend, waiting, fun deaf => (by cases deaf), delivers⟩
    · obtain ⟨pend, waiting, delivers⟩ := endsLater_delivers (s.takesLane4 w.d) 2
        inside.synch (by rw [adapter, inside.fsm, ctl]; rfl) (.inl ⟨rfl, rfl⟩) rfl inside.plain.2 isT (by decide)
        (by decide) hands (by rw [crc6, kept 2 (by decide)]) (split 2 (by decide) _ (by
          rw [bytes_across (k := 2) (N := 4) (p := 16) (q := 16) (l := 16) 2 2 w.d s.auxDw rfl rfl rfl rfl rfl, front]))
      exact ⟨false, pend, waiting, fun deaf => (by cases deaf), delivers⟩
    · obtain ⟨pend, waiting, delivers⟩ := endsLater_delivers (s.takesLane4 w.d) 3
        inside.synch (by rw [adapter, inside.fsm, ctl]; rfl) (.inl ⟨rfl, rfl⟩) rfl inside.plain.2 isT (by decide)
        (by decide) hands (by rw [crc7, kept 3 (by decide)]) (split 3 (by decide) _ (by
          rw [bytes_across (k := 3) (N := 4) (p := 24) (q := 8) (l := 24) 1 3 w.d s.auxDw rfl rfl rfl rfl rfl, front]))
      exact ⟨false, pend, waiting, fun deaf => (by cases deaf), delivers⟩
  · -- The half word kept back is all payload.
    obtain ⟨acc', same, hands⟩ := inside.hands w.d
    have payload (k : ℕ) (le : k ≤ 4) :
        acc' ++ (bytes 8 (s.takesLane4 w.d).tdataD0).take (4 + k) = taken ++ (bytes 8 w.d).take k := by
      show acc' ++ (bytes 8 (w.d.extractLsb' 0 32 ++ s.auxDw)).take (4 + k) = _
      rw [bytes_shifted, same, List.append_assoc]
      congr 1
      have four : 4 + k = (bytes 4 s.auxDw).length + k := by rw [length_bytes]
      rw [four, List.take_length_add_append, List.take_take, Nat.min_eq_left le]
    have split (k : ℕ) {p : ℕ} (start : p = 8 * k) (le : k ≤ 4) (here : t = k + 4) :
        taken ++ rest =
          acc' ++ (bytes 8 (s.takesLane4 w.d).tdataD0).take (4 + k) ++ bytes 4 (w.d.extractLsb' p 32) := by
      rw [payload k le, List.append_assoc, ← bytes_within k w.d start le, ← here, front]
    have sums (k : ℕ) (le : k ≤ 4) : crcBytes s.crc32 ((bytes 8 w.d).take k) =
        crcBytes crc8023Preset (acc' ++ (bytes 8 (s.takesLane4 w.d).tdataD0).take (4 + k)) := by
      rw [payload k le]
      exact inside.sums _
    obtain ⟨pend, waiting, delivers⟩ : ∃ pend, (s.next w).Waiting true pend ∧ ∀ more,
        gather acc ((s.next w).stage ++ (pend ++ more)) = verdict (taken ++ rest) :: gather [] more := by
      obtain rfl | rfl | rfl | rfl : t = 4 ∨ t = 5 ∨ t = 6 ∨ t = 7 := by omega
      · exact endsLater_delivers (s.takesLane4 w.d) 4 inside.synch
          (by rw [adapter, inside.fsm, ctl]; rfl) (.inr ⟨rfl, rfl⟩) rfl inside.plain.2 isT (by decide) (by decide)
          hands (sums 0 (by decide)) (split 0 rfl (by decide) rfl)
      · exact endsLater_delivers (s.takesLane4 w.d) 5 inside.synch
          (by rw [adapter, inside.fsm, ctl]; rfl) (.inr ⟨rfl, rfl⟩) rfl inside.plain.2 isT (by decide) (by decide)
          hands ((crc1B_low _ _).trans (sums 1 (by decide))) (split 1 rfl (by decide) rfl)
      · exact endsLater_delivers (s.takesLane4 w.d) 6 inside.synch
          (by rw [adapter, inside.fsm, ctl]; rfl) (.inr ⟨rfl, rfl⟩) rfl inside.plain.2 isT (by decide) (by decide)
          hands ((crc2B_low _ _).trans (sums 2 (by decide))) (split 2 rfl (by decide) rfl)
      · exact endsLater_delivers (s.takesLane4 w.d) 7 inside.synch
          (by rw [adapter, inside.fsm, ctl]; rfl) (.inr ⟨rfl, rfl⟩) rfl inside.plain.2 isT (by decide) (by decide)
          hands ((crc3B_low _ _).trans (sums 3 (by decide))) (split 3 rfl (by decide) rfl)
    exact ⟨true, pend, waiting, fun _ => late, delivers⟩

end Xgmii2axis

end Zcu102.Nfmac
