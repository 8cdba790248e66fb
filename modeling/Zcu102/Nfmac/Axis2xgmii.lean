import Zcu102.Nfmac.Xgmii
import Zcu102.Sim.Steps

/-!
# From the stream to the line

`axis2xgmii.v` takes a frame as beats of eight bytes and puts it on the line: preamble,
data, check sequence, terminate character and the gap before the next frame. A frame can
start in lane 0 or, half a word later, in lane 4; the deficit idle count `dic` decides
which, so that the gaps are twelve bytes on average.
-/

namespace Zcu102.Nfmac
set_option autoImplicit false
open Zcu102.Sim

/-! ## The model -/

/-- The signals of a stream port in one cycle. -/
structure Axis where
  tdata : BitVec 64
  tkeep : BitVec 8
  tvalid : Bool
  tlast : Bool
  tuser : Bool
  deriving DecidableEq

namespace Axis2xgmii

inductive Fsm
  | sres | idleL0 | stLane0 | qwIdle | l0Fin8B | tLane4 | l0Fin7B6B5B | tLane3 | dwIdle | tLane2 | tLane1 | l0Fin4B
  | tLane0 | l0Fin3B2B1B | tLane7 | tLane6 | tLane5 | stLane4 | stLane4D | l4Fin8B | l4Fin7B6B5B | l4Fin4B
  | l4Fin3B2B1B
  deriving DecidableEq

end Axis2xgmii

/-- The registers of the module. -/
structure Axis2xgmii where
  fsm : Axis2xgmii.Fsm
  tdataI : BitVec 64
  tkeepI : BitVec 8
  d : BitVec 64
  c : BitVec 8
  auxDw : BitVec 32
  dic : BitVec 2
  crc32 : BitVec 32
  crc32_7B : BitVec 32
  crc32_6B : BitVec 32
  crc32_5B : BitVec 32
  crc32_4B : BitVec 32
  crc32_3B : BitVec 32
  crc32_2B : BitVec 32
  crc32_1B : BitVec 32
  auxVarCrc : BitVec 32
  calctedCrc4B : BitVec 32
  crcReg : BitVec 32
  tready : Bool
  lane4Start : Bool

namespace Axis2xgmii

/-- The checks over one to eight more bytes, kept until it is known how many are valid. -/
def crcs (s : Axis2xgmii) (tdata : BitVec 64) : Axis2xgmii :=
  { s with
    crc32 := crc8B s.crc32 tdata
    crc32_7B := crc7B s.crc32 (tdata.extractLsb' 0 56)
    crc32_6B := crc6B s.crc32 (tdata.extractLsb' 0 48)
    crc32_5B := crc5B s.crc32 (tdata.extractLsb' 0 40)
    crc32_4B := crc4B s.crc32 (tdata.extractLsb' 0 32)
    crc32_3B := crc3B s.crc32 (tdata.extractLsb' 0 24)
    crc32_2B := crc2B s.crc32 (tdata.extractLsb' 0 16)
    crc32_1B := crc1B s.crc32 (tdata.extractLsb' 0 8) }

/-- Not in reset: the `case` over `fsm`. -/
def next (s : Axis2xgmii) (i : Axis) : Axis2xgmii :=
  match s.fsm with
  | .sres => { s with dic := 0#2, tready := true, fsm := .idleL0 }
  | .idleL0 =>
    let s' := { s with tdataI := i.tdata, tkeepI := i.tkeep, lane4Start := false }
    if i.tvalid then
      { s' with
        crc32 := crc8B crc8023Preset i.tdata, d := preambleLane0D, c := preambleLane0C, fsm := .stLane0 }
    else
      { s' with d := qwIdleD, c := qwIdleC, dic := if s.dic ≠ 0 then s.dic - 1 else s.dic }
  | .stLane0 =>
    let s' := { s.crcs i.tdata with tready := false, tdataI := i.tdata, tkeepI := i.tkeep, d := s.tdataI, c := 0#8 }
    if i.tuser then
      { s' with d := charT ++ s.tdataI.extractLsb' 8 48 ++ charE, c := 0x81#8, fsm := .qwIdle }
    else if !i.tlast then { s' with tready := true }
    else if i.tkeep.getLsbD 7 then { s' with fsm := .l0Fin8B }
    else if i.tkeep.getLsbD 4 then { s' with fsm := .l0Fin7B6B5B }
    else if i.tkeep.getLsbD 3 then { s' with fsm := .l0Fin4B }
    else { s' with fsm := .l0Fin3B2B1B }
  | .qwIdle => { s with d := qwIdleD, c := qwIdleC, tready := true, fsm := .idleL0 }
  | .l0Fin8B => { s with d := s.tdataI, c := 0#8, calctedCrc4B := ~~~crcRev s.crc32, fsm := .tLane4 }
  | .tLane4 =>
    { s with d := charI ++ charI ++ charI ++ charT ++ s.calctedCrc4B, c := 0xf0#8, fsm := .qwIdle }
  | .l0Fin7B6B5B =>
    let s' :=
      if s.tkeepI.getLsbD 6 then
        let aux := ~~~crcRev s.crc32_7B
        { s with auxVarCrc := aux, d := aux.extractLsb' 0 8 ++ s.tdataI.extractLsb' 0 56, fsm := .tLane3 }
      else if s.tkeepI.getLsbD 5 then
        let aux := ~~~crcRev s.crc32_6B
        { s with auxVarCrc := aux, d := aux.extractLsb' 0 16 ++ s.tdataI.extractLsb' 0 48, fsm := .tLane2 }
      else if s.tkeepI.getLsbD 4 then
        let aux := ~~~crcRev s.crc32_5B
        { s with auxVarCrc := aux, d := aux.extractLsb' 0 24 ++ s.tdataI.extractLsb' 0 40, fsm := .tLane1 }
      else s
    { s' with c := 0#8, crcReg := s'.auxVarCrc }
  | .tLane3 =>
    let s' := { s with d := charI ++ charI ++ charI ++ charI ++ charT ++ s.crcReg.extractLsb' 8 24, c := 0xf8#8 }
    if s.dic = 0 then { s' with dic := 3#2, tready := true, fsm := .dwIdle }
    else { s' with dic := s.dic - 1, fsm := .qwIdle }
  | .dwIdle =>
    let s' := { s with tdataI := i.tdata, tkeepI := i.tkeep }
    if i.tvalid then
      { s' with
        crc32 := crc8B crc8023Preset i.tdata, d := preambleLane4D, c := preambleLane4C, fsm := .stLane4 }
    else { s' with d := qwIdleD, c := qwIdleC, fsm := .idleL0 }
  | .tLane2 =>
    let s' := { s with
      d := charI ++ charI ++ charI ++ charI ++ charI ++ charT ++ s.crcReg.extractLsb' 16 16, c := 0xfc#8 }
    if s.dic < 2 then { s' with dic := s.dic + 2, tready := true, fsm := .dwIdle }
    else { s' with dic := s.dic - 2, fsm := .qwIdle }
  | .tLane1 =>
    let s' := { s with
      d := charI ++ charI ++ charI ++ charI ++ charI ++ charI ++ charT ++ s.crcReg.extractLsb' 24 8, c := 0xfe#8 }
    if s.dic < 3 then { s' with dic := s.dic + 1, tready := true, fsm := .dwIdle }
    else { s' with dic := 0#2, fsm := .qwIdle }
  | .l0Fin4B => { s with d := ~~~crcRev s.crc32_4B ++ s.tdataI.extractLsb' 0 32, c := 0#8, fsm := .tLane0 }
  | .tLane0 =>
    { s with
      d := charI ++ charI ++ charI ++ charI ++ charI ++ charI ++ charI ++ charT, c := 0xff#8, tready := true,
      fsm := .dwIdle }
  | .l0Fin3B2B1B =>
    if s.tkeepI.getLsbD 2 then
      { s with d := charT ++ ~~~crcRev s.crc32_3B ++ s.tdataI.extractLsb' 0 24, c := 0x80#8, fsm := .tLane7 }
    else if s.tkeepI.getLsbD 1 then
      { s with d := charI ++ charT ++ ~~~crcRev s.crc32_2B ++ s.tdataI.extractLsb' 0 16, c := 0xc0#8, fsm := .tLane6 }
    else if s.tkeepI.getLsbD 0 then
      { s with
        d := charI ++ charI ++ charT ++ ~~~crcRev s.crc32_1B ++ s.tdataI.extractLsb' 0 8, c := 0xe0#8, fsm := .tLane5 }
    else s
  | .tLane7 =>
    let s' := { s with d := qwIdleD, c := qwIdleC, tready := true }
    if s.dic = 0 then { s' with dic := 3#2, fsm := .idleL0 } else { s' with dic := s.dic - 1, fsm := .dwIdle }
  | .tLane6 =>
    let s' := { s with d := qwIdleD, c := qwIdleC, tready := true }
    if s.dic < 2 then { s' with dic := s.dic + 2, fsm := .idleL0 } else { s' with dic := s.dic - 2, fsm := .dwIdle }
  | .tLane5 =>
    let s' := { s with d := qwIdleD, c := qwIdleC, tready := true }
    if s.dic < 3 then { s' with dic := s.dic + 1, fsm := .idleL0 } else { s' with dic := 0#2, fsm := .dwIdle }
  | .stLane4 =>
    let s' := { s with
      tdataI := i.tdata, tkeepI := i.tkeep, auxDw := s.tdataI.extractLsb' 32 32,
      d := s.tdataI.extractLsb' 0 32 ++ preambleLane4EndD, c := preambleLane4EndC, crc32 := crc8B s.crc32 i.tdata,
      lane4Start := true }
    if i.tuser then
      { s' with
        d := charT ++ s.tdataI.extractLsb' 0 24 ++ preambleLane4EndD.extractLsb' 8 24 ++ charE, c := 0x81#8,
        tready := false, fsm := .qwIdle }
    else { s' with fsm := .stLane4D }
  | .stLane4D =>
    let s' := { s.crcs i.tdata with
      tready := false, tdataI := i.tdata, tkeepI := i.tkeep, auxDw := s.tdataI.extractLsb' 32 32,
      d := s.tdataI.extractLsb' 0 32 ++ s.auxDw, c := 0#8 }
    if i.tuser then
      { s' with d := s.tdataI.extractLsb' 8 24 ++ charE ++ s.auxDw, c := 0x10#8, fsm := .qwIdle }
    else if !i.tlast then { s' with tready := true }
    else if i.tkeep.getLsbD 7 then { s' with fsm := .l4Fin8B }
    else if i.tkeep.getLsbD 4 then { s' with fsm := .l4Fin7B6B5B }
    else if i.tkeep.getLsbD 3 then { s' with fsm := .l4Fin4B }
    else { s' with fsm := .l4Fin3B2B1B }
  | .l4Fin8B =>
    { s with
      d := s.tdataI.extractLsb' 0 32 ++ s.auxDw, c := 0#8,
      tdataI := s.tdataI.extractLsb' 32 32 ++ s.tdataI.extractLsb' 32 32, crc32_4B := s.crc32, fsm := .l0Fin4B }
  | .l4Fin7B6B5B =>
    { s with
      c := 0#8, crc32_1B := s.crc32_5B, crc32_2B := s.crc32_6B, crc32_3B := s.crc32_7B,
      tdataI := s.tdataI.extractLsb' 32 32 ++ s.tdataI.extractLsb' 32 32,
      tkeepI := s.tkeepI.extractLsb' 3 5 ++ s.tkeepI.extractLsb' 4 3,
      d := s.tdataI.extractLsb' 0 32 ++ s.auxDw, fsm := .l0Fin3B2B1B }
  | .l4Fin4B =>
    { s with
      d := s.tdataI.extractLsb' 0 32 ++ s.auxDw, c := 0#8, calctedCrc4B := ~~~crcRev s.crc32_4B, fsm := .tLane4 }
  | .l4Fin3B2B1B =>
    let s' :=
      if s.tkeepI.getLsbD 2 then
        let aux := ~~~crcRev s.crc32_3B
        { s with
          auxVarCrc := aux, d := aux.extractLsb' 0 8 ++ s.tdataI.extractLsb' 0 24 ++ s.auxDw, fsm := .tLane3 }
      else if s.tkeepI.getLsbD 1 then
        let aux := ~~~crcRev s.crc32_2B
        { s with
          auxVarCrc := aux, d := aux.extractLsb' 0 16 ++ s.tdataI.extractLsb' 0 16 ++ s.auxDw, fsm := .tLane2 }
      else if s.tkeepI.getLsbD 0 then
        let aux := ~~~crcRev s.crc32_1B
        { s with
          auxVarCrc := aux, d := aux.extractLsb' 0 24 ++ s.tdataI.extractLsb' 0 8 ++ s.auxDw, fsm := .tLane1 }
      else s
    { s' with c := 0#8, crcReg := s'.auxVarCrc }

/-- One clock. -/
def clock (s : Axis2xgmii) (rst : Bool) (i : Axis) : Axis2xgmii :=
  if rst then { s with d := qwIdleD, c := qwIdleC, tready := false, fsm := .sres } else s.next i

/-! ## Sending a frame -/

def symbols (s : Axis2xgmii) : List Symbol := lanes s.d s.c

/-- What goes out over a run, a word after each clock. -/
def emitted (s : Axis2xgmii) (is : List Axis) : List Symbol := outputs next (fun s i => (s.next i).symbols) s is

/-- Waiting for a frame, which will start in lane 4 or in lane 0. -/
structure Ready (s : Axis2xgmii) (lane4 : Bool) (dic : BitVec 2) : Prop where
  fsm : s.fsm = if lane4 then .dwIdle else .idleL0
  tready : s.tready = true
  dic : s.dic = dic

/-- In the middle of a frame: `taken` has been taken, and its last bytes `held` are not out yet. -/
structure Sending (s : Axis2xgmii) (lane4 : Bool) (dic : BitVec 2) (taken held : List Byte) : Prop where
  fsm : s.fsm = if lane4 then .stLane4D else .stLane0
  tready : s.tready = true
  start : s.lane4Start = lane4
  dic : s.dic = dic
  crc : s.crc32 = crcBytes crc8023Preset taken
  held : held = (if lane4 then bytes 4 s.auxDw else []) ++ bytes 8 s.tdataI

/-- A frame that starts in lane 4 leaves the lower half of the first word idle. -/
def lead (lane4 : Bool) : List Symbol := idles (if lane4 then 4 else 0)

theorem bytes_halves (x : BitVec 64) : bytes 8 x = bytes 4 (x.extractLsb' 0 32) ++ bytes 4 (x.extractLsb' 32 32) := by
  rw [bytes_extract 0 4 x rfl rfl 8 (by decide), bytes_extract 4 4 x rfl rfl 8 (by decide)]
  rfl

theorem lanes_pair (x y : BitVec 32) : lanes (x ++ y) 0#8 = (bytes 4 y ++ bytes 4 x).map .data := by
  rw [lanes_data, bytes_append 4 4 x y rfl]

section Steps
variable {s : Axis2xgmii} {i : Axis}

theorem next_idleL0 (fsm : s.fsm = .idleL0) (valid : i.tvalid = true) :
    s.next i = { s with
      tdataI := i.tdata, tkeepI := i.tkeep, lane4Start := false, crc32 := crc8B crc8023Preset i.tdata,
      d := preambleLane0D, c := preambleLane0C, fsm := .stLane0 } := by
  rw [next, fsm, valid]
  rfl

theorem next_dwIdle (fsm : s.fsm = .dwIdle) (valid : i.tvalid = true) :
    s.next i = { s with
      tdataI := i.tdata, tkeepI := i.tkeep, crc32 := crc8B crc8023Preset i.tdata, d := preambleLane4D,
      c := preambleLane4C, fsm := .stLane4 } := by
  rw [next, fsm, valid]
  rfl

theorem next_stLane4 (fsm : s.fsm = .stLane4) (good : i.tuser = false) :
    s.next i = { s with
      tdataI := i.tdata, tkeepI := i.tkeep, auxDw := s.tdataI.extractLsb' 32 32,
      d := s.tdataI.extractLsb' 0 32 ++ preambleLane4EndD, c := preambleLane4EndC, crc32 := crc8B s.crc32 i.tdata,
      lane4Start := true, fsm := .stLane4D } := by
  rw [next, fsm, good]
  rfl

theorem next_stLane0 (fsm : s.fsm = .stLane0) (good : i.tuser = false) (more : i.tlast = false) :
    s.next i = { s.crcs i.tdata with tready := true, tdataI := i.tdata, tkeepI := i.tkeep, d := s.tdataI, c := 0#8 } := by
  rw [next, fsm, good, more]
  rfl

theorem next_stLane4D (fsm : s.fsm = .stLane4D) (good : i.tuser = false) (more : i.tlast = false) :
    s.next i = { s.crcs i.tdata with
      tready := true, tdataI := i.tdata, tkeepI := i.tkeep, auxDw := s.tdataI.extractLsb' 32 32,
      d := s.tdataI.extractLsb' 0 32 ++ s.auxDw, c := 0#8 } := by
  rw [next, fsm, good, more]
  rfl

end Steps

/-- The first two beats. -/
theorem Ready.starts {s : Axis2xgmii} {lane4 : Bool} {dic : BitVec 2} (ready : s.Ready lane4 dic) {i j : Axis}
    (valid : i.tvalid = true) (good : j.tuser = false) (more : j.tlast = false) :
    ∃ held, ((s.next i).next j).Sending lane4 dic (bytes 8 i.tdata ++ bytes 8 j.tdata) held ∧
      (s.next i).symbols ++ ((s.next i).next j).symbols ++ held.map .data =
        lead lane4 ++ preamble ++ (bytes 8 i.tdata ++ bytes 8 j.tdata).map .data := by
  have crc : crc8B (crc8B crc8023Preset i.tdata) j.tdata =
      crcBytes crc8023Preset (bytes 8 i.tdata ++ bytes 8 j.tdata) := by
    rw [crc8B_eq, crc8B_eq, crcBytes_append]
  obtain ⟨fsm, tready, dics⟩ := ready
  cases lane4 with
  | false =>
    have first := next_idleL0 fsm valid
    have second := next_stLane0 (s := s.next i) (by rw [first]) good more
    rw [first] at second
    rw [first, second]
    refine ⟨bytes 8 j.tdata, ⟨rfl, rfl, rfl, dics, crc, rfl⟩, ?_⟩
    have word : lanes preambleLane0D preambleLane0C = lead false ++ preamble := by decide
    rw [List.map_append, ← List.append_assoc, ← word, ← lanes_data i.tdata]
    rfl
  | true =>
    have first := next_dwIdle fsm valid
    have second := next_stLane4 (s := s.next i) (by rw [first]) good
    rw [first] at second
    rw [first, second]
    refine ⟨bytes 4 (i.tdata.extractLsb' 32 32) ++ bytes 8 j.tdata, ⟨rfl, tready, rfl, dics, crc, rfl⟩, ?_⟩
    have words : lanes preambleLane4D preambleLane4C ++ (bytes 4 preambleLane4EndD).map .data = lead true ++ preamble := by
      decide
    rw [← words, bytes_halves i.tdata]
    simp only [symbols, preambleLane4EndC, lanes_pair, List.map_append, List.append_assoc]

/-- One more beat: as many bytes go out as come in. -/
theorem Sending.beat {s : Axis2xgmii} {lane4 : Bool} {dic : BitVec 2} {taken held : List Byte}
    (sending : s.Sending lane4 dic taken held) {i : Axis} (good : i.tuser = false) (more : i.tlast = false) :
    ∃ held', (s.next i).Sending lane4 dic (taken ++ bytes 8 i.tdata) held' ∧
      (s.next i).symbols ++ held'.map .data = (held ++ bytes 8 i.tdata).map .data := by
  have crc : crc8B s.crc32 i.tdata = crcBytes crc8023Preset (taken ++ bytes 8 i.tdata) := by
    rw [crc8B_eq, sending.crc, crcBytes_append]
  obtain ⟨fsm, tready, start, dics, -, rfl⟩ := sending
  cases lane4 with
  | false =>
    rw [next_stLane0 fsm good more]
    refine ⟨bytes 8 i.tdata, ⟨fsm, rfl, start, dics, crc, rfl⟩, ?_⟩
    rw [symbols, lanes_data, ← List.map_append]
    rfl
  | true =>
    rw [next_stLane4D fsm good more]
    refine ⟨bytes 4 (s.tdataI.extractLsb' 32 32) ++ bytes 8 i.tdata, ⟨fsm, rfl, start, dics, crc, rfl⟩, ?_⟩
    rw [symbols, lanes_pair, bytes_halves s.tdataI, if_pos rfl]
    simp only [List.map_append, List.append_assoc]

/-- All beats but the last. -/
theorem Sending.beats {s : Axis2xgmii} {lane4 : Bool} {dic : BitVec 2} {taken held : List Byte}
    (sending : s.Sending lane4 dic taken held) {is : List Axis} (plain : ∀ i ∈ is, i.tuser = false ∧ i.tlast = false) :
    ∃ held', (runs next s is).Sending lane4 dic (taken ++ is.flatMap fun i => bytes 8 i.tdata) held' ∧
      s.emitted is ++ held'.map .data = (held ++ is.flatMap fun i => bytes 8 i.tdata).map .data := by
  induction is generalizing s taken held with
  | nil => exact ⟨held, by simpa using sending, by simp [emitted, outputs]⟩
  | cons i is ih =>
    obtain ⟨good, more⟩ := plain i List.mem_cons_self
    obtain ⟨held₁, next, out⟩ := sending.beat good more
    obtain ⟨held₂, rest, outs⟩ := ih next fun j mem => plain j (List.mem_cons_of_mem i mem)
    refine ⟨held₂, ?_, ?_⟩
    · rw [List.flatMap_cons, ← List.append_assoc]
      exact rest
    · have step : s.emitted (i :: is) = (s.next i).symbols ++ (s.next i).emitted is := rfl
      rw [step, List.append_assoc, outs, List.map_append, ← List.append_assoc, out, ← List.map_append,
        List.flatMap_cons, List.append_assoc]

/-! ## The last beat -/

/-- The enables of the lowest `k` bytes. -/
def keep (k : ℕ) : BitVec 8 := (BitVec.allOnes k).setWidth 8

/-- The state after a last beat of `k` bytes. -/
def fin : Bool → ℕ → Fsm
  | false, 8 => .l0Fin8B
  | false, 7 | false, 6 | false, 5 => .l0Fin7B6B5B
  | false, 4 => .l0Fin4B
  | false, _ => .l0Fin3B2B1B
  | true, 8 => .l4Fin8B
  | true, 7 | true, 6 | true, 5 => .l4Fin7B6B5B
  | true, 4 => .l4Fin4B
  | true, _ => .l4Fin3B2B1B

/-- The register that has the check over `k` bytes of the last beat. -/
def crcFor (s : Axis2xgmii) : ℕ → BitVec 32
  | 8 => s.crc32
  | 7 => s.crc32_7B
  | 6 => s.crc32_6B
  | 5 => s.crc32_5B
  | 4 => s.crc32_4B
  | 3 => s.crc32_3B
  | 2 => s.crc32_2B
  | _ => s.crc32_1B

/-- The last beat of `frame` has been taken, and `rest` is not out yet. -/
structure Ended (s : Axis2xgmii) (lane4 : Bool) (dic : BitVec 2) (k : ℕ) (frame rest : List Byte) : Prop where
  fsm : s.fsm = fin lane4 k
  dic : s.dic = dic
  keeps : s.tkeepI = keep k
  crc : s.crcFor k = crcBytes crc8023Preset frame
  rest : rest = (if lane4 then bytes 4 s.auxDw else []) ++ (bytes 8 s.tdataI).take k

theorem one_to_eight {k : ℕ} (pos : 0 < k) (le : k ≤ 8) :
    k = 1 ∨ k = 2 ∨ k = 3 ∨ k = 4 ∨ k = 5 ∨ k = 6 ∨ k = 7 ∨ k = 8 := by
  omega

theorem crcFor_crcs (s : Axis2xgmii) (tdata : BitVec 64) {k : ℕ} (pos : 0 < k) (le : k ≤ 8) :
    (s.crcs tdata).crcFor k = crcBytes s.crc32 ((bytes 8 tdata).take k) := by
  obtain rfl | rfl | rfl | rfl | rfl | rfl | rfl | rfl := one_to_eight pos le
  · exact crc1B_low _ _
  · exact crc2B_low _ _
  · exact crc3B_low _ _
  · exact crc4B_low _ _
  · exact crc5B_low _ _
  · exact crc6B_low _ _
  · exact crc7B_low _ _
  · exact crc8B_eq _ _

theorem next_last0 {s : Axis2xgmii} {i : Axis} {k : ℕ} (fsm : s.fsm = .stLane0) (good : i.tuser = false)
    (last : i.tlast = true) (keeps : i.tkeep = keep k) (pos : 0 < k) (le : k ≤ 8) :
    s.next i = { s.crcs i.tdata with
      tready := false, tdataI := i.tdata, tkeepI := keep k, d := s.tdataI, c := 0#8, fsm := fin false k } := by
  rw [next, fsm, good, last, keeps]
  obtain rfl | rfl | rfl | rfl | rfl | rfl | rfl | rfl := one_to_eight pos le
  all_goals rfl

theorem next_last4 {s : Axis2xgmii} {i : Axis} {k : ℕ} (fsm : s.fsm = .stLane4D) (good : i.tuser = false)
    (last : i.tlast = true) (keeps : i.tkeep = keep k) (pos : 0 < k) (le : k ≤ 8) :
    s.next i = { s.crcs i.tdata with
      tready := false, tdataI := i.tdata, tkeepI := keep k, auxDw := s.tdataI.extractLsb' 32 32,
      d := s.tdataI.extractLsb' 0 32 ++ s.auxDw, c := 0#8, fsm := fin true k } := by
  rw [next, fsm, good, last, keeps]
  obtain rfl | rfl | rfl | rfl | rfl | rfl | rfl | rfl := one_to_eight pos le
  all_goals rfl

theorem Sending.last {s : Axis2xgmii} {lane4 : Bool} {dic : BitVec 2} {taken held : List Byte} {k : ℕ}
    (sending : s.Sending lane4 dic taken held) {i : Axis} (good : i.tuser = false) (last : i.tlast = true)
    (keeps : i.tkeep = keep k) (pos : 0 < k) (le : k ≤ 8) :
    ∃ rest, (s.next i).Ended lane4 dic k (taken ++ (bytes 8 i.tdata).take k) rest ∧
      (s.next i).symbols ++ rest.map .data = (held ++ (bytes 8 i.tdata).take k).map .data := by
  have crc : (s.crcs i.tdata).crcFor k = crcBytes crc8023Preset (taken ++ (bytes 8 i.tdata).take k) := by
    rw [crcFor_crcs s i.tdata pos le, sending.crc, crcBytes_append]
  obtain ⟨fsm, tready, start, dics, -, rfl⟩ := sending
  cases lane4 with
  | false =>
    rw [next_last0 fsm good last keeps pos le]
    refine ⟨(bytes 8 i.tdata).take k, ⟨rfl, dics, rfl, ?_, rfl⟩, ?_⟩
    · exact crc
    · rw [symbols, lanes_data, ← List.map_append]
      rfl
  | true =>
    rw [next_last4 fsm good last keeps pos le]
    refine ⟨bytes 4 (s.tdataI.extractLsb' 32 32) ++ (bytes 8 i.tdata).take k, ⟨rfl, dics, rfl, ?_, rfl⟩, ?_⟩
    · exact crc
    · rw [symbols, lanes_pair, bytes_halves s.tdataI, if_pos rfl]
      simp only [List.map_append, List.append_assoc]

end Axis2xgmii

end Zcu102.Nfmac
