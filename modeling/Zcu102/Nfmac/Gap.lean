import Zcu102.Nfmac.Axis2xgmii

/-!
# The end of a frame and the gap

After the last beat the module sends what it still holds, the check sequence and the
terminate character, and counts idle characters until it can start again. The path
depends on the lane the frame started in, the bytes of its last beat and the deficit
idle count: sixteen ways, twenty-four with the choice between a gap that is shorter and
one that is longer than twelve. All of them send the same thing (`drains_fin`), and the
gap is twelve characters plus what the deficit falls by (`gap_balance`).
-/

namespace Zcu102.Nfmac.Axis2xgmii
set_option autoImplicit false
open Zcu102.Sim

/-! ## The gap after a terminate character -/

/-- The gap is shortened as long as the deficit stays below four. -/
def short (t : ℕ) (dic : BitVec 2) : Bool := decide (dic.toNat + t % 4 < 4)

/-- Where the next frame can start, after a terminate character in lane `t`. -/
def nextLane4 (t : ℕ) (dic : BitVec 2) : Bool := decide (t < 4) == short t dic

def nextDic (t : ℕ) (dic : BitVec 2) : BitVec 2 := dic + BitVec.ofNat 2 t

/-- The idle characters after it, up to the word the next frame can start in. -/
def gapIdles (t : ℕ) (dic : BitVec 2) : ℕ := if t < 4 ∧ short t dic = true then 7 - t else 15 - t

/-- **The deficit pays for the gap.** -/
theorem gap_balance {t : ℕ} (inside : t < 8) (dic : BitVec 2) :
    1 + gapIdles t dic + (if nextLane4 t dic then 4 else 0) + (nextDic t dic).toNat = 12 + dic.toNat := by
  revert t dic
  decide

/-! ## Draining -/

/-- With `n` clocks and no beat, `out` goes out and the module is ready. -/
def Drains : Axis2xgmii → ℕ → List Symbol → Bool → BitVec 2 → Prop
  | s, 0, out, lane4, dic => out = [] ∧ s.Ready lane4 dic
  | s, n + 1, out, lane4, dic =>
    ∀ i : Axis, i.tvalid = false → ∃ rest, out = (s.next i).symbols ++ rest ∧ (s.next i).Drains n rest lane4 dic

theorem Drains.ready {s : Axis2xgmii} {out : List Symbol} {lane4 : Bool} {dic : BitVec 2} {i : Axis}
    (none : i.tvalid = false) (drains : s.Drains 1 out lane4 dic) :
    out = (s.next i).symbols ∧ (s.next i).Ready lane4 dic := by
  obtain ⟨rest, rfl, rfl, ready⟩ := drains i none
  exact ⟨List.append_nil _, ready⟩

theorem Drains.length {n : ℕ} {s : Axis2xgmii} {out : List Symbol} {lane4 : Bool} {dic : BitVec 2}
    (drains : s.Drains n out lane4 dic) : out.length = 8 * n := by
  induction n generalizing s out with
  | zero => rw [drains.1, List.length_nil]
  | succ n ih =>
    let none : Axis := { tdata := 0#64, tkeep := 0#8, tvalid := false, tlast := false, tuser := false }
    obtain ⟨rest, rfl, later⟩ := drains none rfl
    rw [List.length_append, ih later, symbols, length_lanes, Nat.mul_succ, Nat.add_comm]

/-- A clock that puts out one known word. -/
theorem Drains.cons {n : ℕ} {s : Axis2xgmii} {word rest : List Symbol} {lane4 : Bool} {dic : BitVec 2}
    (step : ∀ i, (s.next i).symbols = word ∧ (s.next i).Drains n rest lane4 dic) :
    s.Drains (n + 1) (word ++ rest) lane4 dic := by
  intro i _
  obtain ⟨out, drains⟩ := step i
  exact ⟨rest, by rw [out], drains⟩

/-- A clock that puts out the first of the bytes. -/
theorem Drains.part {n : ℕ} {s : Axis2xgmii} (now : List Byte) {later : List Byte} {rest : List Symbol} {lane4 : Bool}
    {dic : BitVec 2}
    (step : ∀ i, (s.next i).symbols = now.map .data ∧ (s.next i).Drains n (later.map .data ++ rest) lane4 dic) :
    s.Drains (n + 1) ((now ++ later).map .data ++ rest) lane4 dic := by
  rw [List.map_append, List.append_assoc]
  exact Drains.cons step

/-- A clock after which the module is ready. -/
theorem Drains.last {s : Axis2xgmii} {word : List Symbol} {lane4 : Bool} {dic : BitVec 2}
    (step : ∀ i, (s.next i).symbols = word ∧ (s.next i).Ready lane4 dic) : s.Drains 1 word lane4 dic := by
  have drains : s.Drains 1 (word ++ []) lane4 dic := Drains.cons fun i => ⟨(step i).1, rfl, (step i).2⟩
  rwa [List.append_nil] at drains

theorem lanes_qwIdle : lanes qwIdleD qwIdleC = idles 8 := by
  decide

/-- What is left of the deficit after a clock without a frame. -/
def paid (lane4 : Bool) (dic : BitVec 2) : BitVec 2 := if lane4 = false ∧ dic ≠ 0 then dic - 1 else dic

/-- Without a frame a ready module stays ready; a start in lane 4 is given up, or the deficit paid back. -/
theorem Ready.idle {s : Axis2xgmii} {lane4 : Bool} {dic : BitVec 2} (ready : s.Ready lane4 dic) {i : Axis}
    (none : i.tvalid = false) : (s.next i).symbols = idles 8 ∧ (s.next i).Ready false (paid lane4 dic) := by
  obtain ⟨fsm, tready, rfl⟩ := ready
  cases lane4 with
  | false =>
    have step : s.next i = { s with
        tdataI := i.tdata, tkeepI := i.tkeep, lane4Start := false, d := qwIdleD, c := qwIdleC,
        dic := if s.dic ≠ 0 then s.dic - 1 else s.dic } := by
      rw [next, fsm, none]
      rfl
    rw [step]
    refine ⟨lanes_qwIdle, fsm, tready, ?_⟩
    rw [paid]
    simp
  | true =>
    have step : s.next i = { s with
        tdataI := i.tdata, tkeepI := i.tkeep, d := qwIdleD, c := qwIdleC, fsm := .idleL0 } := by
      rw [next, fsm, none]
      rfl
    rw [step]
    exact ⟨lanes_qwIdle, rfl, tready, rfl⟩

/-- More clocks than it takes. -/
theorem Drains.idle {n : ℕ} {s : Axis2xgmii} {out : List Symbol} {lane4 : Bool} {dic : BitVec 2}
    (drains : s.Drains n out lane4 dic) : s.Drains (n + 1) (out ++ idles 8) false (paid lane4 dic) := by
  induction n generalizing s out with
  | zero =>
    obtain ⟨rfl, ready⟩ := drains
    intro i none
    obtain ⟨word, after⟩ := ready.idle none
    exact ⟨[], by rw [word, List.append_nil, List.nil_append], rfl, after⟩
  | succ n ih =>
    intro i none
    obtain ⟨rest, rfl, later⟩ := drains i none
    exact ⟨rest ++ idles 8, List.append_assoc _ _ _, ih later⟩

/-! ## Terminating -/

section Terminate
variable {s : Axis2xgmii}

theorem drains_qwIdle (fsm : s.fsm = .qwIdle) : s.Drains 1 (idles 8) false s.dic := by
  apply Drains.last
  intro i
  rw [next, fsm]
  exact ⟨lanes_qwIdle, rfl, rfl, rfl⟩

theorem drains_tLane4 (fsm : s.fsm = .tLane4) :
    s.Drains 2 ((bytes 4 s.calctedCrc4B).map .data ++ .control charT :: idles 11) false s.dic := by
  have word : lanes (charI ++ charI ++ charI ++ charT ++ s.calctedCrc4B) 0xf0#8 =
      (bytes 4 s.calctedCrc4B).map .data ++ .control charT :: idles 3 :=
    lanes_control 4 4 _ _ rfl (by decide) (by decide) (bytes_append 4 4 _ _ rfl) rfl
  have split : (bytes 4 s.calctedCrc4B).map .data ++ .control charT :: idles 11 =
      ((bytes 4 s.calctedCrc4B).map .data ++ .control charT :: idles 3) ++ idles 8 := by
    rw [List.append_assoc, List.cons_append, ← idles_add]
  rw [split]
  apply Drains.cons
  intro i
  rw [next, fsm]
  exact ⟨word, drains_qwIdle rfl⟩

theorem drains_tLane0 (fsm : s.fsm = .tLane0) : s.Drains 1 (.control charT :: idles 7) true s.dic := by
  have word : lanes (charI ++ charI ++ charI ++ charI ++ charI ++ charI ++ charI ++ charT) 0xff#8 =
      .control charT :: idles 7 := by
    decide
  apply Drains.last
  intro i
  rw [next, fsm]
  exact ⟨word, rfl, rfl, rfl⟩

theorem dic_cases (dic : BitVec 2) : dic = 0#2 ∨ dic = 1#2 ∨ dic = 2#2 ∨ dic = 3#2 := by
  revert dic
  decide

/-- The terminate character in a lower lane: after a short gap the next frame starts in lane 4 of the next word, after
a long one in lane 0 of the word after that. -/
theorem drains_low {t : ℕ} (low : t < 4) {crc : List Byte}
    (step : ∀ i, (s.next i).symbols = crc.map .data ++ .control charT :: idles (7 - t) ∧
      (s.next i).dic = nextDic t s.dic ∧
      if short t s.dic then (s.next i).fsm = .dwIdle ∧ (s.next i).tready = true else (s.next i).fsm = .qwIdle) :
    s.Drains (if short t s.dic then 1 else 2) (crc.map .data ++ .control charT :: idles (gapIdles t s.dic))
      (nextLane4 t s.dic) (nextDic t s.dic) := by
  unfold gapIdles nextLane4
  cases gap : short t s.dic with
  | true =>
    rw [if_pos rfl, if_pos ⟨low, rfl⟩, decide_eq_true low]
    apply Drains.last
    intro i
    obtain ⟨word, dics, after⟩ := step i
    rw [gap, if_pos rfl] at after
    exact ⟨word, after.1, after.2, dics⟩
  | false =>
    have split : idles (15 - t) = idles (7 - t) ++ idles 8 := by
      rw [← idles_add]
      congr 1
      omega
    rw [if_neg Bool.false_ne_true, if_neg (fun both => Bool.false_ne_true both.2), decide_eq_true low, split,
      ← List.cons_append, ← List.append_assoc]
    apply Drains.cons
    intro i
    obtain ⟨word, dics, after⟩ := step i
    rw [gap, if_neg Bool.false_ne_true] at after
    have idle := drains_qwIdle after
    rw [dics] at idle
    exact ⟨word, idle⟩

theorem drains_tLane3 (fsm : s.fsm = .tLane3) :
    s.Drains (if short 3 s.dic then 1 else 2)
      (((bytes 4 s.crcReg).drop 1).map .data ++ .control charT :: idles (gapIdles 3 s.dic)) (nextLane4 3 s.dic)
      (nextDic 3 s.dic) := by
  have bytes := bytes_append 3 5 (charI ++ charI ++ charI ++ charI ++ charT) (s.crcReg.extractLsb' 8 24) rfl
  rw [bytes_extract 1 3 s.crcReg rfl rfl 4 (by decide)] at bytes
  have word := lanes_control 3 5 _ 0xf8#8 rfl (by decide) (by decide) bytes rfl
  apply drains_low (by decide)
  intro i
  rw [next, fsm]
  obtain none | some | some | some := dic_cases s.dic
  · rw [none]
    exact ⟨word, rfl, rfl, rfl⟩
  all_goals
    rw [some]
    exact ⟨word, rfl, rfl⟩

theorem drains_tLane2 (fsm : s.fsm = .tLane2) :
    s.Drains (if short 2 s.dic then 1 else 2)
      (((bytes 4 s.crcReg).drop 2).map .data ++ .control charT :: idles (gapIdles 2 s.dic)) (nextLane4 2 s.dic)
      (nextDic 2 s.dic) := by
  have bytes := bytes_append 2 6 (charI ++ charI ++ charI ++ charI ++ charI ++ charT) (s.crcReg.extractLsb' 16 16) rfl
  rw [bytes_extract 2 2 s.crcReg rfl rfl 4 (by decide)] at bytes
  have word := lanes_control 2 6 _ 0xfc#8 rfl (by decide) (by decide) bytes rfl
  apply drains_low (by decide)
  intro i
  rw [next, fsm]
  obtain few | few | many | many := dic_cases s.dic
  · rw [few]
    exact ⟨word, rfl, rfl, rfl⟩
  · rw [few]
    exact ⟨word, rfl, rfl, rfl⟩
  all_goals
    rw [many]
    exact ⟨word, rfl, rfl⟩

theorem drains_tLane1 (fsm : s.fsm = .tLane1) :
    s.Drains (if short 1 s.dic then 1 else 2)
      (((bytes 4 s.crcReg).drop 3).map .data ++ .control charT :: idles (gapIdles 1 s.dic)) (nextLane4 1 s.dic)
      (nextDic 1 s.dic) := by
  have bytes :=
    bytes_append 1 7 (charI ++ charI ++ charI ++ charI ++ charI ++ charI ++ charT) (s.crcReg.extractLsb' 24 8) rfl
  rw [bytes_extract 3 1 s.crcReg rfl rfl 4 (by decide)] at bytes
  have word := lanes_control 1 7 _ 0xfe#8 rfl (by decide) (by decide) bytes rfl
  apply drains_low (by decide)
  intro i
  rw [next, fsm]
  obtain few | few | few | full := dic_cases s.dic
  · rw [few]
    exact ⟨word, rfl, rfl, rfl⟩
  · rw [few]
    exact ⟨word, rfl, rfl, rfl⟩
  · rw [few]
    exact ⟨word, rfl, rfl, rfl⟩
  · rw [full]
    exact ⟨word, rfl, rfl⟩

/-- The terminate character in an upper lane is out already, and a word of idle characters follows it. -/
theorem drains_high {t : ℕ} (fsm : (t = 5 ∧ s.fsm = .tLane5) ∨ (t = 6 ∧ s.fsm = .tLane6) ∨ (t = 7 ∧ s.fsm = .tLane7)) :
    s.Drains 1 (idles 8) (nextLane4 t s.dic) (nextDic t s.dic) := by
  apply Drains.last
  intro i
  rw [next]
  obtain ⟨rfl, fsm⟩ | ⟨rfl, fsm⟩ | ⟨rfl, fsm⟩ := fsm
  all_goals
    rw [fsm]
    obtain dic | dic | dic | dic := dic_cases s.dic
    all_goals
      rw [dic]
      exact ⟨lanes_qwIdle, rfl, rfl, rfl⟩

end Terminate

/-! ## The last bytes -/

section Fin
variable {s : Axis2xgmii} {crc : List Byte}

theorem drains_l0Fin8B (fsm : s.fsm = .l0Fin8B) (check : crc = bytes 4 (~~~crcRev s.crc32)) :
    s.Drains 3 ((bytes 8 s.tdataI ++ crc).map .data ++ .control charT :: idles 11) false s.dic := by
  subst check
  apply Drains.part
  intro i
  rw [next, fsm]
  exact ⟨lanes_data _, drains_tLane4 rfl⟩

theorem drains_l0Fin4B (fsm : s.fsm = .l0Fin4B) (check : crc = bytes 4 (~~~crcRev s.crc32_4B)) :
    s.Drains 2 (((bytes 8 s.tdataI).take 4 ++ crc).map .data ++ .control charT :: idles 7) true s.dic := by
  have word := lanes_pair (~~~crcRev s.crc32_4B) (s.tdataI.extractLsb' 0 32)
  rw [bytes_low 4 s.tdataI rfl (by decide), ← check] at word
  apply Drains.cons
  intro i
  rw [next, fsm]
  exact ⟨word, drains_tLane0 rfl⟩

/-- Up to three bytes, the whole check sequence and the terminate character fit into one word. -/
theorem drains_l0Fin3B2B1B {k : ℕ} (few : k = 1 ∨ k = 2 ∨ k = 3) (fsm : s.fsm = .l0Fin3B2B1B)
    (keeps : ∀ i < 3, s.tkeepI.getLsbD i = (keep k).getLsbD i) (check : crc = bytes 4 (~~~crcRev (s.crcFor k))) :
    s.Drains 2 (((bytes 8 s.tdataI).take k ++ crc).map .data ++ .control charT :: idles (11 - k))
      (nextLane4 (k + 4) s.dic) (nextDic (k + 4) s.dic) := by
  have gap : idles (11 - k) = idles (3 - k) ++ idles 8 := by
    rw [← idles_add]
    congr 1
    omega
  rw [gap, ← List.cons_append, ← List.append_assoc, check]
  apply Drains.cons
  intro i
  rw [next, fsm, keeps 0 (by decide), keeps 1 (by decide), keeps 2 (by decide)]
  obtain rfl | rfl | rfl := few
  · have split := bytes_append 1 7 (charI ++ charI ++ charT ++ ~~~crcRev s.crc32_1B) (s.tdataI.extractLsb' 0 8) rfl
    rw [bytes_append 4 3 _ _ rfl, bytes_low 1 s.tdataI rfl (by decide), ← List.append_assoc] at split
    exact ⟨lanes_control 5 3 _ 0xe0#8 rfl (by decide) (by decide) split rfl, drains_high (.inl ⟨rfl, rfl⟩)⟩
  · have split := bytes_append 2 6 (charI ++ charT ++ ~~~crcRev s.crc32_2B) (s.tdataI.extractLsb' 0 16) rfl
    rw [bytes_append 4 2 _ _ rfl, bytes_low 2 s.tdataI rfl (by decide), ← List.append_assoc] at split
    exact ⟨lanes_control 6 2 _ 0xc0#8 rfl (by decide) (by decide) split rfl, drains_high (.inr (.inl ⟨rfl, rfl⟩))⟩
  · have split := bytes_append 3 5 (charT ++ ~~~crcRev s.crc32_3B) (s.tdataI.extractLsb' 0 24) rfl
    rw [bytes_append 4 1 _ _ rfl, bytes_low 3 s.tdataI rfl (by decide), ← List.append_assoc] at split
    exact ⟨lanes_control 7 1 _ 0x80#8 rfl (by decide) (by decide) split rfl, drains_high (.inr (.inr ⟨rfl, rfl⟩))⟩

/-- Bytes of the last beat and the first bytes of the check sequence. -/
theorem lanes_split (m n : ℕ) (tdata : BitVec 64) (check : BitVec 32) (low : List Byte) (x : BitVec 64)
    (split : bytes 8 x = low ++ (bytes m (tdata.extractLsb' 0 (8 * m)) ++ bytes n (check.extractLsb' 0 (8 * n))))
    (small : m ≤ 8) (small' : n ≤ 4) :
    lanes x 0#8 = (low ++ (bytes 8 tdata).take m ++ (bytes 4 check).take n).map .data := by
  rw [lanes_data, split, bytes_low m tdata rfl small, bytes_extract 0 n check rfl rfl 4 (by omega), List.drop_zero,
    List.append_assoc]

theorem append_check (n : ℕ) (front check : List Byte) :
    front ++ check = (front ++ check.take n) ++ check.drop n := by
  rw [List.append_assoc, List.take_append_drop]

/-- After five to seven bytes there is room for the first of the check sequence. -/
theorem drains_l0Fin7B6B5B {t : ℕ} (few : t = 1 ∨ t = 2 ∨ t = 3) (fsm : s.fsm = .l0Fin7B6B5B)
    (keeps : s.tkeepI = keep (t + 4)) (check : crc = bytes 4 (~~~crcRev (s.crcFor (t + 4)))) :
    s.Drains ((if short t s.dic then 1 else 2) + 1)
      (((bytes 8 s.tdataI).take (t + 4) ++ crc).map .data ++ .control charT :: idles (gapIdles t s.dic))
      (nextLane4 t s.dic) (nextDic t s.dic) := by
  subst check
  rw [append_check (4 - t)]
  apply Drains.part
  intro i
  rw [next, fsm, keeps]
  obtain rfl | rfl | rfl := few
  · exact ⟨lanes_split 5 3 _ _ [] _ (bytes_append 5 3 _ _ rfl) (by decide) (by decide), drains_tLane1 rfl⟩
  · exact ⟨lanes_split 6 2 _ _ [] _ (bytes_append 6 2 _ _ rfl) (by decide) (by decide), drains_tLane2 rfl⟩
  · exact ⟨lanes_split 7 1 _ _ [] _ (bytes_append 7 1 _ _ rfl) (by decide) (by decide), drains_tLane3 rfl⟩

/-! A frame that started in lane 4 has half a word more to send, and then goes on as one that started in lane 0. -/

theorem lanes_held (x : BitVec 64) (y : BitVec 32) :
    lanes (x.extractLsb' 0 32 ++ y) 0#8 = (bytes 4 y ++ (bytes 8 x).take 4).map .data := by
  rw [lanes_pair, bytes_low 4 x rfl (by decide)]

/-- The upper half, moved down. -/
theorem take_moved (x : BitVec 64) (m : ℕ) (small : m ≤ 4) :
    (bytes 8 (x.extractLsb' 32 32 ++ x.extractLsb' 32 32)).take m = ((bytes 8 x).drop 4).take m := by
  have upper : bytes 4 (x.extractLsb' 32 32) = (bytes 8 x).drop 4 := bytes_extract 4 4 x rfl rfl 8 (by decide)
  rw [bytes_append 4 4 _ _ rfl, upper, List.take_append_of_le_length (by simpa using small)]

theorem take_upper (x : BitVec 64) (m : ℕ) :
    (bytes 8 x).take (m + 4) = (bytes 8 x).take 4 ++ ((bytes 8 x).drop 4).take m := by
  rw [Nat.add_comm, List.take_add]

theorem drains_l4Fin8B (fsm : s.fsm = .l4Fin8B) (check : crc = bytes 4 (~~~crcRev s.crc32)) :
    s.Drains 3 ((bytes 4 s.auxDw ++ (bytes 8 s.tdataI).take 8 ++ crc).map .data ++ .control charT :: idles 7) true
      s.dic := by
  have split : bytes 4 s.auxDw ++ (bytes 8 s.tdataI).take 8 ++ crc =
      (bytes 4 s.auxDw ++ (bytes 8 s.tdataI).take 4) ++
        ((bytes 8 (s.tdataI.extractLsb' 32 32 ++ s.tdataI.extractLsb' 32 32)).take 4 ++ crc) := by
    rw [take_moved s.tdataI 4 (by decide), take_upper s.tdataI 4]
    simp only [List.append_assoc]
  rw [split]
  apply Drains.part
  intro i
  rw [next, fsm]
  exact ⟨lanes_held _ _, drains_l0Fin4B rfl check⟩

theorem drains_l4Fin7B6B5B {t : ℕ} (few : t = 1 ∨ t = 2 ∨ t = 3) (fsm : s.fsm = .l4Fin7B6B5B)
    (keeps : s.tkeepI = keep (t + 4)) (check : crc = bytes 4 (~~~crcRev (s.crcFor (t + 4)))) :
    s.Drains 3 ((bytes 4 s.auxDw ++ (bytes 8 s.tdataI).take (t + 4) ++ crc).map .data ++
      .control charT :: idles (11 - t)) (nextLane4 (t + 4) s.dic) (nextDic (t + 4) s.dic) := by
  have split : bytes 4 s.auxDw ++ (bytes 8 s.tdataI).take (t + 4) ++ crc =
      (bytes 4 s.auxDw ++ (bytes 8 s.tdataI).take 4) ++
        ((bytes 8 (s.tdataI.extractLsb' 32 32 ++ s.tdataI.extractLsb' 32 32)).take t ++ crc) := by
    rw [take_moved s.tdataI t (by omega), take_upper s.tdataI t]
    simp only [List.append_assoc]
  rw [split]
  apply Drains.part
  intro i
  have moved : ∀ j < 3, (s.tkeepI.extractLsb' 3 5 ++ s.tkeepI.extractLsb' 4 3).getLsbD j = (keep t).getLsbD j := by
    rw [keeps]
    obtain rfl | rfl | rfl := few
    all_goals decide
  rw [next, fsm]
  refine ⟨lanes_held _ _, drains_l0Fin3B2B1B few rfl moved ?_⟩
  rw [check]
  obtain rfl | rfl | rfl := few
  all_goals rfl

theorem drains_l4Fin4B (fsm : s.fsm = .l4Fin4B) (check : crc = bytes 4 (~~~crcRev s.crc32_4B)) :
    s.Drains 3 ((bytes 4 s.auxDw ++ (bytes 8 s.tdataI).take 4 ++ crc).map .data ++ .control charT :: idles 11) false
      s.dic := by
  subst check
  apply Drains.part
  intro i
  rw [next, fsm]
  exact ⟨lanes_held _ _, drains_tLane4 rfl⟩

theorem drains_l4Fin3B2B1B {t : ℕ} (few : t = 1 ∨ t = 2 ∨ t = 3) (fsm : s.fsm = .l4Fin3B2B1B)
    (keeps : s.tkeepI = keep t) (check : crc = bytes 4 (~~~crcRev (s.crcFor t))) :
    s.Drains ((if short t s.dic then 1 else 2) + 1)
      ((bytes 4 s.auxDw ++ (bytes 8 s.tdataI).take t ++ crc).map .data ++ .control charT :: idles (gapIdles t s.dic))
      (nextLane4 t s.dic) (nextDic t s.dic) := by
  subst check
  rw [append_check (4 - t)]
  apply Drains.part
  intro i
  rw [next, fsm, keeps]
  obtain rfl | rfl | rfl := few
  · have split := bytes_append 4 4 ((~~~crcRev s.crc32_1B).extractLsb' 0 24 ++ s.tdataI.extractLsb' 0 8) s.auxDw rfl
    rw [bytes_append 1 3 _ _ rfl] at split
    exact ⟨lanes_split 1 3 _ _ _ _ split (by decide) (by decide), drains_tLane1 rfl⟩
  · have split := bytes_append 4 4 ((~~~crcRev s.crc32_2B).extractLsb' 0 16 ++ s.tdataI.extractLsb' 0 16) s.auxDw rfl
    rw [bytes_append 2 2 _ _ rfl] at split
    exact ⟨lanes_split 2 2 _ _ _ _ split (by decide) (by decide), drains_tLane2 rfl⟩
  · have split := bytes_append 4 4 ((~~~crcRev s.crc32_3B).extractLsb' 0 8 ++ s.tdataI.extractLsb' 0 24) s.auxDw rfl
    rw [bytes_append 3 1 _ _ rfl] at split
    exact ⟨lanes_split 3 1 _ _ _ _ split (by decide) (by decide), drains_tLane3 rfl⟩

end Fin

/-! ## All endings -/

/-- The lane of the terminate character. -/
def tLane (lane4 : Bool) (k : ℕ) : ℕ := (k + if lane4 then 0 else 4) % 8

/-- Whether the module is ready two clocks after the last beat, and not three. -/
def quick (lane4 : Bool) (k : ℕ) (dic : BitVec 2) : Bool :=
  if lane4 then decide (k < 4) && short k dic else decide (k ≤ 4) || (decide (k < 8) && short k dic)

/-- A terminate character in lane 0 or 4 leaves no choice. -/
theorem whole_gap (dic : BitVec 2) :
    gapIdles 0 dic = 7 ∧ nextLane4 0 dic = true ∧ nextDic 0 dic = dic ∧ nextLane4 4 dic = false ∧
      nextDic 4 dic = dic := by
  revert dic
  decide

/-- **Every ending**: what is held, the check sequence, the terminate character and the gap. -/
theorem drains_fin {s : Axis2xgmii} {lane4 : Bool} {k : ℕ} {crc : List Byte} (fsm : s.fsm = fin lane4 k)
    (keeps : s.tkeepI = keep k) (check : crc = bytes 4 (~~~crcRev (s.crcFor k))) (pos : 0 < k) (le : k ≤ 8) :
    s.Drains (if quick lane4 k s.dic then 2 else 3)
      (((if lane4 then bytes 4 s.auxDw else []) ++ (bytes 8 s.tdataI).take k ++ crc).map .data ++
        .control charT :: idles (gapIdles (tLane lane4 k) s.dic))
      (nextLane4 (tLane lane4 k) s.dic) (nextDic (tLane lane4 k) s.dic) := by
  have enables : ∀ i < 3, s.tkeepI.getLsbD i = (keep k).getLsbD i := fun i _ => by rw [keeps]
  have clocks (b : Bool) : (if b then 1 else 2) + 1 = if b then 2 else 3 := by cases b <;> rfl
  obtain ⟨idles₀, lane₀, dic₀, lane₄, dic₄⟩ := whole_gap s.dic
  cases lane4 with
  | false =>
    obtain rfl | rfl | rfl | rfl | rfl | rfl | rfl | rfl := one_to_eight pos le
    · exact drains_l0Fin3B2B1B (.inl rfl) fsm enables check
    · exact drains_l0Fin3B2B1B (.inr (.inl rfl)) fsm enables check
    · exact drains_l0Fin3B2B1B (.inr (.inr rfl)) fsm enables check
    · rw [show tLane false 4 = 0 from rfl, idles₀, lane₀, dic₀]
      exact drains_l0Fin4B fsm check
    · have drains := drains_l0Fin7B6B5B (.inl rfl) fsm keeps check
      rw [clocks] at drains
      exact drains
    · have drains := drains_l0Fin7B6B5B (.inr (.inl rfl)) fsm keeps check
      rw [clocks] at drains
      exact drains
    · have drains := drains_l0Fin7B6B5B (.inr (.inr rfl)) fsm keeps check
      rw [clocks] at drains
      exact drains
    · rw [show tLane false 8 = 4 from rfl, lane₄, dic₄]
      exact drains_l0Fin8B fsm check
  | true =>
    obtain rfl | rfl | rfl | rfl | rfl | rfl | rfl | rfl := one_to_eight pos le
    · have drains := drains_l4Fin3B2B1B (.inl rfl) fsm keeps check
      rw [clocks] at drains
      exact drains
    · have drains := drains_l4Fin3B2B1B (.inr (.inl rfl)) fsm keeps check
      rw [clocks] at drains
      exact drains
    · have drains := drains_l4Fin3B2B1B (.inr (.inr rfl)) fsm keeps check
      rw [clocks] at drains
      exact drains
    · rw [show tLane true 4 = 4 from rfl, lane₄, dic₄]
      exact drains_l4Fin4B fsm check
    · exact drains_l4Fin7B6B5B (.inl rfl) fsm keeps check
    · exact drains_l4Fin7B6B5B (.inr (.inl rfl)) fsm keeps check
    · exact drains_l4Fin7B6B5B (.inr (.inr rfl)) fsm keeps check
    · rw [show tLane true 8 = 0 from rfl, idles₀, lane₀, dic₀]
      exact drains_l4Fin8B fsm check

theorem Ended.drains {s : Axis2xgmii} {lane4 : Bool} {dic : BitVec 2} {k : ℕ} {frame rest : List Byte}
    (ended : s.Ended lane4 dic k frame rest) (pos : 0 < k) (le : k ≤ 8) :
    s.Drains (if quick lane4 k dic then 2 else 3)
      ((rest ++ fcs frame).map .data ++ .control charT :: idles (gapIdles (tLane lane4 k) dic))
      (nextLane4 (tLane lane4 k) dic) (nextDic (tLane lane4 k) dic) := by
  obtain ⟨fsm, rfl, keeps, crc, rfl⟩ := ended
  exact drains_fin fsm keeps (by rw [fcs, crc]) pos le

end Zcu102.Nfmac.Axis2xgmii
