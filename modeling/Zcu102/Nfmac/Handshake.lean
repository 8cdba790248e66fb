import Zcu102.Nfmac.Sender

/-!
# Between the two modules

`padding_ctrl` never waits for `axis2xgmii`: once a frame has begun, it presents a beat a
cycle, whether the module behind it is ready or not, and after a frame it counts two or
three cycles before it takes the next. Here is why no beat is lost, whatever the stream
does: packets of any length, errors, beats that fail to come. The invariant says for each
state of the one module in how many cycles the other accepts a beat (`Sound`).
-/

namespace Zcu102.Nfmac
set_option autoImplicit false
open Zcu102.Sim

namespace Axis2xgmii

/-! ## How soon a beat is accepted -/

/-- No beat, and nothing that would end a frame. -/
def Silent (i : Axis) : Prop := i.tvalid = false ∧ i.tlast = false ∧ i.tuser = false

/-- The module takes the next beat, and has taken `n` of a frame already; from the second on it is in one of the two
states for the rest of the frame, and knows the lane. -/
def Accepts (s : Axis2xgmii) (n : ℕ) : Prop :=
  s.tready = true ∧
    ((s.fsm = .idleL0 ∨ s.fsm = .dwIdle) ∧ n = 0 ∨ s.fsm = .stLane4 ∧ n ≤ 1 ∨
      s.fsm = .stLane0 ∧ s.lane4Start = false ∨ s.fsm = .stLane4D ∧ s.lane4Start = true)

theorem Accepts.mono {s : Axis2xgmii} {m n : ℕ} (accepts : s.Accepts n) (le : m ≤ n) : s.Accepts m := by
  obtain ⟨ready, ⟨fsm, rfl⟩ | ⟨fsm, one⟩ | lane0 | lane4⟩ := accepts
  · exact ⟨ready, .inl ⟨fsm, Nat.le_zero.mp le⟩⟩
  · exact ⟨ready, .inr (.inl ⟨fsm, by omega⟩)⟩
  · exact ⟨ready, .inr (.inr (.inl lane0))⟩
  · exact ⟨ready, .inr (.inr (.inr lane4))⟩

/-- After the second beat it makes no difference how many there have been. -/
theorem Accepts.many {s : Axis2xgmii} {m n : ℕ} (accepts : s.Accepts n) (two : 2 ≤ n) : s.Accepts m := by
  obtain ⟨ready, ⟨-, rfl⟩ | ⟨-, one⟩ | lane0 | lane4⟩ := accepts
  · omega
  · omega
  · exact ⟨ready, .inr (.inr (.inl lane0))⟩
  · exact ⟨ready, .inr (.inr (.inr lane4))⟩

/-- A clock with a beat or without one, as long as nothing ends the frame. -/
theorem Accepts.plain {s : Axis2xgmii} {n : ℕ} (accepts : s.Accepts n) {i : Axis} (more : i.tlast = false)
    (good : i.tuser = false) : (s.next i).Accepts (if i.tvalid then n + 1 else n) := by
  obtain ⟨ready, ⟨fsm | fsm, rfl⟩ | ⟨fsm, one⟩ | ⟨fsm, lane⟩ | ⟨fsm, lane⟩⟩ := accepts
  · rw [next, fsm]
    cases valid : i.tvalid with
    | false => exact ⟨ready, .inl ⟨.inl rfl, rfl⟩⟩
    | true => exact ⟨ready, .inr (.inr (.inl ⟨rfl, rfl⟩))⟩
  · rw [next, fsm]
    cases valid : i.tvalid with
    | false => exact ⟨ready, .inl ⟨.inl rfl, rfl⟩⟩
    | true => exact ⟨ready, .inr (.inl ⟨rfl, Nat.le_refl 1⟩)⟩
  · rw [next, fsm, good]
    exact ⟨ready, .inr (.inr (.inr ⟨rfl, rfl⟩))⟩
  · rw [next_stLane0 fsm good more]
    exact ⟨rfl, .inr (.inr (.inl ⟨fsm, lane⟩))⟩
  · rw [next_stLane4D fsm good more]
    exact ⟨rfl, .inr (.inr (.inr ⟨fsm, lane⟩))⟩

/-- Inside a frame the lane and the deficit stay. -/
theorem Accepts.keeps {s : Axis2xgmii} (accepts : s.Accepts 2) {i : Axis} (more : i.tlast = false)
    (good : i.tuser = false) : (s.next i).lane4Start = s.lane4Start ∧ (s.next i).dic = s.dic := by
  obtain ⟨ready, ⟨-, none⟩ | ⟨-, one⟩ | ⟨fsm, lane⟩ | ⟨fsm, lane⟩⟩ := accepts
  · cases none
  · omega
  · rw [next_stLane0 fsm good more]
    exact ⟨rfl, rfl⟩
  · rw [next_stLane4D fsm good more]
    exact ⟨rfl, rfl⟩

/-- In `n` cycles without a beat the module accepts one, and no later cycle changes that. -/
def Due : ℕ → Axis2xgmii → Prop
  | 0, s => s.Accepts 0
  | n + 1, s => s.Accepts 0 ∨ ∀ i, Silent i → Due n (s.next i)

theorem Accepts.due {s : Axis2xgmii} {m : ℕ} (accepts : s.Accepts m) (n : ℕ) : Due n s := by
  cases n with
  | zero => exact accepts.mono (Nat.zero_le m)
  | succ n => exact .inl (accepts.mono (Nat.zero_le m))

theorem Due.step {s : Axis2xgmii} {n : ℕ} (due : Due (n + 1) s) {i : Axis} (silent : Silent i) : Due n (s.next i) := by
  obtain accepts | later := due
  · exact (accepts.plain silent.2.1 silent.2.2).due n
  · exact later i silent

theorem Due.succ {s : Axis2xgmii} {n : ℕ} (due : Due n s) : Due (n + 1) s := by
  induction n generalizing s with
  | zero => exact .inl due
  | succ n ih =>
    obtain accepts | later := due
    · exact .inl accepts
    · exact .inr fun i silent => ih (later i silent)

theorem Drains.due {s : Axis2xgmii} {n : ℕ} {out : List Symbol} {lane4 : Bool} {dic : BitVec 2}
    (drains : s.Drains n out lane4 dic) : Due n s := by
  induction n generalizing s out with
  | zero =>
    obtain ⟨-, fsm, ready, -⟩ := drains
    cases lane4 with
    | false => exact ⟨ready, .inl ⟨.inl fsm, rfl⟩⟩
    | true => exact ⟨ready, .inl ⟨.inr fsm, rfl⟩⟩
  | succ n ih =>
    refine .inr fun i silent => ?_
    obtain ⟨rest, -, later⟩ := drains i silent.1
    exact ih later

/-- An error ends the frame, if one has begun. -/
theorem Accepts.abort {s : Axis2xgmii} {n : ℕ} (accepts : s.Accepts n) {i : Axis} (valid : i.tvalid = true)
    (error : i.tuser = true) : Due 1 (s.next i) := by
  obtain ⟨ready, ⟨fsm | fsm, rfl⟩ | ⟨fsm, one⟩ | ⟨fsm, lane⟩ | ⟨fsm, lane⟩⟩ := accepts
  · rw [next, fsm, valid]
    exact .inl ⟨ready, .inr (.inr (.inl ⟨rfl, rfl⟩))⟩
  · rw [next, fsm, valid]
    exact .inl ⟨ready, .inr (.inl ⟨rfl, by decide⟩)⟩
  all_goals
    rw [next, fsm, error]
    exact (drains_qwIdle rfl).due

/-- After a last beat it takes the two or three cycles that `padding_ctrl` counts. -/
theorem Accepts.last {s : Axis2xgmii} (accepts : s.Accepts 2) {i : Axis} {k : ℕ} (last : i.tlast = true)
    (good : i.tuser = false) (keeps : i.tkeep = keep k) (pos : 0 < k) (le : k ≤ 8) :
    Due (if quick s.lane4Start k s.dic then 2 else 3) (s.next i) := by
  have ended {lane4 : Bool} (fsm : (s.next i).fsm = fin lane4 k) (keeps : (s.next i).tkeepI = keep k)
      (dic : (s.next i).dic = s.dic) : Due (if quick lane4 k s.dic then 2 else 3) (s.next i) := by
    have due := (drains_fin fsm keeps rfl pos le).due
    rwa [dic] at due
  obtain ⟨ready, ⟨-, none⟩ | ⟨-, one⟩ | ⟨fsm, lane⟩ | ⟨fsm, lane⟩⟩ := accepts
  · cases none
  · omega
  · have after := next_last0 fsm good last keeps pos le
    rw [lane]
    exact ended (by rw [after]) (by rw [after]) (by rw [after]; rfl)
  · have after := next_last4 fsm good last keeps pos le
    rw [lane]
    exact ended (by rw [after]) (by rw [after]) (by rw [after]; rfl)

end Axis2xgmii

namespace Tx
open Axis2xgmii PaddingCtrl

/-! ## The invariant -/

/-- An error is presented, with the beat before it. -/
def Aborts (t : Tx) : Prop :=
  t.paddingCtrl.mAxisTvalid = true ∧ t.paddingCtrl.mAxisTuser = true ∧ t.axis2xgmii.Accepts 0

/-- A last beat is presented, after which `two` cycles are enough. -/
def Closes (t : Tx) (two : Bool) : Prop :=
  t.paddingCtrl.mAxisTvalid = true ∧ t.paddingCtrl.mAxisTlast = true ∧ t.paddingCtrl.mAxisTuser = false ∧
    t.axis2xgmii.Accepts 2 ∧ ∃ k, 0 < k ∧ k ≤ 8 ∧ t.paddingCtrl.mAxisTkeep = keep k ∧
      quick t.axis2xgmii.lane4Start k t.axis2xgmii.dic = two

/-- Beats are presented, and the counter is ahead of them by two. -/
def Presents (t : Tx) : Prop :=
  t.paddingCtrl.mAxisTvalid = true ∧ 2 ≤ t.paddingCtrl.trn.toNat ∧
    t.axis2xgmii.Accepts (t.paddingCtrl.trn.toNat - 2)

/-- What the state of `padding_ctrl` says about `axis2xgmii`. -/
def Sound (t : Tx) : Prop :=
  match t.paddingCtrl.fsm with
  | .sres =>
    t.paddingCtrl.mAxisTvalid = false ∧ t.paddingCtrl.mAxisTvalidD0 = false ∧
      (t.axis2xgmii.fsm = .sres ∧ t.axis2xgmii.tready = false ∨
        Silent t.paddingCtrl.mAxis ∧ t.axis2xgmii.Accepts 0)
  | .idle => t.paddingCtrl.mAxisTvalidD0 = false ∧ Silent t.paddingCtrl.mAxis ∧ Due 2 t.axis2xgmii
  | .st =>
    t.paddingCtrl.mAxisTvalidD0 = true ∧ t.paddingCtrl.mAxisTlast = false ∧ t.paddingCtrl.mAxisTuser = false ∧
      (t.paddingCtrl.mAxisTvalid = false ∧ t.paddingCtrl.trn = 1#5 ∧ Due 1 t.axis2xgmii ∨ t.Presents)
  | .padChk =>
    t.paddingCtrl.mAxisTvalidD0 = true ∧ t.paddingCtrl.mAxisTlast = false ∧ t.paddingCtrl.mAxisTuser = false ∧
      t.Presents ∧ ∃ k, 0 < k ∧ k ≤ 8 ∧ t.paddingCtrl.lastTkeep = keep k
  | .w3 => t.paddingCtrl.mAxisTvalidD0 = false ∧ t.Closes false
  | .w2 =>
    t.paddingCtrl.mAxisTvalidD0 = false ∧
      (Silent t.paddingCtrl.mAxis ∧ Due 3 t.axis2xgmii ∨ t.Aborts ∨ t.Closes true)
  | .errWLast =>
    t.paddingCtrl.mAxisTvalidD0 = false ∧ (Silent t.paddingCtrl.mAxis ∧ Due 1 t.axis2xgmii ∨ t.Aborts)

/-- The counter is never behind the beats. -/
theorem count_ahead (trn : BitVec 5) (pos : 1 ≤ trn.toNat) :
    2 ≤ (count trn).toNat ∧ ((count trn).toNat = trn.toNat + 1 ∨ 8 ≤ trn.toNat) := by
  revert trn
  decide

theorem trn_succ {trn : BitVec 5} (small : trn.toNat < 8) : (trn + 1#5).toNat = trn.toNat + 1 :=
  (BitVec.toNat_add _ _).trans (Nat.mod_eq_of_lt (by show trn.toNat + 1 < 32; omega))

/-- A last beat enables at least one byte. -/
def Enabled (i : Axis) : Prop := i.tvalid = true → i.tlast = true → i.tkeep ≠ 0#8

instance (i : Axis) : Decidable (Enabled i) := inferInstanceAs (Decidable (_ → _ → _))

theorem lastBeat_keep (s : PaddingCtrl) {i : Axis} (nonzero : i.tkeep ≠ 0#8) :
    ∃ k, 0 < k ∧ k ≤ 8 ∧ (s.lastBeat i).2 = keep k := by
  unfold lastBeat
  repeat' split
  · exact ⟨8, by decide, by decide, rfl⟩
  · exact ⟨7, by decide, by decide, rfl⟩
  · exact ⟨6, by decide, by decide, rfl⟩
  · exact ⟨5, by decide, by decide, rfl⟩
  · exact ⟨4, by decide, by decide, rfl⟩
  · exact ⟨3, by decide, by decide, rfl⟩
  · exact ⟨2, by decide, by decide, rfl⟩
  · exact ⟨1, by decide, by decide, rfl⟩
  · rename_i seven six five four three two one none
    exfalso
    apply nonzero
    apply BitVec.eq_of_getLsbD_eq
    intro j less
    obtain rfl | rfl | rfl | rfl | rfl | rfl | rfl | rfl :
        j = 0 ∨ j = 1 ∨ j = 2 ∨ j = 3 ∨ j = 4 ∨ j = 5 ∨ j = 6 ∨ j = 7 := by omega
    · exact Bool.eq_false_of_not_eq_true none
    · exact Bool.eq_false_of_not_eq_true one
    · exact Bool.eq_false_of_not_eq_true two
    · exact Bool.eq_false_of_not_eq_true three
    · exact Bool.eq_false_of_not_eq_true four
    · exact Bool.eq_false_of_not_eq_true five
    · exact Bool.eq_false_of_not_eq_true six
    · exact Bool.eq_false_of_not_eq_true seven

/-- Beats go on, and the counter with them. -/
theorem Presents.accepts {t : Tx} (presents : t.Presents) (more : t.paddingCtrl.mAxisTlast = false)
    (good : t.paddingCtrl.mAxisTuser = false) :
    (t.axis2xgmii.next t.paddingCtrl.mAxis).Accepts (t.paddingCtrl.trn.toNat - 1) := by
  obtain ⟨valid, two, accepts⟩ := presents
  have after := accepts.plain (i := t.paddingCtrl.mAxis) more good
  have here : t.paddingCtrl.mAxis.tvalid = true := valid
  rw [here, if_pos rfl] at after
  exact after.mono (by omega)

theorem Closes.due {t : Tx} {two : Bool} (closes : t.Closes two) :
    Due (if two then 2 else 3) (t.axis2xgmii.next t.paddingCtrl.mAxis) := by
  obtain ⟨-, last, good, accepts, k, pos, le, keeps, wait⟩ := closes
  rw [← wait]
  exact accepts.last last good keeps pos le

/-- **Whatever the stream does, the modules stay in step.** -/
theorem Sound.next {t : Tx} (sound : t.Sound) {i : Axis} (enabled : Enabled i) : (t.next i).Sound := by
  cases fsm : t.paddingCtrl.fsm with
  | sres =>
    rw [Sound, fsm] at sound
    obtain ⟨none, none', waits | ⟨silent, accepts⟩⟩ := sound
    · rw [Sound, next_eq, PaddingCtrl.next, fsm, feedback, waits.2]
      refine ⟨none', none', .inr ⟨⟨none', rfl, rfl⟩, ?_⟩⟩
      rw [Axis2xgmii.next, waits.1]
      exact ⟨rfl, .inl ⟨.inl rfl, rfl⟩⟩
    · rw [Sound, next_eq, PaddingCtrl.next, fsm, feedback, accepts.1]
      exact ⟨none', ⟨none', rfl, rfl⟩, (accepts.plain silent.2.1 silent.2.2).due 2⟩
  | idle =>
    rw [Sound, fsm] at sound
    obtain ⟨none, silent, due⟩ := sound
    rw [Sound, next_eq, PaddingCtrl.next, fsm]
    cases i.tvalid with
    | false => exact ⟨none, ⟨none, rfl, rfl⟩, (due.step silent).succ⟩
    | true => exact ⟨rfl, rfl, rfl, .inl ⟨none, rfl, due.step silent⟩⟩
  | st =>
    rw [Sound, fsm] at sound
    obtain ⟨valid, more, good, frame⟩ := sound
    have ahead : 2 ≤ (count t.paddingCtrl.trn).toNat ∧
        (t.axis2xgmii.next t.paddingCtrl.mAxis).Accepts ((count t.paddingCtrl.trn).toNat - 2) := by
      obtain ⟨none, one, due⟩ | presents := frame
      · rw [one]
        exact ⟨by decide, due.step ⟨none, more, good⟩⟩
      · have accepts := presents.accepts more good
        have two := presents.2.1
        obtain ⟨least, counts | many⟩ := count_ahead t.paddingCtrl.trn (by omega)
        · exact ⟨least, accepts.mono (by omega)⟩
        · exact ⟨least, accepts.many (by omega)⟩
    have aborts := ahead.2.mono (Nat.zero_le _)
    rw [Sound, next_eq, PaddingCtrl.next, fsm]
    cases here : i.tvalid with
    | false => exact ⟨rfl, .inr (.inl ⟨valid, rfl, aborts⟩)⟩
    | true =>
      cases last : i.tlast with
      | false =>
        cases i.tuser with
        | false => exact ⟨valid, rfl, rfl, .inr ⟨valid, ahead⟩⟩
        | true => exact ⟨rfl, .inr ⟨valid, rfl, aborts⟩⟩
      | true =>
        cases i.tuser with
        | false => exact ⟨valid, rfl, rfl, ⟨valid, ahead⟩, lastBeat_keep _ (enabled here last)⟩
        | true => exact ⟨rfl, .inr (.inl ⟨valid, rfl, aborts⟩)⟩
  | padChk =>
    rw [Sound, fsm] at sound
    obtain ⟨valid, more, good, presents, k, pos, le, keeps⟩ := sound
    have accepts := presents.accepts more good
    have two := presents.2.1
    by_cases enough : 8#5 ≤ t.paddingCtrl.trn
    · have eight : 8 ≤ t.paddingCtrl.trn.toNat := enough
      obtain ⟨lane, dic⟩ := (presents.2.2.many (m := 2) (by omega)).keeps (i := t.paddingCtrl.mAxis) more good
      have ending := padded_keep t.axis2xgmii.lane4Start t.axis2xgmii.dic (t.paddingCtrl.trn.getLsbD 4) pos le
      generalize wide : (if t.paddingCtrl.trn.getLsbD 4 then k else max k 4) = j at ending
      have bounds : 0 < j ∧ j ≤ 8 := by
        rw [← wide]
        split <;> omega
      have after : (t.next i).paddingCtrl = { t.paddingCtrl with
          mAxisTdata := t.paddingCtrl.mAxisTdataD0, mAxisTvalid := t.paddingCtrl.mAxisTvalidD0, mAxisTuser := false
          mAxisTdataD0 := 0#64, lastTkeep := 0x0f#8, trn := t.paddingCtrl.trn + 1#5, mAxisTvalidD0 := false
          mAxisTlast := true, mAxisTkeep := keep j
          fsm := if quick t.axis2xgmii.lane4Start j t.axis2xgmii.dic then .w2 else .w3 } := by
        rw [next_eq, PaddingCtrl.next, fsm]
        simp only [if_pos enough, feedback, keeps, ending]
      have closes : (t.next i).Closes (quick t.axis2xgmii.lane4Start j t.axis2xgmii.dic) := by
        rw [Closes, after]
        refine ⟨valid, rfl, rfl, accepts.many (by omega), j, bounds.1, bounds.2, rfl, ?_⟩
        show quick (t.axis2xgmii.next t.paddingCtrl.mAxis).lane4Start j (t.axis2xgmii.next t.paddingCtrl.mAxis).dic = _
        rw [lane, dic]
      have none : (t.next i).paddingCtrl.mAxisTvalidD0 = false := by rw [after]
      cases wait : quick t.axis2xgmii.lane4Start j t.axis2xgmii.dic with
      | true =>
        rw [wait] at closes after
        have state : (t.next i).paddingCtrl.fsm = .w2 := by rw [after]; rfl
        rw [Sound, state]
        exact ⟨none, .inr (.inr closes)⟩
      | false =>
        rw [wait] at closes after
        have state : (t.next i).paddingCtrl.fsm = .w3 := by rw [after]; rfl
        rw [Sound, state]
        exact ⟨none, closes⟩
    · have small : t.paddingCtrl.trn.toNat < 8 := Nat.lt_of_not_le enough
      have counts := trn_succ small
      rw [Sound, next_eq, PaddingCtrl.next, fsm]
      simp only [if_neg enough]
      refine ⟨valid, trivial, trivial, ⟨valid, ?_, ?_⟩, 4, by decide, by decide, rfl⟩
      · show 2 ≤ (t.paddingCtrl.trn + 1#5).toNat
        omega
      · show (t.axis2xgmii.next t.paddingCtrl.mAxis).Accepts ((t.paddingCtrl.trn + 1#5).toNat - 2)
        rw [counts]
        exact accepts.mono (by omega)
  | w3 =>
    rw [Sound, fsm] at sound
    obtain ⟨none, closes⟩ := sound
    rw [Sound, next_eq, PaddingCtrl.next, fsm]
    exact ⟨none, .inl ⟨⟨none, rfl, rfl⟩, closes.due⟩⟩
  | w2 =>
    rw [Sound, fsm] at sound
    obtain ⟨none, state⟩ := sound
    rw [Sound, next_eq, PaddingCtrl.next, fsm]
    refine ⟨none, ⟨none, rfl, rfl⟩, ?_⟩
    obtain ⟨silent, due⟩ | ⟨valid, error, accepts⟩ | closes := state
    · exact due.step silent
    · exact (accepts.abort valid error).succ
    · exact closes.due
  | errWLast =>
    rw [Sound, fsm] at sound
    obtain ⟨none, state⟩ := sound
    have due : Due 1 (t.axis2xgmii.next t.paddingCtrl.mAxis) := by
      obtain ⟨silent, due⟩ | ⟨valid, error, accepts⟩ := state
      · exact (due.step silent).succ
      · exact accepts.abort valid error
    rw [Sound, next_eq, PaddingCtrl.next, fsm]
    cases !i.tvalid || i.tlast with
    | true => exact ⟨none, .inl ⟨⟨none, rfl, rfl⟩, due.succ.succ⟩⟩
    | false => exact ⟨none, .inl ⟨⟨none, rfl, rfl⟩, due⟩⟩

theorem Sound.tready {t : Tx} (sound : t.Sound) (valid : t.paddingCtrl.mAxisTvalid = true) :
    t.axis2xgmii.tready = true := by
  have quiet (none : t.paddingCtrl.mAxisTvalid = false) : t.axis2xgmii.tready = true := by
    rw [valid] at none
    cases none
  cases fsm : t.paddingCtrl.fsm with
  | sres =>
    rw [Sound, fsm] at sound
    exact quiet sound.1
  | idle =>
    rw [Sound, fsm] at sound
    exact quiet sound.2.1.1
  | st =>
    rw [Sound, fsm] at sound
    obtain ⟨-, -, -, ⟨none, -⟩ | ⟨-, -, accepts⟩⟩ := sound
    · exact quiet none
    · exact accepts.1
  | padChk =>
    rw [Sound, fsm] at sound
    exact sound.2.2.2.1.2.2.1
  | w3 =>
    rw [Sound, fsm] at sound
    exact sound.2.2.2.2.1.1
  | w2 =>
    rw [Sound, fsm] at sound
    obtain ⟨-, ⟨silent, -⟩ | ⟨-, -, accepts⟩ | ⟨-, -, -, accepts, -⟩⟩ := sound
    · exact quiet silent.1
    · exact accepts.1
    · exact accepts.1
  | errWLast =>
    rw [Sound, fsm] at sound
    obtain ⟨-, ⟨silent, -⟩ | ⟨-, -, accepts⟩⟩ := sound
    · exact quiet silent.1
    · exact accepts.1

theorem Fresh.sound {t : Tx} (fresh : t.Fresh) : t.Sound := by
  rw [Sound, fresh.fsm.1]
  exact ⟨fresh.tvalid.1, fresh.tvalid.2, .inl ⟨fresh.fsm.2, fresh.tready.2⟩⟩

/-! ## How long the stream is held off -/

/-- What the wait of the stream depends on: out of reset `padding_ctrl` waits for `axis2xgmii` to come up, and from then
on it has only its own state and counter to go by, whatever is in the pipeline and whatever the stream brings. -/
def Held (t : Tx) : Prop :=
  match t.paddingCtrl.fsm with
  | .sres => t.axis2xgmii.tready = true ∨ t.axis2xgmii.fsm = .sres ∧ t.axis2xgmii.tready = false
  | .idle => t.axisTready = true
  | .st => t.axisTready = true ∧ 1 ≤ t.paddingCtrl.trn.toNat
  | .padChk => 2 ≤ t.paddingCtrl.trn.toNat
  | .w3 => True
  | .w2 => True
  | .errWLast => t.axisTready = true

/-- The cycles until a beat is taken. -/
def wait (t : Tx) : ℕ :=
  match t.paddingCtrl.fsm with
  | .sres => if t.axis2xgmii.tready then 1 else 2
  | .padChk => 3 + (8 - t.paddingCtrl.trn.toNat)
  | .w3 => 2
  | .w2 => 1
  | .idle => 0
  | .st => 0
  | .errWLast => 0

theorem padded_waits (lane4Start : Bool) (dic : BitVec 2) (lastTkeep : BitVec 8) (many : Bool) :
    (padded lane4Start dic lastTkeep many).2 = .w2 ∨ (padded lane4Start dic lastTkeep many).2 = .w3 := by
  unfold padded
  repeat' split
  · exact .inl rfl
  · exact .inl rfl
  · exact .inr rfl
  · exact .inr rfl

/-- A cycle in which the stream is not held off leads to one, or to the padding of a frame; any other one brings the end
of the wait nearer. -/
theorem Held.next {t : Tx} (held : t.Held) (i : Axis) :
    (t.next i).Held ∧ (t.axisTready = false → (t.next i).wait < t.wait) := by
  have taking (ready : t.axisTready = true) : t.axisTready = false → (t.next i).wait < t.wait := by
    intro busy
    rw [ready] at busy
    cases busy
  cases fsm : t.paddingCtrl.fsm with
  | sres =>
    rw [Held, fsm] at held
    obtain ready | ⟨down, low⟩ := held
    · have after : (t.next i).paddingCtrl.fsm = .idle ∧ (t.next i).axisTready = true := by
        rw [axisTready, next_eq, PaddingCtrl.next, fsm, feedback, ready]
        exact ⟨rfl, rfl⟩
      rw [Held, wait, wait, fsm, after.1, ready]
      exact ⟨after.2, fun _ => (by decide : 0 < 1)⟩
    · have after : (t.next i).paddingCtrl.fsm = .sres ∧ (t.next i).axis2xgmii.tready = true := by
        rw [next_eq, PaddingCtrl.next, fsm, feedback, low, Axis2xgmii.next, down]
        exact ⟨rfl, rfl⟩
      rw [Held, wait, wait, fsm, after.1, after.2, low]
      exact ⟨.inl rfl, fun _ => (by decide : 1 < 2)⟩
  | idle =>
    rw [Held, fsm] at held
    refine ⟨?_, taking held⟩
    rw [Held, axisTready, next_eq, PaddingCtrl.next, fsm]
    cases i.tvalid with
    | false => exact held
    | true => exact ⟨held, Nat.le_refl 1⟩
  | st =>
    rw [Held, fsm] at held
    obtain ⟨ready, pos⟩ := held
    have ahead := (count_ahead t.paddingCtrl.trn pos).1
    refine ⟨?_, taking ready⟩
    rw [Held, axisTready, next_eq, PaddingCtrl.next, fsm]
    cases i.tvalid with
    | false => trivial
    | true =>
      cases i.tlast with
      | false =>
        cases i.tuser with
        | false => exact ⟨rfl, Nat.le_of_succ_le ahead⟩
        | true => rfl
      | true =>
        cases i.tuser with
        | false => exact ahead
        | true => trivial
  | padChk =>
    rw [Held, fsm] at held
    by_cases enough : 8#5 ≤ t.paddingCtrl.trn
    · have after : (t.next i).paddingCtrl.fsm = .w2 ∨ (t.next i).paddingCtrl.fsm = .w3 := by
        rw [next_eq, PaddingCtrl.next, fsm]
        simp only [if_pos enough]
        exact padded_waits _ _ _ _
      obtain after | after := after
      all_goals
        rw [Held, wait, wait, fsm, after]
        simp only
        exact ⟨trivial, fun _ => by omega⟩
    · have small : t.paddingCtrl.trn.toNat < 8 := Nat.lt_of_not_le enough
      have after : (t.next i).paddingCtrl.fsm = .padChk ∧ (t.next i).paddingCtrl.trn = t.paddingCtrl.trn + 1#5 := by
        rw [next_eq, PaddingCtrl.next, fsm]
        simp only [if_neg enough, and_self]
      rw [Held, wait, wait, fsm, after.1, after.2, trn_succ small]
      simp only
      exact ⟨by omega, fun _ => by omega⟩
  | w3 =>
    have after : (t.next i).paddingCtrl.fsm = .w2 := by
      rw [next_eq, PaddingCtrl.next, fsm]
    rw [Held, wait, wait, fsm, after]
    exact ⟨trivial, fun _ => (by decide : 1 < 2)⟩
  | w2 =>
    have after : (t.next i).paddingCtrl.fsm = .idle ∧ (t.next i).axisTready = true := by
      rw [axisTready, next_eq, PaddingCtrl.next, fsm]
      exact ⟨rfl, rfl⟩
    rw [Held, wait, wait, fsm, after.1]
    exact ⟨after.2, fun _ => (by decide : 0 < 1)⟩
  | errWLast =>
    rw [Held, fsm] at held
    refine ⟨?_, taking held⟩
    rw [Held, axisTready, next_eq, PaddingCtrl.next, fsm]
    cases !i.tvalid || i.tlast with
    | false => exact held
    | true => trivial

theorem Held.wait_le {t : Tx} (held : t.Held) : t.wait ≤ 9 := by
  unfold wait
  cases fsm : t.paddingCtrl.fsm with
  | sres =>
    simp only
    split <;> decide
  | padChk =>
    rw [Held, fsm] at held
    simp only at held ⊢
    omega
  | idle | st | w3 | w2 | errWLast => exact Nat.le_of_ble_eq_true rfl

/-! ## From reset on -/

section Reset

variable (t : Tx) (i : Axis) (rs : List (Bool × Axis))

/-- **No beat is lost between the modules**: whenever `padding_ctrl` presents one, `axis2xgmii` is ready, whatever the
stream has brought since the reset. -/
theorem beats_accepted (empty : t.paddingCtrl.mAxisTvalidD0 = false) (is : List Axis) (enabled : ∀ j ∈ is, Enabled j) :
    Throughout next (fun t _ => t.paddingCtrl.mAxisTvalid = true → t.axis2xgmii.tready = true) (t.reset i rs) is :=
  Throughout.of_invariant Sound Enabled (fun _ _ enabled sound => sound.next enabled) (fun _ _ sound => sound.tready)
    (fresh_reset t i rs empty).sound enabled

/-- A reset gives no more than this about the state; the pipeline keeps its second stage. -/
theorem held_reset : (t.reset i rs).Held := by
  have down : (t.reset i rs).paddingCtrl.fsm = .sres ∧ (t.reset i rs).axis2xgmii.fsm = .sres ∧
      (t.reset i rs).axis2xgmii.tready = false := by
    refine runs_invariant
      (fun t : Tx => t.paddingCtrl.fsm = .sres ∧ t.axis2xgmii.fsm = .sres ∧ t.axis2xgmii.tready = false)
      ⟨rfl, rfl, rfl⟩ ?_ rs
    rintro t ⟨aresetn, j⟩ ⟨fsm, -, low⟩
    refine ⟨?_, rfl, rfl⟩
    cases aresetn with
    | false => rfl
    | true =>
      show (t.paddingCtrl.next j t.feedback).fsm = .sres
      rw [PaddingCtrl.next, fsm, feedback, low]
      rfl
  rw [Held, down.1]
  exact .inr down.2

/-- **The stream is held off for nine cycles at most**, at any time after the reset, whatever the stream does. -/
theorem ready_again (is js : List Axis) (long : 9 < js.length) :
    ∃ now later, js = now ++ later ∧ now.length ≤ 9 ∧
      (runs next (runs next (t.reset i rs) is) now).axisTready = true := by
  have held : (runs next (t.reset i rs) is).Held :=
    runs_invariant Held (held_reset t i rs) (fun _ j held => (held.next j).1) is
  have bound := held.wait_le
  obtain ⟨now, later, split, short, -, ready⟩ := runs_reaches Held (fun t => t.axisTready = true) (fun _ => True) wait
    (fun t j _ held _ => (held.next j).1)
    (fun _ j _ held busy => (held.next j).2 (Bool.eq_false_of_not_eq_true busy)) held
    (fun j (_ : j ∈ js) => trivial) (by omega)
  exact ⟨now, later, split, by omega, ready⟩

end Reset

/-- A packet that breaks off, one with an error, and one that is whole. -/
def rough : List Axis :=
  [noBeat, noBeat] ++ (nineThen 0).take 1 ++ [noBeat, noBeat, noBeat] ++ (nineThen 0).take 1 ++
    [{ tdata := 0#64, tkeep := 0xff#8, tvalid := true, tlast := false, tuser := true }, noBeat, noBeat] ++ nineThen 12

theorem beats_accepted_rough :
    Throughout next (fun t _ => t.paddingCtrl.mAxisTvalid = true → t.axis2xgmii.tready = true)
      (zero.reset noBeat [(true, noBeat)]) rough :=
  beats_accepted zero noBeat [(true, noBeat)] rfl rough (by decide)

theorem ready_again_rough :
    ∃ now later, List.replicate 10 noBeat = now ++ later ∧ now.length ≤ 9 ∧
      (runs next (runs next (zero.reset noBeat [(true, noBeat)]) (rough.take 24)) now).axisTready = true :=
  ready_again zero noBeat [(true, noBeat)] (rough.take 24) (List.replicate 10 noBeat) (by decide)

end Tx

end Zcu102.Nfmac
