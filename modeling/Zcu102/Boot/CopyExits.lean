import Zcu102.Boot.ChipSelect

/-!
# How `copy` ends

`copy` has three ends: CMD18 is refused, a sector does not match its CRC, or all do.
For each, what is stored and every byte that is sent. A transfer sends one byte and
receives one, so the bytes sent after some have been received are found by their
number. Only the two commands send anything but dummies.
-/

namespace Zcu102.Boot
set_option autoImplicit false
open Sim Sim.Prog

/-! ## Bytes sent -/

/-- The byte an effect puts into the transmit FIFO. -/
def Event.byte : Event → Option Byte
  | .store32 a v => if a = reg32 spiCtrlAddr spiRegTxfifo then some (v.setWidth 8) else none
  | .store8 _ _ => none
  | .rx _ => none
  | .putc _ => none
  | .fenceI => none

/-- The bytes a log sends, in order. -/
def sent (l : List Event) : List Byte := l.filterMap Event.byte

theorem sent_append (l l' : List Event) : sent (l ++ l') = sent l ++ sent l' := List.filterMap_append

/-- The leading dummy and the six bytes of a frame. -/
def frameBytes (cmd : Byte) (arg : BitVec 32) (crc : Byte) : List Byte :=
  [0xFF, cmd, (arg >>> 24).setWidth 8, (arg >>> 16).setWidth 8, (arg >>> 8).setWidth 8, arg.setWidth 8, crc]

/-- `n` dummies. -/
def dummies (n : ℕ) : List Byte := List.replicate n 0xFF

theorem dummies_add (n k : ℕ) : dummies (n + k) = dummies n ++ dummies k :=
  List.replicate_add n k 0xFF

section Sends

variable {α γ : Type} {m : Sd α} {f : α → Sd γ}

/-- Whatever a program reads, it sends `bytes`. -/
def Sends (m : Sd α) (bytes : List Byte) : Prop := ∀ w a l, Takes m w a l → sent l = bytes

/-- A program sends a dummy for each byte it reads. -/
def Idles (m : Sd α) : Prop := ∀ w a l, Takes m w a l → sent l = dummies w.length

theorem Sends.bind {bytes bytes' : List Byte} (first : Sends m bytes) (second : ∀ a, Sends (f a) bytes') :
    Sends (m >>= f) (bytes ++ bytes') := by
  intro w c l taken
  obtain ⟨w₁, w₂, a, l₁, l₂, -, rfl, h₁, h₂⟩ := takes_bind.1 taken
  rw [sent_append, first w₁ a l₁ h₁, second a w₂ c l₂ h₂]

theorem Idles.bind (first : Idles m) (second : ∀ a, Idles (f a)) : Idles (m >>= f) := by
  intro w c l taken
  obtain ⟨w₁, w₂, a, l₁, l₂, rfl, rfl, h₁, h₂⟩ := takes_bind.1 taken
  rw [sent_append, first w₁ a l₁ h₁, second a w₂ c l₂ h₂, List.length_append, dummies_add]

theorem sends_pure (a : α) : Sends (pure a) [] := by
  intro w b l taken
  rw [(takes_pure.1 taken).2.2]
  rfl

theorem idles_pure (a : α) : Idles (pure a : Sd α) := by
  intro w b l taken
  obtain ⟨nothing, -, silent⟩ := takes_pure.1 taken
  rw [nothing, silent]
  rfl

theorem sends_silent {e : Event} (silent : e.byte = none) : Sends (emit e) [] := by
  intro w u l taken
  rw [(takes_emit.1 taken).2, sent, List.filterMap_cons_none silent]
  rfl

theorem idles_silent {e : Event} (silent : e.byte = none) : Idles (emit e) := by
  intro w u l taken
  rw [sends_silent silent w u l taken, (takes_emit.1 taken).1]
  rfl

theorem sends_spiXfer (d : Byte) : Sends (spiXfer d) [d] := by
  intro w b l taken
  obtain ⟨_, _, _, l₁, l₂, -, rfl, store, receive⟩ := takes_bind.1 taken
  obtain ⟨-, rfl⟩ := takes_emit.1 store
  obtain ⟨-, rfl⟩ := takes_read.1 receive
  have byte : (d.setWidth 32).setWidth 8 = d := by
    rw [BitVec.setWidth_setWidth_of_le d (by decide), BitVec.setWidth_eq]
  show [(d.setWidth 32).setWidth 8] = [d]
  rw [byte]

theorem idles_sdDummy : Idles sdDummy := by
  intro w b l taken
  have one : w = [b] := reads_sdDummy.1 ⟨l, taken⟩
  rw [sends_spiXfer 0xFF w b l taken, one]
  rfl

theorem Idles.doWhile {body : Sd α} (idles : Idles body) (productive : Productive body) (again : α → Bool) :
    Idles (doWhile body productive again) := by
  intro w a l taken
  have rounds := (takes_doWhile productive).1 taken
  clear taken
  induction rounds with
  | last body _ => exact idles _ _ _ body
  | more body _ _ ih => rw [sent_append, idles _ _ _ body, ih, List.length_append, dummies_add]

end Sends

theorem idles_putChars (cs : List Char) : Idles (putChars cs) := by
  induction cs with
  | nil => exact idles_pure ()
  | cons c cs ih => exact (idles_silent rfl).bind fun _ => ih

theorem idles_sdPoll (n : ℕ) : Idles (sdPoll n) := by
  induction n with
  | zero =>
    refine idles_sdDummy.bind fun r => ?_
    split
    · exact idles_pure r
    · exact (idles_putChars _).bind fun _ => idles_pure r
  | succ n ih =>
    refine idles_sdDummy.bind fun r => ?_
    split
    · exact idles_pure r
    · exact ih

theorem idles_sdCmdEnd : Idles sdCmdEnd := idles_sdDummy.bind fun _ => idles_silent rfl

theorem idles_copyBytes (n p : ℕ) (crc : BitVec 16) : Idles (copyBytes n p crc) := by
  induction n generalizing p crc with
  | zero => exact idles_pure (p, crc)
  | succ n ih => exact idles_sdDummy.bind fun x => (idles_silent rfl).bind fun _ => ih _ _

theorem idles_copySector (p : ℕ) : Idles (copySector p) :=
  (idles_sdDummy.doWhile _ _).bind fun _ => (idles_copyBytes _ _ _).bind fun _ => idles_sdDummy.bind fun _ =>
    idles_sdDummy.bind fun _ => idles_pure _

theorem idles_spin (i : ℕ) : Idles (spin i) := by
  unfold spin
  split
  · exact (idles_silent rfl).bind fun _ => idles_silent rfl
  · exact idles_pure ()

theorem idles_copySectors (n p : ℕ) : Idles (copySectors n p) := by
  induction n generalizing p with
  | zero => exact idles_pure 0
  | succ n ih =>
    refine (idles_copySector p).bind fun result => ?_
    obtain ⟨p', mismatch⟩ := result
    cases mismatch with
    | true => exact (idles_putChars _).bind fun _ => idles_pure 1
    | false => exact (idles_spin _).bind fun _ => ih _

theorem idles_copyStart (fClk : ℕ) : Idles (copyStart fClk) :=
  (idles_putChars _).bind fun _ => (idles_putChars _).bind fun _ => (idles_putChars _).bind fun _ => idles_silent rfl

theorem sends_sdFrame (cmd : Byte) (arg : BitVec 32) (crc : Byte) :
    Sends (sdFrame cmd arg crc) (frameBytes cmd arg crc) :=
  (sends_silent rfl).bind fun _ => (sends_spiXfer 0xFF).bind fun _ => (sends_spiXfer cmd).bind fun _ =>
    (sends_spiXfer _).bind fun _ => (sends_spiXfer _).bind fun _ => (sends_spiXfer _).bind fun _ =>
      (sends_spiXfer _).bind fun _ => (sends_spiXfer crc).bind fun _ => sends_pure ()

/-- A command sends its frame, and a dummy for every byte it polls. -/
theorem sent_sdCmd {cmd crc r : Byte} {arg : BitVec 32} {w : List Byte} {l : List Event}
    (taken : Takes (sdCmd cmd arg crc) w r l) : sent l = frameBytes cmd arg crc ++ dummies (w.length - 7) := by
  obtain ⟨w₁, w₂, _, l₁, l₂, rfl, rfl, frame, poll⟩ := takes_bind.1 taken
  have seven := reads_sdFrame.1 ⟨l₁, frame⟩
  rw [sent_append, sends_sdFrame cmd arg crc _ _ _ frame, idles_sdPoll 999 _ _ _ poll, List.length_append, seven,
    Nat.add_sub_cancel_left]

/-! ## CSMODE -/

/-- CSMODE is AUTO after the log, whatever it was before. -/
def EndsAuto (l : List Event) : Prop := ∀ mode, l.foldl modeAfter mode = spiCsmodeAuto

theorem EndsAuto.after {l : List Event} (auto : EndsAuto l) (before : List Event) : EndsAuto (before ++ l) := by
  intro mode
  rw [List.foldl_append]
  exact auto _

theorem EndsAuto.quiet {l l' : List Event} (auto : EndsAuto l) (quiet : ∀ e ∈ l', Quiet e) : EndsAuto (l ++ l') := by
  intro mode
  rw [List.foldl_append, foldl_modeAfter_quiet quiet]
  exact auto mode

theorem endsAuto_sdCmdEnd {w : List Byte} {l : List Event} (taken : Takes sdCmdEnd w () l) : EndsAuto l := by
  obtain ⟨_, _, _, l₁, l₂, -, rfl, -, store⟩ := takes_bind.1 taken
  obtain ⟨-, rfl⟩ := takes_emit.1 store
  exact EndsAuto.after (fun mode => rfl) l₁

/-! ## The run of `copy` -/

/-- The two ways a run of `copy` goes after CMD18, with all it reads and sends. -/
inductive CopyRun : List Byte → BitVec 32 → List Event → Prop
  | refused {u : List Byte} {x : Byte} {a : Option Byte} {l : List Event} : Reply u a → a ≠ some 0x00 →
      stores l = [] → sent l = frameBytes 0x52 bblPartitionStartSector 0xE1 ++ dummies (u.length - 7) ++ [0xFF] →
      CopyRun (u ++ [x]) 1 l
  | stopped {u v t bytes : List Byte} {x y : Byte} {a : Option Byte} {rc : BitVec 32} {l : List Event} :
      Reply u (some 0x00) → Copied payloadSize v rc bytes → Reply t a → stores l = storesAt payloadDest bytes →
      sent l = frameBytes 0x52 bblPartitionStartSector 0xE1 ++ dummies (u.length - 7) ++ dummies v.length ++
        0xFF :: (frameBytes 0x4C 0 0x01 ++ dummies (t.length - 7) ++ [0xFF]) →
      CopyRun (u ++ v ++ x :: (t ++ [y])) rc l

theorem sent_sdCmdEnd {w : List Byte} {l : List Event} (taken : Takes sdCmdEnd w () l) : sent l = [0xFF] := by
  obtain ⟨x, one⟩ := reads_sdCmdEnd.1 ⟨l, taken⟩
  rw [idles_sdCmdEnd _ _ _ taken, one]
  rfl

/-- A program that reads nothing sends nothing. -/
theorem Idles.sent_nil {α : Type} {m : Sd α} (idles : Idles m) {a : α} {l : List Event} (taken : Takes m [] a l) :
    sent l = [] := idles [] a l taken

/-- After the sectors: CMD12, with an end of command before and after it. -/
theorem takes_stop {rc rc' : BitVec 32} {w : List Byte} {l : List Event}
    (taken : Takes (do
      sdCmdEnd
      let _ ← sdCmd 0x4C 0 0x01
      sdCmdEnd
      kputs "\x08 "
      pure rc) w rc' l) :
    rc' = rc ∧ EndsAuto l ∧ ∃ x t y a, w = x :: (t ++ [y]) ∧ Reply t a ∧ stores l = [] ∧
      sent l = 0xFF :: (frameBytes 0x4C 0 0x01 ++ dummies (t.length - 7) ++ [0xFF]) := by
  obtain ⟨w₁, w, _, l₁, l, rfl, rfl, firstEnd, afterFirst⟩ := takes_bind.1 taken
  obtain ⟨x, rfl⟩ := reads_sdCmdEnd.1 ⟨l₁, firstEnd⟩
  obtain ⟨t, w, r, l₂, l, rfl, rfl, stop, afterStop⟩ := takes_bind.1 afterFirst
  obtain ⟨w₃, w, _, l₃, l, rfl, rfl, lastEnd, afterLast⟩ := takes_bind.1 afterStop
  obtain ⟨y, rfl⟩ := reads_sdCmdEnd.1 ⟨l₃, lastEnd⟩
  obtain ⟨w₄, w, _, l₄, l, rfl, rfl, message, result⟩ := takes_bind.1 afterLast
  obtain rfl : w₄ = [] := reads_kputs.1 ⟨l₄, message⟩
  obtain ⟨rfl, rfl, rfl⟩ := takes_pure.1 result
  have auto := ((endsAuto_sdCmdEnd lastEnd).quiet ((quiet_putChars _).takes message)).after (l₁ ++ l₂)
  refine ⟨rfl, by simpa using auto, x, t, y, r1 r, by simp, reads_sdCmd ⟨l₂, stop⟩, ?_, ?_⟩
  · simp only [stores_append, Emits.no_stores device_sdCmdEnd firstEnd, Emits.no_stores (device_sdCmd _ _ _) stop,
      Emits.no_stores device_sdCmdEnd lastEnd, Emits.no_stores (device_putChars _) message]
    rfl
  · simp only [sent_append, sent_sdCmdEnd firstEnd, sent_sdCmd stop, sent_sdCmdEnd lastEnd,
      (idles_putChars _).sent_nil message]
    simp [sent]

theorem copyRun_of_takes {fClk : ℕ} {w : List Byte} {rc : BitVec 32} {l : List Event}
    (taken : Takes (copy fClk) w rc l) : CopyRun w rc l ∧ EndsAuto l := by
  obtain ⟨w₀, w, _, l₀, l, rfl, rfl, start, afterStart⟩ := takes_bind.1 taken
  obtain rfl : w₀ = [] := reads_copyStart.1 ⟨l₀, start⟩
  have unstored₀ := Emits.no_stores (device_copyStart fClk) start
  have unsent₀ := (idles_copyStart fClk).sent_nil start
  obtain ⟨u, w, r, l₁, l, rfl, rfl, command, afterCommand⟩ := takes_bind.1 afterStart
  have reply := reads_sdCmd ⟨l₁, command⟩
  have unstored₁ := Emits.no_stores (device_sdCmd _ _ _) command
  by_cases zero : r = 0x00
  · rw [if_neg (not_not_intro zero)] at afterCommand
    rw [(r1_eq_some (by rfl)).2 zero] at reply
    obtain ⟨v, w, rc', l₂, l, rfl, rfl, sectors, afterSectors⟩ := takes_bind.1 afterCommand
    obtain ⟨bytes, copied, stored⟩ := takes_copySectors sectors
    obtain ⟨rfl, auto, x, t, y, a, rfl, stop, unstored, stopped⟩ := takes_stop afterSectors
    refine ⟨?_, ((auto.after l₂).after l₁).after l₀⟩
    have run := CopyRun.stopped (x := x) (y := y) (l := l₀ ++ (l₁ ++ (l₂ ++ l))) reply copied stop ?_ ?_
    · simpa using run
    · rw [stores_append, stores_append, stores_append, unstored₀, unstored₁, stored, unstored]
      simp
    · rw [sent_append, sent_append, sent_append, unsent₀, sent_sdCmd command, idles_copySectors _ _ _ _ _ sectors,
        stopped]
      simp
  · rw [if_pos zero] at afterCommand
    obtain ⟨w₃, w, _, l₂, l, rfl, rfl, ends, result⟩ := takes_bind.1 afterCommand
    obtain ⟨x, rfl⟩ := reads_sdCmdEnd.1 ⟨l₂, ends⟩
    obtain ⟨rfl, rfl, rfl⟩ := takes_pure.1 result
    have refusal : r1 r ≠ some 0x00 := by rwa [Ne, r1_eq_some (by rfl)]
    have auto := (endsAuto_sdCmdEnd ends).after (l₀ ++ l₁)
    constructor
    · have run := CopyRun.refused (x := x) reply refusal (l := l₀ ++ (l₁ ++ (l₂ ++ []))) ?_ ?_
      · simpa using run
      · simp only [stores_append, unstored₀, unstored₁, Emits.no_stores device_sdCmdEnd ends]
        simp [stores]
      · simp only [sent_append, unsent₀, sent_sdCmd command, sent_sdCmdEnd ends]
        simp [sent]
    · simpa using auto

/-! ## One parse -/

/-- Blocks that match, up to one that does not, can be read in one way only. -/
theorem Sectors.unique_broken {u u' v v' t t' data data' : List Byte} {blocks blocks' : List (List Byte)}
    {crc crc' : BitVec 16} (h : Sectors u blocks) (bad : Sector v data crc) (differ : crc ≠ crc16 data)
    (h' : Sectors u' blocks') (bad' : Sector v' data' crc') (differ' : crc' ≠ crc16 data')
    (same : u ++ (v ++ t) = u' ++ (v' ++ t')) : blocks = blocks' ∧ data = data' := by
  induction h generalizing u' blocks' with
  | nil =>
    cases h' with
    | nil => exact ⟨rfl, (bad.unique bad' same).1⟩
    | cons sector' _ =>
      rw [List.append_assoc] at same
      obtain ⟨rfl, rfl, -⟩ := bad.unique sector' same
      exact absurd rfl differ
  | cons sector _ ih =>
    cases h' with
    | nil =>
      rw [List.append_assoc] at same
      obtain ⟨rfl, rfl, -⟩ := sector.unique bad' same
      exact absurd rfl differ'
    | cons sector' sectors' =>
      rw [List.append_assoc, List.append_assoc] at same
      obtain ⟨rfl, -, rest⟩ := sector.unique sector' same
      obtain ⟨rfl, rfl⟩ := ih sectors' rest
      exact ⟨rfl, rfl⟩

theorem Copied.unique {n : ℕ} {v v' t t' bytes bytes' : List Byte} {rc rc' : BitVec 32} (h : Copied n v rc bytes)
    (h' : Copied n v' rc' bytes') (same : v ++ t = v' ++ t') : v = v' ∧ rc = rc' ∧ bytes = bytes' := by
  obtain ⟨l, taken⟩ := h.reads 0
  obtain ⟨l', taken'⟩ := h'.reads 0
  obtain ⟨word, result, -⟩ := taken.unique taken' same
  refine ⟨word, result, ?_⟩
  cases h with
  | whole sectors count =>
    cases h' with
    | whole sectors' count' => rw [sectors.unique sectors' same (count.trans count'.symm)]
    | broken => exact absurd result (by decide)
  | broken sectors count bad differ =>
    cases h' with
    | whole => exact absurd result (by decide)
    | broken sectors' count' bad' differ' =>
      rw [List.append_assoc, List.append_assoc] at same
      obtain ⟨blocks, data⟩ := sectors.unique_broken bad differ sectors' bad' differ' same
      rw [blocks, data]

/-! ## Memory -/

theorem foldl_storesAt_of_ge (mem : ℕ → Byte) (p : ℕ) (bs : List Byte) {a : ℕ} (past : p + bs.length ≤ a) :
    (storesAt p bs).foldl (fun m s => Function.update m s.1 s.2) mem a = mem a := by
  induction bs generalizing mem p with
  | nil => rfl
  | cons b bs ih =>
    rw [List.length_cons] at past
    rw [storesAt, List.foldl_cons, ih _ (p + 1) (by omega)]
    exact Function.update_of_ne (by omega) _ _

theorem mem_storesAt {p q : ℕ} {v : Byte} {bs : List Byte} (mem : (q, v) ∈ storesAt p bs) :
    p ≤ q ∧ q < p + bs.length := by
  induction bs generalizing p with
  | nil => cases mem
  | cons b bs ih =>
    rw [List.length_cons]
    obtain first | later := List.mem_cons.1 mem
    · have here := congrArg Prod.fst first
      omega
    · have there := ih later
      omega

/-- A log writes `bytes` from `p` on, and nothing else outside the device registers. -/
structure Wrote (l : List Event) (p : ℕ) (bytes : List Byte) : Prop where
  memory : ∀ mem a, memAfter mem l a = if p ≤ a then bytes.getD (a - p) (mem a) else mem a
  only : ∀ e ∈ l, Within p (p + bytes.length) e

theorem wrote_copy {fClk : ℕ} {w bytes : List Byte} {rc : BitVec 32} {l : List Event}
    (taken : Takes (copy fClk) w rc l) (stored : stores l = storesAt payloadDest bytes) :
    Wrote l payloadDest bytes where
  memory := by
    intro mem a
    unfold memAfter
    rw [stored]
    by_cases low : payloadDest ≤ a
    · obtain ⟨i, rfl⟩ := Nat.exists_eq_add_of_le low
      rw [if_pos low, Nat.add_sub_cancel_left, List.getD_eq_getElem?_getD]
      by_cases inside : i < bytes.length
      · rw [foldl_storesAt _ _ _ inside, List.getElem?_eq_getElem inside, Option.getD_some]
      · rw [foldl_storesAt_of_ge _ _ _ (by omega), List.getElem?_eq_none (by omega), Option.getD_none]
    · rw [if_neg low, foldl_storesAt_of_lt _ _ _ (by omega)]
  only := by
    intro e member
    obtain device | ⟨p, v, rfl, -⟩ := (within_copy fClk).takes taken e member
    · exact Or.inl device
    · have store : (p, v) ∈ stores l := List.mem_filterMap.2 ⟨_, member, rfl⟩
      rw [stored] at store
      exact Or.inr ⟨p, v, rfl, mem_storesAt store⟩

/-! ## The exits -/

theorem Reply.seven_le {w : List Byte} {a : Option Byte} (reply : Reply w a) : 7 ≤ w.length := by
  cases reply with
  | answer seven _ _ _ => rw [List.length_append, seven]; omega
  | silent seven _ _ => rw [List.length_append, seven]; omega

theorem count_dummies (n : ℕ) : (dummies n).count 0x4C = 0 :=
  List.count_eq_zero.2 fun mem => absurd (List.eq_of_mem_replicate mem) (by decide)

/-- What a run sends up to the last byte of the payload. -/
theorem length_sent_payload {u v : List Byte} (reply : Reply u (some 0x00)) :
    (frameBytes 0x52 bblPartitionStartSector 0xE1 ++ dummies (u.length - 7) ++ dummies v.length).length =
      (u ++ v).length := by
  have seven := reply.seven_le
  have frame : (frameBytes 0x52 bblPartitionStartSector 0xE1).length = 7 := rfl
  rw [List.length_append, List.length_append, List.length_append, frame, dummies, dummies, List.length_replicate,
    List.length_replicate]
  omega

/-- A run on a word that starts with a refusal. -/
theorem CopyRun.of_refusal {w u t t' : List Byte} {a : Option Byte} {rc : BitVec 32} {l : List Event}
    (run : CopyRun w rc l) (reply : Reply u a) (refusal : a ≠ some 0x00) (same : u ++ t = w ++ t') :
    rc = 1 ∧ stores l = [] ∧ (sent l).count 0x4C = 0 := by
  cases run with
  | refused reply' _ stored sending =>
    refine ⟨rfl, stored, ?_⟩
    rw [sending, List.count_append, List.count_append, count_dummies]
    decide
  | stopped reply' =>
    rw [List.append_assoc, List.append_assoc] at same
    exact absurd (reply.unique reply' same).2 refusal

/-- A run on a word that starts with the answer to CMD18 and the sectors it asks for. -/
theorem CopyRun.of_sectors {w u v t t' bytes : List Byte} {rc rc' : BitVec 32} {l : List Event}
    (run : CopyRun w rc l) (reply : Reply u (some 0x00)) (copied : Copied payloadSize v rc' bytes)
    (same : u ++ (v ++ t) = w ++ t') :
    rc = rc' ∧ stores l = storesAt payloadDest bytes ∧ ∃ x s y a, w = u ++ v ++ x :: (s ++ [y]) ∧ Reply s a ∧
      sent l = frameBytes 0x52 bblPartitionStartSector 0xE1 ++ dummies (u.length - 7) ++ dummies v.length ++
        0xFF :: (frameBytes 0x4C 0 0x01 ++ dummies (s.length - 7) ++ [0xFF]) := by
  cases run with
  | refused reply' refusal =>
    rw [List.append_assoc] at same
    exact absurd (reply.unique reply' same).2.symm refusal
  | @stopped u' v' s bytes' x y a rc l reply' copied' reply'' stored sending =>
    rw [List.append_assoc, List.append_assoc] at same
    obtain ⟨rfl, -⟩ := reply.unique reply' same
    obtain ⟨rfl, rfl, rfl⟩ := copied.unique copied' (List.append_cancel_left same)
    exact ⟨rfl, stored, x, s, y, a, rfl, reply'', sending⟩

/-- After `n` bytes the card is stopped: one dummy is sent, the frame of CMD12 with the dummy that leads it, a dummy
for each byte polled up to the answer, one dummy, and nothing more. -/
def Stops (σ : ℕ → Byte) (l : List Event) (n : ℕ) : Prop :=
  ∃ x s y a, received σ (n + (s.length + 2)) = received σ n ++ x :: (s ++ [y]) ∧ Reply s a ∧
    (sent l).drop n = 0xFF :: ([0xFF, 0x4C, 0, 0, 0, 0, 0x01] ++ dummies (s.length - 7) ++ [0xFF])

/-- A run that is past CMD18 ends as its sectors do, and stops the card once. -/
theorem stops_after_sectors {fClk k n : ℕ} {σ : ℕ → Byte} {u v bytes : List Byte} {rc rc' : BitVec 32} {l : List Event}
    (taken : Takes (copy fClk) (received σ k) rc l) (split : received σ n = u ++ v) (reply : Reply u (some 0x00))
    (copied : Copied payloadSize v rc' bytes) :
    rc = rc' ∧ Wrote l payloadDest bytes ∧ Stops σ l n ∧ (sent l).count 0x4C = 1 := by
  have common := received_common σ n k
  rw [split, List.append_assoc] at common
  obtain ⟨result, stored, x, s, y, a, word, answer, sending⟩ :=
    (copyRun_of_takes taken).1.of_sectors reply copied common
  have total : n = (u ++ v).length := by rw [← split, received_length]
  refine ⟨result, wrote_copy taken stored, ⟨x, s, y, a, ?_, answer, ?_⟩, ?_⟩
  · have whole := congrArg List.length word
    rw [received_length, List.length_append, ← total, List.length_cons, List.length_append,
      List.length_singleton] at whole
    rw [split, ← word, whole]
  · rw [sending, total]
    exact List.drop_left' (length_sent_payload reply)
  · rw [sending, List.count_append, List.count_append, List.count_append, List.count_cons, List.count_append,
      List.count_append, count_dummies, count_dummies, count_dummies]
    decide

/-- **The exits of `copy`**, on every stream on which it returns: when CMD18 is refused nothing is written and no
CMD12 is sent; a sector that does not match is the last to be written, and the card is stopped; when all match it is
stopped as well. CSMODE is AUTO in each case, whatever it was before. -/
theorem copy_exits {fClk : ℕ} {σ : ℕ → Byte} {rc : BitVec 32} {l : List Event}
    (returned : Returns (copy fClk) σ rc l) :
    (∀ n a, Reply (received σ n) a → a ≠ some 0x00 →
      rc = 1 ∧ (∀ mem, memAfter mem l = mem) ∧ (∀ e ∈ l, Device e) ∧ (sent l).count 0x4C = 0) ∧
    (∀ n u v w blocks data crc, received σ n = u ++ (v ++ w) → Reply u (some 0x00) → Sectors v blocks →
      blocks.length < payloadSize → Sector w data crc → crc ≠ crc16 data →
      rc = 1 ∧ (blocks.flatten ++ data).length = 512 * (blocks.length + 1) ∧
        Wrote l payloadDest (blocks.flatten ++ data) ∧ Stops σ l n ∧ (sent l).count 0x4C = 1) ∧
    (∀ n u v blocks, received σ n = u ++ v → Reply u (some 0x00) → Sectors v blocks → blocks.length = payloadSize →
      rc = 0 ∧ Wrote l payloadDest blocks.flatten ∧ Stops σ l n ∧ (sent l).count 0x4C = 1) ∧
    ∀ mode, l.foldl modeAfter mode = spiCsmodeAuto := by
  obtain ⟨k, taken⟩ := returned
  obtain ⟨run, auto⟩ := copyRun_of_takes taken
  refine ⟨?_, ?_, ?_, auto⟩
  · intro n a reply refusal
    obtain ⟨result, stored, unsent⟩ := run.of_refusal reply refusal (received_common σ n k)
    have nothing : Wrote l payloadDest [] := wrote_copy taken stored
    refine ⟨result, fun mem => funext fun a => ?_, fun e mem => ?_, unsent⟩
    · rw [nothing.memory, List.getD_nil, ite_self]
    · obtain device | ⟨p, v, -, low, high⟩ := nothing.only e mem
      · exact device
      · exact absurd high (Nat.not_lt.mpr low)
  · intro n u v w blocks data crc split reply sectors count bad differ
    obtain ⟨result, wrote, stops, once⟩ := stops_after_sectors taken split reply (.broken sectors count bad differ)
    refine ⟨result, ?_, wrote, stops, once⟩
    obtain ⟨_, _, _, _, _, size, _⟩ := bad
    rw [List.length_append, sectors.flatten_length, size, Nat.mul_succ]
    rfl
  · intro n u v blocks split reply sectors count
    exact stops_after_sectors taken split reply (.whole sectors count)

/-- A sector of zeros with the CRC 0x0001. -/
def brokenSector : List Byte := [] ++ 0xFE :: (blankBlock ++ [0, 1])

/-- A card that accepts CMD18 and sends it first. -/
def brokenCard : ℕ → Byte := streamOf (promptReply 0x00 ++ ([] ++ brokenSector)) 0

/-- The sector is written, and the card stopped after it. -/
theorem copy_exits_broken : ∃ l, Returns (copy 50000000) brokenCard 1 l ∧ Wrote l payloadDest blankBlock ∧
    Stops brokenCard l (promptReply 0x00 ++ ([] ++ brokenSector)).length := by
  have split := received_streamOf (promptReply 0x00 ++ ([] ++ brokenSector)) 0
  have reply : Reply (promptReply 0x00) (some 0x00) := reply_prompt rfl
  have sector : Sector brokenSector blankBlock 1 :=
    ⟨[], 0, 1, rfl, List.not_mem_nil, List.length_replicate, rfl⟩
  have differ : (1 : BitVec 16) ≠ crc16 blankBlock := by
    rw [blankBlock, crc16_blank]
    decide
  have answered : Answers (copy 50000000) brokenCard 1 :=
    copy_answers split reply (.broken .nil (by decide) sector differ)
  obtain ⟨l, returned⟩ := answered
  obtain ⟨-, -, wrote, stops, -⟩ :=
    (copy_exits returned).2.1 _ _ [] _ [] blankBlock 1 split reply .nil (by decide) sector differ
  exact ⟨l, returned, wrote, stops⟩

end Zcu102.Boot
