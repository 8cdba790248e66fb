import Zcu102.Nfmac.PaddingCtrl

/-!
# Transmitting

`tx.v` puts `padding_ctrl` in front of `axis2xgmii`. The two run in lockstep without a
handshake between them, so that what one does has to fit what the other is ready for in
every cycle. Here it does: whatever frames the stream brings, each goes out padded and
framed, in order and with nothing else between them but idle characters.
-/

namespace Zcu102.Nfmac
set_option autoImplicit false
open Zcu102.Sim

/-! ## The model -/

structure Tx where
  paddingCtrl : PaddingCtrl
  axis2xgmii : Axis2xgmii

/-- A beat of the stream, as it is transferred. -/
structure Beat where
  tdata : BitVec 64
  tkeep : BitVec 8
  tlast : Bool
  tuser : Bool
  deriving DecidableEq

def Axis.beat (i : Axis) : Option Beat :=
  if i.tvalid then some { tdata := i.tdata, tkeep := i.tkeep, tlast := i.tlast, tuser := i.tuser } else none

namespace Tx

def feedback (t : Tx) : Feedback :=
  { mAxisTready := t.axis2xgmii.tready, lane4Start := t.axis2xgmii.lane4Start, dic := t.axis2xgmii.dic }

/-- One clock of both modules. -/
def clock (t : Tx) (rst aresetn : Bool) (i : Axis) : Tx :=
  { paddingCtrl := t.paddingCtrl.clock aresetn i t.feedback
    axis2xgmii := t.axis2xgmii.clock rst t.paddingCtrl.mAxis }

/-- One clock out of reset. -/
def next (t : Tx) (i : Axis) : Tx := t.clock false true i

def axisTready (t : Tx) : Bool := t.paddingCtrl.sAxisTready

theorem next_eq (t : Tx) (i : Axis) :
    t.next i = { paddingCtrl := t.paddingCtrl.next i t.feedback
                 axis2xgmii := t.axis2xgmii.next t.paddingCtrl.mAxis } := rfl

/-- What the ready cycles bring: a beat or nothing. -/
def transfers (t : Tx) (is : List Axis) : List (Option Beat) :=
  outputs next (fun t i => if t.axisTready then [i.beat] else []) t is

/-- What `padding_ctrl` presents to `axis2xgmii`, cycle by cycle. -/
def presented (t : Tx) (is : List Axis) : List Axis := outputs next (fun t _ => [t.paddingCtrl.mAxis]) t is

/-- What goes out on the line. -/
def emitted (t : Tx) (is : List Axis) : List Symbol := outputs next (fun t i => (t.next i).axis2xgmii.symbols) t is

theorem axis2xgmii_runs (t : Tx) (is : List Axis) :
    (runs next t is).axis2xgmii = runs Axis2xgmii.next t.axis2xgmii (t.presented is) := by
  induction is generalizing t with
  | nil => rfl
  | cons i is ih => exact ih (t.next i)

theorem emitted_eq (t : Tx) (is : List Axis) : t.emitted is = t.axis2xgmii.emitted (t.presented is) := by
  induction is generalizing t with
  | nil => rfl
  | cons i is ih => exact congrArg _ (ih (t.next i))

theorem take_one {t : Tx} {is : List Axis} {x : Option Beat} {rest : List (Option Beat)} (ready : t.axisTready = true)
    (offers : t.transfers is = x :: rest) : ∃ i is', is = i :: is' ∧ i.beat = x ∧ (t.next i).transfers is' = rest := by
  cases is with
  | nil => cases offers
  | cons i is =>
    have here : t.transfers (i :: is) = i.beat :: (t.next i).transfers is := by
      rw [transfers, outputs, ready]
      rfl
    rw [here] at offers
    obtain ⟨first, later⟩ := List.cons.inj offers
    exact ⟨i, is, rfl, first, later⟩

theorem wait_one {t : Tx} {is : List Axis} {rest : List (Option Beat)} (busy : t.axisTready = false)
    (offers : t.transfers is = rest) (more : rest ≠ []) : ∃ i is', is = i :: is' ∧ (t.next i).transfers is' = rest := by
  cases is with
  | nil => exact absurd offers.symm more
  | cons i is =>
    refine ⟨i, is, rfl, ?_⟩
    rw [← offers, transfers, transfers, outputs, busy]
    rfl

end Tx

/-! ## Packets -/

/-- A frame as the stream brings it: full beats and a last one of one to eight bytes. The module needs more than one
beat, since it does not look at `tlast` in the first. -/
structure Packet where
  words : List (BitVec 64)
  last : BitVec 64
  count : ℕ
  several : words ≠ []
  pos : 0 < count
  le : count ≤ 8

namespace Packet
open Axis2xgmii (keep)

def plain (w : BitVec 64) : Beat := { tdata := w, tkeep := 0xff#8, tlast := false, tuser := false }

def lastOf (w : BitVec 64) (k : ℕ) : Beat := { tdata := w, tkeep := keep k, tlast := true, tuser := false }

def beats (p : Packet) : List Beat := p.words.map plain ++ [lastOf p.last p.count]

def bytes (p : Packet) : List Byte := p.words.flatMap (Sim.bytes 8) ++ (Sim.bytes 8 p.last).take p.count

/-- The frame that is sent: zeros up to sixty bytes. -/
def frame (p : Packet) : List Byte := p.bytes ++ List.replicate (60 - p.bytes.length) 0#8

theorem length_flatMap_bytes (ws : List (BitVec 64)) : (ws.flatMap (Sim.bytes 8)).length = 8 * ws.length := by
  induction ws with
  | nil => rfl
  | cons w ws ih =>
    rw [List.flatMap_cons, List.length_append, length_bytes, ih, List.length_cons]
    omega

theorem length_bytes (p : Packet) : p.bytes.length = 8 * p.words.length + p.count := by
  rw [bytes, List.length_append, length_flatMap_bytes, List.length_take, Sim.length_bytes, Nat.min_eq_left p.le]

/-- The bytes of the last beat that is sent. -/
def lastCount (p : Packet) : ℕ :=
  PaddingCtrl.atLeast (max (p.words.length + 1) 8) (if p.words.length + 1 < 8 then 4 else p.count)

theorem lastCount_pos (p : Packet) : 0 < p.lastCount := by
  have pos := p.pos
  unfold lastCount PaddingCtrl.atLeast
  split <;> split <;> omega

theorem lastCount_le (p : Packet) : p.lastCount ≤ 8 := by
  have le := p.le
  unfold lastCount PaddingCtrl.atLeast
  split <;> split <;> omega

/-- The words of the frame: those of the packet, the last one with the unused bytes cleared, and zeros. -/
def sent (p : Packet) : List (BitVec 64) :=
  p.words ++ PaddingCtrl.fill p.count p.last :: List.replicate (8 - (p.words.length + 1)) 0#64

theorem length_sent (p : Packet) : p.sent.length = max (p.words.length + 1) 8 := by
  rw [sent, List.length_append, List.length_cons, List.length_replicate]
  omega

theorem flatMap_zeros (n : ℕ) : (List.replicate n 0#64).flatMap (Sim.bytes 8) = List.replicate (8 * n) 0#8 := by
  induction n with
  | zero => rfl
  | succ n ih =>
    have word : Sim.bytes 8 0#64 = List.replicate 8 0#8 := by decide
    rw [List.replicate_succ, List.flatMap_cons, ih, word, ← List.replicate_add]
    congr 1
    omega

theorem flatMap_sent (p : Packet) :
    p.sent.flatMap (Sim.bytes 8) = p.bytes ++ List.replicate (8 * p.sent.length - p.bytes.length) 0#8 := by
  have size : 8 - p.count + 8 * (8 - (p.words.length + 1)) = 8 * p.sent.length - p.bytes.length := by
    have le := p.le
    rw [length_sent, length_bytes]
    omega
  rw [sent, List.flatMap_append, List.flatMap_cons, flatMap_zeros, PaddingCtrl.bytes_fill p.le, List.append_assoc,
    ← List.replicate_add, ← sent, size, ← List.append_assoc, ← bytes]

theorem length_frame (p : Packet) : p.frame.length = 8 * (p.sent.length - 1) + p.lastCount := by
  have pos := p.pos
  have le := p.le
  rw [frame, List.length_append, List.length_replicate, length_sent, length_bytes]
  unfold lastCount PaddingCtrl.atLeast
  split <;> split <;> omega

/-- Cut off after the bytes of its last beat, this is the frame. -/
theorem frame_eq {p : Packet} {init : List (BitVec 64)} {y : BitVec 64} (words : init ++ [y] = p.sent) :
    init.flatMap (Sim.bytes 8) ++ (Sim.bytes 8 y).take p.lastCount = p.frame := by
  have size : init.length + 1 = max (p.words.length + 1) 8 := by
    rw [← length_sent, ← words, List.length_append, List.length_singleton]
  have whole : (init.flatMap (Sim.bytes 8)).take (8 * init.length + p.lastCount) = init.flatMap (Sim.bytes 8) := by
    apply List.take_of_length_le
    rw [length_flatMap_bytes]
    omega
  have cut : init.flatMap (Sim.bytes 8) ++ (Sim.bytes 8 y).take p.lastCount =
      (p.sent.flatMap (Sim.bytes 8)).take (8 * init.length + p.lastCount) := by
    rw [← words, List.flatMap_append, List.take_append, length_flatMap_bytes, whole, Nat.add_sub_cancel_left,
      List.flatMap_singleton]
  have total : 8 * init.length + p.lastCount = max 60 p.bytes.length := by
    have pos := p.pos
    have le := p.le
    rw [length_bytes]
    unfold lastCount PaddingCtrl.atLeast
    split <;> split <;> omega
  have all : p.bytes.take (max 60 p.bytes.length) = p.bytes := List.take_of_length_le (Nat.le_max_right _ _)
  rw [cut, flatMap_sent, total, List.take_append, all, List.take_replicate, frame]
  congr 2
  have le := p.le
  rw [length_sent, length_bytes]
  omega

end Packet

/-! ## A frame through both modules -/

namespace Tx
open PaddingCtrl (full fill atLeast)
open Axis2xgmii (keep quick)
open Packet (plain lastOf)

theorem beat_plain {i : Axis} {w : BitVec 64} (beat : i.beat = some (plain w)) :
    i.tvalid = true ∧ i.tuser = false ∧ i.tlast = false ∧ i.tdata = w := by
  rw [Axis.beat] at beat
  cases valid : i.tvalid with
  | false => rw [valid, if_neg Bool.false_ne_true] at beat; cases beat
  | true =>
    rw [valid, if_pos rfl, plain, Option.some.injEq, Beat.mk.injEq] at beat
    exact ⟨rfl, beat.2.2.2, beat.2.2.1, beat.1⟩

theorem beat_lastOf {i : Axis} {w : BitVec 64} {k : ℕ} (beat : i.beat = some (lastOf w k)) :
    i.tvalid = true ∧ i.tuser = false ∧ i.tlast = true ∧ i.tkeep = keep k ∧ i.tdata = w := by
  rw [Axis.beat] at beat
  cases valid : i.tvalid with
  | false => rw [valid, if_neg Bool.false_ne_true] at beat; cases beat
  | true =>
    rw [valid, if_pos rfl, lastOf, Option.some.injEq, Beat.mk.injEq] at beat
    exact ⟨rfl, beat.2.2.2, beat.2.2.1, beat.2.1, beat.1⟩

theorem beat_none {i : Axis} (beat : i.beat = none) : i.tvalid = false := by
  rw [Axis.beat] at beat
  cases valid : i.tvalid with
  | false => rfl
  | true => rw [valid, if_pos rfl] at beat; cases beat

/-- Between two states of a run some inputs have gone by, with what was presented meanwhile. -/
def Leg (t : Tx) (is shown : List Axis) (t' : Tx) (is' : List Axis) : Prop :=
  ∃ now, is = now ++ is' ∧ runs next t now = t' ∧ t.presented now = shown

theorem Leg.refl (t : Tx) (is : List Axis) : Leg t is [] t is := ⟨[], rfl, rfl, rfl⟩

theorem Leg.cons {t t' : Tx} {i : Axis} {is is' shown : List Axis} (leg : Leg (t.next i) is shown t' is') :
    Leg t (i :: is) (t.paddingCtrl.mAxis :: shown) t' is' := by
  obtain ⟨now, rfl, ends, shows⟩ := leg
  exact ⟨i :: now, rfl, ends, congrArg _ shows⟩

theorem Leg.trans {t t' t'' : Tx} {is is' is'' shown shown' : List Axis} (leg : Leg t is shown t' is')
    (leg' : Leg t' is' shown' t'' is'') : Leg t is (shown ++ shown') t'' is'' := by
  obtain ⟨now, rfl, rfl, rfl⟩ := leg
  obtain ⟨now', rfl, rfl, rfl⟩ := leg'
  refine ⟨now ++ now', (List.append_assoc _ _ _).symm, runs_append _ _ _ _, ?_⟩
  exact outputs_append next _ t now now'

/-- The rest of the beats. -/
theorem taking_leg {t : Tx} {is : List Axis} {n : ℕ} {x y last : BitVec 64} {ws : List (BitVec 64)} {k : ℕ}
    {rest : List (Option Beat)} (taking : t.paddingCtrl.Taking n y) (pos : 0 < n)
    (shows : t.paddingCtrl.mAxis = full x) (one : 0 < k) (le : k ≤ 8)
    (offers : t.transfers is = ws.map (fun w => some (plain w)) ++ some (lastOf last k) :: rest) :
    ∃ xs x' t' is', Leg t is (xs.map full) t' is' ∧ t'.transfers is' = rest ∧ xs ++ [x'] = x :: y :: ws ∧
      t'.paddingCtrl.Padding (n + ws.length + 1) k (fill k last) ∧ t'.paddingCtrl.mAxis = full x' := by
  induction ws generalizing t is n x y with
  | nil =>
    obtain ⟨i, is, rfl, beat, later⟩ := take_one taking.tready offers
    obtain ⟨valid, good, tlast, keeps, rfl⟩ := beat_lastOf beat
    obtain ⟨padding, next⟩ := taking.last (f := t.feedback) pos valid good tlast keeps one le
    refine ⟨[x], y, t.next i, is, ?_, later, rfl, padding, next⟩
    have leg := (Leg.refl (t.next i) is).cons
    rwa [shows] at leg
  | cons w ws ih =>
    obtain ⟨i, is, rfl, beat, later⟩ := take_one taking.tready offers
    obtain ⟨valid, good, tlast, rfl⟩ := beat_plain beat
    obtain ⟨going, next⟩ := taking.beat (f := t.feedback) pos valid good tlast
    obtain ⟨xs, x', t', is', leg, later, words, padding, last⟩ :=
      ih (t := t.next i) going (Nat.succ_pos n) next later
    refine ⟨x :: xs, x', t', is', ?_, later, congrArg _ words, ?_, last⟩
    · have leg := leg.cons
      rwa [shows] at leg
    · rw [List.length_cons, Nat.add_comm ws.length, ← Nat.add_assoc]
      exact padding

/-- Zero beats up to eight. -/
theorem padding_leg {t : Tx} {is : List Axis} {n k : ℕ} {x y : BitVec 64} {rest : List (Option Beat)}
    (padding : t.paddingCtrl.Padding n k y) (pos : 0 < n) (shows : t.paddingCtrl.mAxis = full x)
    (offers : t.transfers is = rest) (more : rest ≠ []) :
    ∃ xs x' y' t' is', Leg t is (xs.map full) t' is' ∧ t'.transfers is' = rest ∧
      xs ++ [x', y'] = x :: y :: List.replicate (8 - n) 0#64 ∧
      t'.paddingCtrl.Padding (max n 8) (if n < 8 then 4 else k) y' ∧ t'.paddingCtrl.mAxis = full x' := by
  obtain ⟨d, missing⟩ : ∃ d, d = 8 - n := ⟨8 - n, rfl⟩
  induction d generalizing t is n k x y with
  | zero =>
    refine ⟨[], x, y, t, is, Leg.refl t is, offers, ?_, ?_, shows⟩
    · rw [← missing]
      rfl
    · rw [Nat.max_eq_left (by omega), if_neg (by omega)]
      exact padding
  | succ d ih =>
    obtain ⟨i, is, rfl, later⟩ := wait_one padding.tready offers more
    obtain ⟨going, next⟩ := padding.more (i := i) (f := t.feedback) pos (by omega)
    obtain ⟨xs, x', y', t', is', leg, later, words, padded, last⟩ :=
      ih (t := t.next i) going (Nat.succ_pos n) next later (by omega)
    refine ⟨x :: xs, x', y', t', is', ?_, later, ?_, ?_, last⟩
    · have leg := leg.cons
      rwa [shows] at leg
    · have size : 8 - n = 8 - (n + 1) + 1 := by omega
      rw [List.cons_append, words, size, List.replicate_succ]
    · have same : max (n + 1) 8 = max n 8 := by omega
      rw [same, ite_self] at padded
      rw [if_pos (by omega)]
      exact padded

/-- From the first beat to the last. The first is presented two cycles after it came. -/
theorem beats_leg {t : Tx} {is : List Axis} {p : Packet} {rest : List (Option Beat)} (quiet : t.paddingCtrl.Quiet)
    (offers : t.transfers is = p.beats.map some ++ rest) :
    ∃ i j xs x' t' is', i.tvalid = false ∧ j.tvalid = false ∧ Leg t is (i :: j :: xs.map full) t' is' ∧
      t'.transfers is' = rest ∧ xs ++ [x'] = p.words ∧
      t'.paddingCtrl.Padding (p.words.length + 1) p.count (fill p.count p.last) ∧ t'.paddingCtrl.mAxis = full x' := by
  obtain ⟨words, last, count, several, pos, le⟩ := p
  cases words with
  | nil => exact absurd rfl several
  | cons w words =>
    obtain ⟨i, is, rfl, beat, offers₁⟩ := take_one quiet.tready offers
    obtain ⟨valid, -, -, rfl⟩ := beat_plain beat
    obtain ⟨taking, none⟩ : (t.next i).paddingCtrl.Taking 1 i.tdata ∧ (t.next i).paddingCtrl.mAxis.tvalid = false :=
      quiet.first valid
    cases words with
    | nil =>
      obtain ⟨j, is, rfl, beat, offers₂⟩ := take_one taking.tready offers₁
      obtain ⟨valid, good, tlast, keeps, rfl⟩ := beat_lastOf beat
      obtain ⟨padding, next⟩ := taking.last (f := (t.next i).feedback) Nat.one_pos valid good tlast keeps pos le
      exact ⟨_, _, [], i.tdata, (t.next i).next j, is, quiet.tvalid, none, (Leg.refl _ is).cons.cons, offers₂, rfl,
        padding, next⟩
    | cons w words =>
      obtain ⟨j, is, rfl, beat, offers₂⟩ := take_one taking.tready offers₁
      obtain ⟨valid, good, tlast, rfl⟩ := beat_plain beat
      obtain ⟨going, next⟩ : ((t.next i).next j).paddingCtrl.Taking 2 j.tdata ∧
          ((t.next i).next j).paddingCtrl.mAxis = full i.tdata :=
        taking.beat Nat.one_pos valid good tlast
      have offers : ((t.next i).next j).transfers is =
          words.map (fun w => some (plain w)) ++ some (lastOf last count) :: rest := by
        rw [offers₂]
        simp
      obtain ⟨xs, x', t', is', leg, later, same, padding, shows⟩ := taking_leg going (by decide) next pos le offers
      refine ⟨_, _, xs, x', t', is', quiet.tvalid, none, leg.cons.cons, later, same, ?_, shows⟩
      have size : 2 + words.length + 1 = words.length + 1 + 1 + 1 := by omega
      rw [size] at padding
      exact padding

/-- From the first beat to where only the last two words are left. -/
theorem words_leg {t : Tx} {is : List Axis} {p : Packet} {rest : List (Option Beat)} (quiet : t.paddingCtrl.Quiet)
    (offers : t.transfers is = p.beats.map some ++ rest) (more : rest ≠ []) :
    ∃ i j xs x y t' is', i.tvalid = false ∧ j.tvalid = false ∧ Leg t is (i :: j :: xs.map full) t' is' ∧
      t'.transfers is' = rest ∧ xs ++ [x, y] = p.sent ∧
      t'.paddingCtrl.Padding (max (p.words.length + 1) 8) (if p.words.length + 1 < 8 then 4 else p.count) y ∧
      t'.paddingCtrl.mAxis = full x := by
  obtain ⟨i, j, xs, x', t₁, is₁, none_i, none_j, leg, offers, words, padding, shows⟩ := beats_leg quiet offers
  obtain ⟨xs', x, y, t', is', leg', offers, words', padding, shows⟩ :=
    padding_leg padding (Nat.succ_pos _) shows offers more
  have both := leg.trans leg'
  rw [List.cons_append, List.cons_append, ← List.map_append] at both
  refine ⟨i, j, xs ++ xs', x, y, t', is', none_i, none_j, both, offers, ?_, padding, shows⟩
  rw [Packet.sent, List.append_assoc, words', ← words, List.append_assoc]
  rfl

/-- All beats of a frame but the last, taken one a cycle. -/
theorem sends {s : Axis2xgmii} {lane4 : Bool} {dic : BitVec 2} (ready : s.Ready lane4 dic) {ws : List (BitVec 64)}
    (two : 2 ≤ ws.length) :
    ∃ held, (runs Axis2xgmii.next s (ws.map full)).Sending lane4 dic (ws.flatMap (bytes 8)) held ∧
      s.emitted (ws.map full) ++ held.map .data =
        Axis2xgmii.lead lane4 ++ preamble ++ (ws.flatMap (bytes 8)).map .data := by
  obtain ⟨w, v, ws, rfl⟩ : ∃ w v ws', ws = w :: v :: ws' := by
    cases ws with
    | nil => cases two
    | cons w ws =>
      cases ws with
      | nil => exact absurd two (Nat.not_succ_le_self 1)
      | cons v ws => exact ⟨w, v, ws, rfl⟩
  obtain ⟨held, sending, start⟩ := ready.starts (i := full w) (j := full v) rfl rfl rfl
  have plain : ∀ i ∈ ws.map full, i.tuser = false ∧ i.tlast = false := by
    intro i mem
    obtain ⟨u, -, rfl⟩ := List.mem_map.mp mem
    exact ⟨rfl, rfl⟩
  obtain ⟨held', sending', more⟩ := sending.beats plain
  have words : (ws.map full).flatMap (fun i => bytes 8 i.tdata) = ws.flatMap (bytes 8) := by
    rw [List.flatMap_map]
    rfl
  rw [words] at sending' more
  have all : (w :: v :: ws).flatMap (bytes 8) = bytes 8 w ++ bytes 8 v ++ ws.flatMap (bytes 8) := by
    rw [List.flatMap_cons, List.flatMap_cons, List.append_assoc]
  refine ⟨held', ?_, ?_⟩
  · rw [all]
    exact sending'
  · have first : s.emitted ((w :: v :: ws).map full) =
        (s.next (full w)).symbols ++ ((s.next (full w)).next (full v)).symbols ++
          ((s.next (full w)).next (full v)).emitted (ws.map full) := by
      rw [List.append_assoc]
      rfl
    rw [first, List.append_assoc, more, List.map_append, ← List.append_assoc, start, all, List.map_append,
      List.append_assoc]
    rfl

/-- Between frames: `pend` is still to go out, two words of it, and then the next frame can start. -/
structure Between (t : Tx) (pend : List Symbol) (lane4 : Bool) (dic : BitVec 2) : Prop where
  quiet : t.paddingCtrl.Quiet
  drains : t.axis2xgmii.Drains 2 pend lane4 dic

/-- A ready cycle without a beat. -/
theorem Between.idle {t : Tx} {pend : List Symbol} {lane4 : Bool} {dic : BitVec 2} (between : t.Between pend lane4 dic)
    {i : Axis} (none : i.tvalid = false) :
    ∃ pend', (t.next i).Between pend' false (Axis2xgmii.paid lane4 dic) ∧
      (t.next i).axis2xgmii.symbols ++ pend' = pend ++ idles 8 := by
  obtain ⟨quiet, drains⟩ := between
  obtain ⟨later, rfl, drains₁⟩ := drains t.paddingCtrl.mAxis quiet.tvalid
  exact ⟨later ++ idles 8, ⟨quiet.idle none, drains₁.idle⟩, (List.append_assoc _ _ _).symm⟩

/-- The last beat has been presented: two or three clocks later the next frame can come. -/
theorem closing_leg {t : Tx} {is : List Axis} {lane4 : Bool} {dic : BitVec 2} {taken held : List Byte} {k : ℕ}
    {y : BitVec 64} {rest : List (Option Beat)} (closing : t.paddingCtrl.Closing k y (quick lane4 k dic))
    (sending : t.axis2xgmii.Sending lane4 dic taken held) (pos : 0 < k) (le : k ≤ 8) (offers : t.transfers is = rest)
    (more : rest ≠ []) :
    ∃ t' is' now pend, is = now ++ is' ∧ runs next t now = t' ∧ t'.transfers is' = rest ∧
      t'.Between pend (Axis2xgmii.nextLane4 (Axis2xgmii.tLane lane4 k) dic)
        (Axis2xgmii.nextDic (Axis2xgmii.tLane lane4 k) dic) ∧
      t.emitted now ++ pend =
        (held ++ (bytes 8 y).take k ++ fcs (taken ++ (bytes 8 y).take k)).map .data ++
          .control charT :: idles (Axis2xgmii.gapIdles (Axis2xgmii.tLane lane4 k) dic) := by
  obtain ⟨i, is, rfl, later⟩ := wait_one closing.tready offers more
  have presents := closing.presents
  have tdata : t.paddingCtrl.mAxis.tdata = y := by rw [presents]
  obtain ⟨left, ended, word⟩ := sending.last (i := t.paddingCtrl.mAxis) (k := k) (by rw [presents]) (by rw [presents])
    (by rw [presents]) pos le
  have drains := ended.drains pos le
  rw [tdata] at word drains
  have out (tail : List Symbol) : (t.next i).axis2xgmii.symbols ++
      ((left ++ fcs (taken ++ (bytes 8 y).take k)).map .data ++ tail) =
        (held ++ (bytes 8 y).take k ++ fcs (taken ++ (bytes 8 y).take k)).map .data ++ tail := by
    have all : (held ++ (bytes 8 y).take k ++ fcs (taken ++ (bytes 8 y).take k)).map Symbol.data =
        (t.next i).axis2xgmii.symbols ++ left.map .data ++ (fcs (taken ++ (bytes 8 y).take k)).map .data := by
      rw [List.map_append, ← word]
      rfl
    rw [all, List.map_append]
    simp only [List.append_assoc]
  cases two : quick lane4 k dic with
  | true =>
    rw [two] at closing drains
    refine ⟨t.next i, is, [i], _, rfl, rfl, later, ⟨closing.two, drains⟩, ?_⟩
    have first : t.emitted [i] = (t.next i).axis2xgmii.symbols := List.append_nil _
    rw [first, out]
  | false =>
    rw [two] at closing drains
    obtain ⟨busy, none, -⟩ := closing.three (i := i) (j := i) (f := t.feedback) (g := t.feedback)
    obtain ⟨j, is, rfl, later₂⟩ := wait_one (t := t.next i) busy later more
    obtain ⟨-, -, quiet⟩ := closing.three (i := i) (j := j) (f := t.feedback) (g := (t.next i).feedback)
    obtain ⟨pend, split, drains₂⟩ := drains (t.next i).paddingCtrl.mAxis none
    refine ⟨(t.next i).next j, is, [i, j], pend, rfl, rfl, later₂, ⟨quiet, drains₂⟩, ?_⟩
    have first : t.emitted [i, j] = (t.next i).axis2xgmii.symbols ++ ((t.next i).next j).axis2xgmii.symbols := by
      exact congrArg _ (List.append_nil _)
    rw [first, List.append_assoc, ← out, split]
    rfl

/-- What is held goes out first. -/
theorem handed_on {start word out out' tail : List Symbol} {held held' a b c : List Byte}
    (first : out ++ held.map .data = start ++ a.map .data) (second : word ++ held'.map .data = (held ++ b).map .data)
    (third : out' = (held' ++ c).map .data ++ tail) :
    out ++ (word ++ out') = start ++ (a ++ (b ++ c)).map .data ++ tail := by
  calc
    out ++ (word ++ out') = out ++ (word ++ held'.map .data) ++ (c.map .data ++ tail) := by
      rw [third]
      simp only [List.map_append, List.append_assoc]
    _ = (out ++ held.map .data) ++ (b.map .data ++ (c.map .data ++ tail)) := by
      rw [second]
      simp only [List.map_append, List.append_assoc]
    _ = start ++ (a ++ (b ++ c)).map .data ++ tail := by
      rw [first]
      simp only [List.map_append, List.append_assoc]

/-- **A frame goes through**, padded and framed, and leaves the modules ready for the next one. -/
theorem Between.frame {t : Tx} {pend : List Symbol} {lane4 : Bool} {dic : BitVec 2} (between : t.Between pend lane4 dic)
    {is : List Axis} {p : Packet} {rest : List (Option Beat)} (offers : t.transfers is = p.beats.map some ++ rest)
    (more : rest ≠ []) :
    ∃ t' is' now pend', is = now ++ is' ∧ runs next t now = t' ∧ t'.transfers is' = rest ∧
      t'.Between pend' (Axis2xgmii.nextLane4 (Axis2xgmii.tLane lane4 p.frame.length) dic)
        (Axis2xgmii.nextDic (Axis2xgmii.tLane lane4 p.frame.length) dic) ∧
      t.emitted now ++ pend' =
        pend ++ (Axis2xgmii.lead lane4 ++ framed (p.frame ++ fcs p.frame) ++
          idles (Axis2xgmii.gapIdles (Axis2xgmii.tLane lane4 p.frame.length) dic)) := by
  obtain ⟨quiet, drains⟩ := between
  obtain ⟨i, j, xs, x, y, t₁, is₁, none_i, none_j, ⟨now, rfl, run, shown⟩, offers₁, words, padding, shows⟩ :=
    words_leg quiet offers more
  -- two idle cycles bring the module behind to where it is ready
  obtain ⟨pend₁, rfl, drains₁⟩ := drains i none_i
  obtain ⟨rfl, ready⟩ := drains₁.ready none_j
  have sent : (xs ++ [x]) ++ [y] = p.sent := by rw [← words, List.append_assoc]; rfl
  have size : xs.length + 2 = p.sent.length := by rw [← words, List.length_append]; rfl
  have eight : 8 ≤ p.sent.length := by
    rw [Packet.length_sent]
    exact Nat.le_max_right _ _
  have several : 2 ≤ xs.length := by omega
  obtain ⟨held, sending, out⟩ := sends ready several
  have mac : t₁.axis2xgmii = runs Axis2xgmii.next ((t.axis2xgmii.next i).next j) (xs.map full) := by
    rw [← run, axis2xgmii_runs, shown]
    rfl
  rw [← mac] at sending
  -- the last but one is taken while the wait is decided
  obtain ⟨l, is₂, rfl, offers₂⟩ := wait_one padding.tready offers₁ more
  have closing : (t₁.next l).paddingCtrl.Closing p.lastCount y (quick lane4 p.lastCount dic) := by
    have pos := p.pos
    have le := p.le
    have done := padding.done (i := l) (f := t₁.feedback) (Nat.le_max_right _ _) (by split <;> omega)
      (by split <;> omega)
    have fed : t₁.feedback.lane4Start = lane4 ∧ t₁.feedback.dic = dic := ⟨sending.start, sending.dic⟩
    rw [fed.1, fed.2] at done
    exact done
  obtain ⟨held', sending', word⟩ := sending.beat (i := t₁.paddingCtrl.mAxis) (by rw [shows]; rfl) (by rw [shows]; rfl)
  obtain ⟨t', is', now', pend', rfl, run', offers', between, out'⟩ :=
    closing_leg closing sending' p.lastCount_pos p.lastCount_le offers₂ more
  have taken : xs.flatMap (bytes 8) ++ bytes 8 t₁.paddingCtrl.mAxis.tdata = (xs ++ [x]).flatMap (bytes 8) := by
    rw [shows, List.flatMap_append, List.flatMap_singleton]
    rfl
  have lane : Axis2xgmii.tLane lane4 p.lastCount = Axis2xgmii.tLane lane4 p.frame.length := by
    rw [Axis2xgmii.tLane, Axis2xgmii.tLane, Packet.length_frame]
    omega
  rw [taken, Packet.frame_eq sent, lane] at out'
  rw [lane] at between
  refine ⟨t', is', now ++ l :: now', pend', ?_, ?_, offers', between, ?_⟩
  · rw [List.append_assoc, List.cons_append]
  · rw [runs_append, run, runs_cons]
    exact run'
  · have first : t.emitted now = (t.axis2xgmii.next i).symbols ++ ((t.axis2xgmii.next i).next j).symbols ++
        ((t.axis2xgmii.next i).next j).emitted (xs.map full) := by
      rw [emitted_eq, shown, List.append_assoc]
      rfl
    have parts : t.emitted (now ++ l :: now') =
        t.emitted now ++ ((t₁.next l).axis2xgmii.symbols ++ (t₁.next l).emitted now') := by
      rw [emitted, outputs_append, run]
      rfl
    have body : xs.flatMap (bytes 8) ++
        (bytes 8 t₁.paddingCtrl.mAxis.tdata ++ ((bytes 8 y).take p.lastCount ++ fcs p.frame)) =
          p.frame ++ fcs p.frame := by
      rw [← List.append_assoc, ← List.append_assoc, taken, Packet.frame_eq sent]
    have all := handed_on out word (out'.trans (by rw [List.append_assoc]))
    rw [body] at all
    rw [parts, first, List.append_assoc, List.append_assoc, List.append_assoc (t₁.next l).axis2xgmii.symbols]
    refine congrArg (fun later => _ ++ later) (all.trans ?_)
    rw [framed]
    simp only [List.append_assoc, List.cons_append, List.nil_append]

end Tx

end Zcu102.Nfmac
