import Mathlib.Logic.Function.Basic
import Zcu102.Boot.Reads

/-!
# What the copy stores

Only the inner loop of `copy` stores outside the device registers. `stores`
extracts the payload bytes from a log; the sector loop stores the received data
in order from its pointer (`takes_copySectors`), and every other function of
the loader logs device effects only (`Device`).
-/

namespace Zcu102.Boot
set_option autoImplicit false
open Sim Sim.Prog

/-! ## Device effects -/

/-- The registers of a controller: 4 KiB from its base. -/
def InDevice (base a : ℕ) : Prop := base ≤ a ∧ a < base + 0x1000

/-- A register of the SPI or the UART controller. -/
def DeviceAddr (a : ℕ) : Prop := InDevice spiCtrlAddr a ∨ InDevice uartCtrlAddr a

/-- The addresses an effect writes. -/
def Event.Writes (a : ℕ) : Event → Prop
  | .store32 p _ => p ≤ a ∧ a < p + 4
  | .store8 p _ => a = p
  | .rx _ => False
  | .putc _ => reg32 uartCtrlAddr uartRegTxfifo ≤ a ∧ a < reg32 uartCtrlAddr uartRegTxfifo + 4
  | .fenceI => False

/-- The effect stores no payload byte and writes only device registers. -/
def Device (e : Event) : Prop := (∀ p v, e ≠ .store8 p v) ∧ ∀ a, e.Writes a → DeviceAddr a

theorem device_store {p i : ℕ} (v : BitVec 32)
    (h : ∀ a, reg32 p i ≤ a → a < reg32 p i + 4 → DeviceAddr a) : Emits (storeReg32 p i v) Device :=
  emits_emit ⟨fun _ _ => Event.noConfusion, fun a ha => h a ha.1 ha.2⟩

theorem device_spi {i : ℕ} (h : i < 0x1000) (v : BitVec 32) : Emits (storeReg32 spiCtrlAddr i v) Device := by
  apply device_store
  intro a lo hi
  left
  simp only [InDevice, reg32, Nat.shiftRight_eq_div_pow] at *
  omega

theorem device_uart {i : ℕ} (h : i < 0x1000) (v : BitVec 32) : Emits (storeReg32 uartCtrlAddr i v) Device := by
  apply device_store
  intro a lo hi
  right
  simp only [InDevice, reg32, Nat.shiftRight_eq_div_pow] at *
  omega

theorem device_kputc (c : Char) : Emits (kputc c) Device := by
  apply emits_emit
  refine ⟨fun _ _ => Event.noConfusion, ?_⟩
  intro a ha
  right
  simp only [Event.Writes, InDevice, reg32, uartCtrlAddr, uartRegTxfifo, Nat.shiftRight_eq_div_pow] at *
  omega

theorem device_putChars (cs : List Char) : Emits (putChars cs) Device := by
  induction cs with
  | nil => exact emits_pure () Device
  | cons c cs ih => exact (device_kputc c).bind fun _ => ih

theorem device_spiXfer (d : Byte) : Emits (spiXfer d) Device :=
  (device_spi (by decide) _).bind fun _ =>
    emits_read fun _ => ⟨fun _ _ => Event.noConfusion, fun _ => False.elim⟩

theorem device_sdPoll (n : ℕ) : Emits (sdPoll n) Device := by
  induction n with
  | zero =>
    refine (device_spiXfer _).bind fun r => ?_
    split
    · exact emits_pure _ _
    · exact (device_putChars _).bind fun _ => emits_pure _ _
  | succ n ih =>
    refine (device_spiXfer _).bind fun r => ?_
    split
    · exact emits_pure _ _
    · exact ih

theorem device_sdFrame (cmd : Byte) (arg : BitVec 32) (crc : Byte) : Emits (sdFrame cmd arg crc) Device :=
  (device_spi (by decide) _).bind fun _ => (device_spiXfer _).bind fun _ => (device_spiXfer _).bind fun _ =>
    (device_spiXfer _).bind fun _ => (device_spiXfer _).bind fun _ => (device_spiXfer _).bind fun _ =>
      (device_spiXfer _).bind fun _ => (device_spiXfer _).bind fun _ => emits_pure _ _

theorem device_sdCmd (cmd : Byte) (arg : BitVec 32) (crc : Byte) : Emits (sdCmd cmd arg crc) Device :=
  (device_sdFrame _ _ _).bind fun _ => device_sdPoll _

theorem device_sdCmdEnd : Emits sdCmdEnd Device :=
  (device_spiXfer _).bind fun _ => device_spi (by decide) _

theorem device_sdDummies (n : ℕ) : Emits (sdDummies n) Device := by
  induction n with
  | zero => exact emits_pure () Device
  | succ n ih => exact (device_spiXfer _).bind fun _ => ih

theorem device_sdPoweron (fClk : ℕ) : Emits (sdPoweron fClk) Device :=
  (device_spi (by decide) _).bind fun _ => (device_spi (by decide) _).bind fun _ =>
    (device_sdDummies _).bind fun _ => device_spi (by decide) _

theorem device_sdCmd0 : Emits sdCmd0 Device :=
  (device_putChars _).bind fun _ => (device_sdCmd _ _ _).bind fun _ =>
    device_sdCmdEnd.bind fun _ => emits_pure _ _

theorem device_sdCmd8 : Emits sdCmd8 Device :=
  (device_putChars _).bind fun _ => (device_sdCmd _ _ _).bind fun _ => (device_spiXfer _).bind fun _ =>
    (device_spiXfer _).bind fun _ => (device_spiXfer _).bind fun _ => (device_spiXfer _).bind fun _ =>
      device_sdCmdEnd.bind fun _ => emits_pure _ _

theorem device_sdAcmd41 : Emits sdAcmd41 Device := by
  have round : Emits sdAcmd41Round Device :=
    ((device_sdCmd _ _ _).bind fun _ => device_sdCmdEnd).bind fun _ => device_sdCmd _ _ _
  exact (device_putChars _).bind fun _ => (round.doWhile _ _).bind fun _ => emits_pure _ _

theorem device_sdCmd58 : Emits sdCmd58 Device :=
  (device_putChars _).bind fun _ => (device_sdCmd _ _ _).bind fun _ => (device_spiXfer _).bind fun _ =>
    (device_spiXfer _).bind fun _ => (device_spiXfer _).bind fun _ => (device_spiXfer _).bind fun _ =>
      device_sdCmdEnd.bind fun _ => emits_pure _ _

theorem device_sdCmd16 : Emits sdCmd16 Device :=
  (device_putChars _).bind fun _ => (device_sdCmd _ _ _).bind fun _ =>
    device_sdCmdEnd.bind fun _ => emits_pure _ _

theorem device_copyStart (fClk : ℕ) : Emits (copyStart fClk) Device :=
  (device_putChars _).bind fun _ => (device_putChars _).bind fun _ => (device_putChars _).bind fun _ =>
    device_spi (by decide) _

theorem device_mainStart (fClk : ℕ) : Emits (mainStart fClk) Device :=
  (device_uart (by decide) _).bind fun _ => (device_putChars _).bind fun _ => device_sdPoweron fClk

theorem device_waitToken : Emits waitToken Device := (device_spiXfer _).doWhile _ _

theorem emits_cOr {a b : Sd (BitVec 32)} {P : Event → Prop} (ha : Emits a P) (hb : Emits b P) :
    Emits (cOr a b) P := by
  refine ha.bind fun x => ?_
  split
  · exact emits_pure _ _
  · exact hb.bind fun _ => emits_pure _ _

/-! ## The window of the copy -/

/-- A device effect, or a payload byte stored in `[lo, hi)`. -/
def Within (lo hi : ℕ) (e : Event) : Prop := Device e ∨ ∃ p v, e = .store8 p v ∧ lo ≤ p ∧ p < hi

theorem Within.mono {lo hi lo' hi' : ℕ} (hlo : lo' ≤ lo) (hhi : hi ≤ hi') {e : Event}
    (h : Within lo hi e) : Within lo' hi' e := by
  rcases h with h | ⟨p, v, rfl, h₁, h₂⟩
  · exact Or.inl h
  · exact Or.inr ⟨p, v, rfl, by omega, by omega⟩

theorem Emits.within {α : Type} {m : Sd α} (h : Emits m Device) (lo hi : ℕ) : Emits m (Within lo hi) :=
  h.mono fun _ => Or.inl

theorem within_copyBytes (n p : ℕ) (crc : BitVec 16) : Emits (copyBytes n p crc) (Within p (p + n)) := by
  induction n generalizing p crc with
  | zero => exact emits_pure _ _
  | succ n ih =>
    refine (Emits.within (device_spiXfer _) _ _).bind fun x => ?_
    have here : Within p (p + (n + 1)) (.store8 p x) := Or.inr ⟨p, x, rfl, by omega, by omega⟩
    refine (emits_emit here).bind fun _ => ?_
    exact (ih (p + 1) _).mono fun e => Within.mono (by omega) (by omega)

theorem within_copySector (p : ℕ) : Emits (copySector p) (Within p (p + sectorSizeB)) :=
  (Emits.within device_waitToken _ _).bind fun _ => (within_copyBytes _ _ _).bind fun _ =>
    (Emits.within (device_spiXfer _) _ _).bind fun _ => (Emits.within (device_spiXfer _) _ _).bind fun _ =>
      emits_pure _ _

/-! ## The bytes stored -/

/-- The payload bytes a log stores, in order. -/
def stores (l : List Event) : List (ℕ × Byte) :=
  l.filterMap fun e => match e with
    | .store8 a v => some (a, v)
    | _ => none

/-- Stores of consecutive bytes from `p`. -/
def storesAt : ℕ → List Byte → List (ℕ × Byte)
  | _, [] => []
  | p, b :: bs => (p, b) :: storesAt (p + 1) bs

@[simp] theorem stores_append (l l' : List Event) : stores (l ++ l') = stores l ++ stores l' :=
  List.filterMap_append

theorem storesAt_append (p : ℕ) (bs bs' : List Byte) :
    storesAt p (bs ++ bs') = storesAt p bs ++ storesAt (p + bs.length) bs' := by
  induction bs generalizing p with
  | nil => rfl
  | cons b bs ih =>
    simp only [List.cons_append, storesAt, ih, List.length_cons]
    rw [show p + 1 + bs.length = p + (bs.length + 1) by omega]

theorem stores_device {l : List Event} (h : ∀ e ∈ l, Device e) : stores l = [] := by
  apply List.filterMap_eq_nil_iff.2
  intro e member
  have other := (h e member).1
  cases e with
  | store8 p v => exact absurd rfl (other p v)
  | _ => rfl

/-- A program of device effects stores no payload byte. -/
theorem Emits.no_stores {α : Type} {m : Sd α} (h : Emits m Device) {w : List Byte} {a : α}
    {l : List Event} (taken : Takes m w a l) : stores l = [] := stores_device (h.takes taken)

/-- The inner loop reads `n` bytes, stores them from `p` and folds their CRC. -/
theorem takes_copyBytes {n p : ℕ} {crc crc' : BitVec 16} {p' : ℕ} {w : List Byte} {l : List Event}
    (h : Takes (copyBytes n p crc) w (p', crc') l) :
    w.length = n ∧ p' = p + n ∧ crc' = w.foldl crc16Round crc ∧ stores l = storesAt p w := by
  induction n generalizing p crc w l with
  | zero =>
    obtain ⟨rfl, same, rfl⟩ := takes_pure.1 h
    obtain ⟨rfl, rfl⟩ := Prod.mk.inj same
    exact ⟨rfl, rfl, rfl, rfl⟩
  | succ n ih =>
    obtain ⟨w₁, w₂, x, l₁, l₂, rfl, rfl, first, rest⟩ := takes_bind.1 h
    obtain ⟨w₃, w₄, _, l₃, l₄, rfl, rfl, store, loop⟩ := takes_bind.1 rest
    obtain ⟨rfl, rfl⟩ := takes_emit.1 store
    obtain rfl : w₁ = [x] := reads_sdDummy.1 ⟨l₁, first⟩
    obtain ⟨len, pointer, sum, stored⟩ := ih loop
    refine ⟨by simp [len], by omega, by simpa using sum, ?_⟩
    rw [stores_append, stores_append, Emits.no_stores (device_spiXfer _) first, stored]
    rfl

theorem reads_copyBytes (w : List Byte) (p : ℕ) (crc : BitVec 16) :
    Reads (copyBytes w.length p crc) w (p + w.length, w.foldl crc16Round crc) := by
  induction w generalizing p crc with
  | nil => exact reads_pure.2 ⟨rfl, rfl⟩
  | cons x w ih =>
    refine reads_bind.2 ⟨[x], w, x, rfl, reads_sdDummy.2 rfl, ?_⟩
    refine reads_bind.2 ⟨[], w, (), rfl, reads_emit.2 rfl, ?_⟩
    have := ih (p + 1) (crc16Round crc x)
    rwa [show p + 1 + w.length = p + (x :: w).length by simp; omega] at this

theorem reads_waitToken {w : List Byte} {b : Byte} :
    Reads waitToken w b ↔ ∃ filler, w = filler ++ [0xFE] ∧ 0xFE ∉ filler ∧ b = 0xFE := by
  constructor
  · rintro ⟨l, taken⟩
    have rounds := (takes_doWhile _).1 taken
    clear taken
    induction rounds with
    | @last w b l taken stop =>
      obtain rfl : w = [b] := reads_sdDummy.1 ⟨l, taken⟩
      obtain rfl : b = 0xFE := by simpa using stop
      exact ⟨[], rfl, List.not_mem_nil, rfl⟩
    | @more w b l w' b' l' taken go _ ih =>
      obtain rfl : w = [b] := reads_sdDummy.1 ⟨l, taken⟩
      obtain ⟨filler, rfl, absent, token⟩ := ih
      have other : b ≠ 0xFE := by simpa using go
      refine ⟨b :: filler, rfl, ?_, token⟩
      intro member
      rcases List.mem_cons.1 member with same | member
      · exact other same.symm
      · exact absent member
  · rintro ⟨filler, rfl, absent, rfl⟩
    induction filler with
    | nil =>
      obtain ⟨l, taken⟩ := reads_sdDummy.2 (rfl : [(0xFE : Byte)] = [0xFE])
      exact ⟨l, (Rounds.last taken (by simp)).takes _⟩
    | cons b filler ih =>
      obtain ⟨l, taken⟩ := reads_sdDummy.2 (rfl : [b] = [b])
      obtain ⟨l', rest⟩ := ih fun member => absent (List.mem_cons_of_mem b member)
      have other : b ≠ 0xFE := fun same => absent (by simp [same])
      exact ⟨l ++ l', (Rounds.more taken (by simpa using other) ((takes_doWhile _).1 rest)).takes _⟩

theorem crc_bytes (hi lo : Byte) : (hi.setWidth 16 <<< 8) ||| lo.setWidth 16 = hi ++ lo := by
  apply BitVec.eq_of_getLsbD_eq
  intro i bound
  rw [BitVec.getLsbD_append]
  by_cases low : i < 8
  · simp [low, bound]
  · have past : lo.getLsbD i = false := BitVec.getLsbD_of_ge _ _ (by omega)
    simp [low, bound, past]

/-- One pass of the sector loop reads a block, stores its data from `p` and
compares the CRCs. -/
theorem takes_copySector {p p' : ℕ} {mismatch : Bool} {w : List Byte} {l : List Event}
    (h : Takes (copySector p) w (p', mismatch) l) :
    ∃ data crc, Sector w data crc ∧ p' = p + sectorSizeB ∧ mismatch = (crc16 data != crc) ∧
      stores l = storesAt p data := by
  obtain ⟨w₁, w₂, _, l₁, l₂, rfl, rfl, token, h⟩ := takes_bind.1 h
  obtain ⟨data, w₃, ⟨q, crc⟩, l₃, l₄, rfl, rfl, bytes, h⟩ := takes_bind.1 h
  obtain ⟨w₅, w₆, hi, l₅, l₆, rfl, rfl, first, h⟩ := takes_bind.1 h
  obtain ⟨w₇, w₈, lo, l₇, l₈, rfl, rfl, second, h⟩ := takes_bind.1 h
  obtain ⟨rfl, same, rfl⟩ := takes_pure.1 h
  obtain ⟨rfl, rfl⟩ := Prod.mk.inj same
  obtain ⟨filler, rfl, absent, -⟩ := reads_waitToken.1 ⟨l₁, token⟩
  obtain rfl : w₅ = [hi] := reads_sdDummy.1 ⟨l₅, first⟩
  obtain rfl : w₇ = [lo] := reads_sdDummy.1 ⟨l₇, second⟩
  obtain ⟨len, pointer, sum, stored⟩ := takes_copyBytes bytes
  refine ⟨data, hi ++ lo, ⟨filler, hi, lo, by simp, absent, len, rfl⟩, pointer, ?_, ?_⟩
  · rw [sum, foldl_crc16Round, crc_bytes]
  · simp only [stores_append, stored, Emits.no_stores device_waitToken token,
      Emits.no_stores (device_spiXfer _) first, Emits.no_stores (device_spiXfer _) second]
    simp [stores]

theorem Sector.reads {w data : List Byte} {crc : BitVec 16} (h : Sector w data crc) (p : ℕ) :
    Reads (copySector p) w (p + sectorSizeB, crc16 data != crc) := by
  obtain ⟨filler, hi, lo, rfl, absent, len, rfl⟩ := h
  rw [show filler ++ 0xFE :: (data ++ [hi, lo]) = (filler ++ [0xFE]) ++ (data ++ [hi, lo]) by simp]
  refine reads_bind.2 ⟨_, _, 0xFE, rfl, reads_waitToken.2 ⟨filler, rfl, absent, rfl⟩, ?_⟩
  refine reads_bind.2 ⟨data, [hi, lo], (p + sectorSizeB, crc16 data), rfl, ?_, ?_⟩
  · have bytes := reads_copyBytes data p 0
    rwa [len, foldl_crc16Round] at bytes
  · refine reads_bind.2 ⟨[hi], [lo], hi, rfl, reads_sdDummy.2 rfl, ?_⟩
    refine reads_bind.2 ⟨[lo], [], lo, rfl, reads_sdDummy.2 rfl, ?_⟩
    rw [crc_bytes]
    exact reads_pure.2 ⟨rfl, rfl⟩

/-! ## The sector loop -/

theorem Sectors.flatten_length {w : List Byte} {blocks : List (List Byte)} (h : Sectors w blocks) :
    blocks.flatten.length = sectorSizeB * blocks.length := by
  induction h with
  | nil => rfl
  | cons sector _ ih =>
    obtain ⟨_, _, _, _, _, len, _⟩ := sector
    rw [List.flatten_cons, List.length_append, List.length_cons, ih, len, Nat.mul_succ]
    omega

theorem device_spin (i : ℕ) : Emits (spin i) Device := by
  unfold spin
  split
  · exact (device_kputc _).bind fun _ => device_kputc _
  · exact emits_pure _ _

theorem reads_spin (i : ℕ) : Reads (spin i) [] () := by
  unfold spin
  split
  · exact reads_bind.2 ⟨[], [], (), rfl, reads_emit.2 rfl, reads_emit.2 rfl⟩
  · exact reads_pure.2 ⟨rfl, rfl⟩

theorem spin_reads_nil {i : ℕ} {w : List Byte} {l : List Event} (h : Takes (spin i) w () l) : w = [] := by
  obtain ⟨l', taken⟩ := reads_spin i
  have same : w ++ [] = [] ++ w := by simp
  exact (h.unique taken same).1

theorem within_copySectors (n p : ℕ) : Emits (copySectors n p) (Within p (p + sectorSizeB * n)) := by
  induction n generalizing p with
  | zero => exact emits_pure _ _
  | succ n ih =>
    have size : p + sectorSizeB * (n + 1) = p + sectorSizeB + sectorSizeB * n := by
      rw [Nat.mul_succ]
      omega
    rw [size]
    have sector : Emits (copySector p) (Within p (p + sectorSizeB + sectorSizeB * n)) :=
      (within_copySector p).mono fun e => Within.mono (Nat.le_refl p) (Nat.le_add_right _ _)
    refine sector.bind_takes fun w a l taken => ?_
    obtain ⟨p', mismatch⟩ := a
    obtain ⟨-, -, -, rfl, -, -⟩ := takes_copySector taken
    cases mismatch with
    | true => exact (Emits.within (device_putChars _) _ _).bind fun _ => emits_pure _ _
    | false =>
      refine (Emits.within (device_spin (n + 1)) _ _).bind fun _ => ?_
      exact (ih (p + sectorSizeB)).mono fun e => Within.mono (by omega) (by omega)

/-- The two ways `n` sectors end, with the bytes stored: every block matches, or
the first that does not is stored too and nothing after it. -/
inductive Copied (n : ℕ) : List Byte → BitVec 32 → List Byte → Prop
  | whole {v : List Byte} {blocks : List (List Byte)} :
      Sectors v blocks → blocks.length = n → Copied n v 0 blocks.flatten
  | broken {u v data : List Byte} {blocks : List (List Byte)} {crc : BitVec 16} :
      Sectors u blocks → blocks.length < n → Sector v data crc → crc ≠ crc16 data →
      Copied n (u ++ v) 1 (blocks.flatten ++ data)

theorem Copied.cons {n : ℕ} {w v data bytes : List Byte} {rc : BitVec 32} (sector : Sector w data (crc16 data))
    (h : Copied n v rc bytes) : Copied (n + 1) (w ++ v) rc (data ++ bytes) := by
  cases h with
  | whole sectors count => exact Copied.whole (Sectors.cons sector sectors) (by simp [count])
  | @broken u v data' blocks crc sectors count bad differ =>
    rw [← List.append_assoc, ← List.append_assoc]
    exact Copied.broken (Sectors.cons sector sectors) (by simpa using count) bad differ

/-- **The sector loop** stores the received data in order from `p`. -/
theorem takes_copySectors {n p : ℕ} {rc : BitVec 32} {w : List Byte} {l : List Event}
    (h : Takes (copySectors n p) w rc l) : ∃ bytes, Copied n w rc bytes ∧ stores l = storesAt p bytes := by
  induction n generalizing p w l with
  | zero =>
    obtain ⟨rfl, rfl, rfl⟩ := takes_pure.1 h
    exact ⟨[], Copied.whole Sectors.nil rfl, rfl⟩
  | succ n ih =>
    obtain ⟨w₁, w₂, ⟨p', mismatch⟩, l₁, l₂, rfl, rfl, first, rest⟩ := takes_bind.1 h
    obtain ⟨data, crc, sector, rfl, compare, stored⟩ := takes_copySector first
    cases mismatch with
    | true =>
      have differ : crc16 data ≠ crc := by simpa using compare.symm
      obtain ⟨w₃, w₄, _, l₃, l₄, rfl, rfl, message, last⟩ := takes_bind.1 rest
      obtain ⟨rfl, rfl, rfl⟩ := takes_pure.1 last
      obtain rfl : w₃ = [] := reads_kputs.1 ⟨l₃, message⟩
      have quiet := Emits.no_stores (device_putChars _) message
      have ends : Copied (n + 1) ([] ++ w₁) 1 ([] ++ data) :=
        Copied.broken Sectors.nil (Nat.succ_pos n) sector differ.symm
      refine ⟨data, by simpa using ends, ?_⟩
      rw [stores_append, stores_append, stored, quiet]
      simp [stores]
    | false =>
      obtain rfl : crc16 data = crc := by simpa using compare.symm
      obtain ⟨w₃, w₄, _, l₃, l₄, rfl, rfl, turn, loop⟩ := takes_bind.1 rest
      obtain rfl : w₃ = [] := spin_reads_nil turn
      have quiet := Emits.no_stores (device_spin (n + 1)) turn
      obtain ⟨bytes, copied, more⟩ := ih loop
      refine ⟨data ++ bytes, copied.cons sector, ?_⟩
      obtain ⟨-, -, -, -, -, len, -⟩ := sector
      rw [stores_append, stores_append, stored, quiet, more, storesAt_append, len]
      rfl

/-- Blocks that match are copied through. -/
theorem Sectors.reads_append {u v : List Byte} {blocks : List (List Byte)} (h : Sectors u blocks) {n : ℕ}
    {rc : BitVec 32} (rest : ∀ p, Reads (copySectors n p) v rc) (p : ℕ) :
    Reads (copySectors (blocks.length + n) p) (u ++ v) rc := by
  induction h generalizing p with
  | nil => simpa using rest p
  | @cons w data w' blocks sector _ ih =>
    rw [List.length_cons, show blocks.length + 1 + n = blocks.length + n + 1 by omega, List.append_assoc]
    refine reads_bind.2 ⟨w, w' ++ v, (p + sectorSizeB, false), rfl, ?_, ?_⟩
    · have := sector.reads p
      rwa [bne_self_eq_false] at this
    · exact reads_bind.2 ⟨[], w' ++ v, (), rfl, reads_spin _, ih (p + sectorSizeB)⟩

theorem Sectors.reads {w : List Byte} {blocks : List (List Byte)} (h : Sectors w blocks) (p : ℕ) :
    Reads (copySectors blocks.length p) w 0 := by
  have := h.reads_append (n := 0) (v := []) (fun p => reads_pure.2 ⟨rfl, rfl⟩) p
  simpa using this

/-- A block that does not match ends the loop. -/
theorem Sector.reads_mismatch {w data : List Byte} {crc : BitVec 16} (h : Sector w data crc)
    (differ : crc ≠ crc16 data) (n p : ℕ) : Reads (copySectors (n + 1) p) w 1 := by
  refine reads_bind.2 ⟨w, [], (p + sectorSizeB, true), by simp, ?_, ?_⟩
  · have := h.reads p
    rwa [bne_iff_ne.2 differ.symm] at this
  · exact reads_bind.2 ⟨[], [], (), rfl, reads_kputs.2 rfl, reads_pure.2 ⟨rfl, rfl⟩⟩

theorem Copied.reads {n : ℕ} {v bytes : List Byte} {rc : BitVec 32} (h : Copied n v rc bytes) (p : ℕ) :
    Reads (copySectors n p) v rc := by
  cases h with
  | whole sectors count => exact count ▸ sectors.reads p
  | @broken u v data blocks crc sectors count bad differ =>
    obtain ⟨k, rfl⟩ : ∃ k, n = blocks.length + (k + 1) := ⟨n - blocks.length - 1, by omega⟩
    exact sectors.reads_append (bad.reads_mismatch differ k) p

/-! ## Memory -/

/-- Memory after the stores of a log. -/
def memAfter (mem : ℕ → Byte) (l : List Event) : ℕ → Byte :=
  (stores l).foldl (fun m s => Function.update m s.1 s.2) mem

theorem foldl_storesAt_of_lt (mem : ℕ → Byte) (p : ℕ) (bs : List Byte) {a : ℕ} (h : a < p) :
    (storesAt p bs).foldl (fun m s => Function.update m s.1 s.2) mem a = mem a := by
  induction bs generalizing mem p with
  | nil => rfl
  | cons b bs ih =>
    simp only [storesAt, List.foldl_cons]
    rw [ih _ (p + 1) (by omega)]
    exact Function.update_of_ne (by omega) _ _

theorem foldl_storesAt (mem : ℕ → Byte) (p : ℕ) (bs : List Byte) {i : ℕ} (h : i < bs.length) :
    (storesAt p bs).foldl (fun m s => Function.update m s.1 s.2) mem (p + i) = bs[i] := by
  induction bs generalizing mem p i with
  | nil => cases h
  | cons b bs ih =>
    simp only [storesAt, List.foldl_cons]
    cases i with
    | zero =>
      rw [foldl_storesAt_of_lt _ _ _ (by omega)]
      exact Function.update_self _ _ _
    | succ i =>
      rw [show p + (i + 1) = p + 1 + i by omega, ih _ _ (by simpa using h), List.getElem_cons_succ]

/-- Consecutive stores are read back. -/
theorem memAfter_storesAt (mem : ℕ → Byte) {l : List Event} {p : ℕ} {bs : List Byte}
    (h : stores l = storesAt p bs) {i : ℕ} (bound : i < bs.length) : memAfter mem l (p + i) = bs[i] := by
  unfold memAfter
  rw [h]
  exact foldl_storesAt mem p bs bound

end Zcu102.Boot
