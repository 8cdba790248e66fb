import Zcu102.Sim.Steps
import Zcu102.Boot.Sd

/-!
# The harts in the boot ROM (`head.S`, `smp.h`)

The instructions of `_prog_start` after the macros are expanded, with
`CLINT1_CTRL_ADDR` undefined, and a machine that interleaves any number of harts
over them. Each event lets one hart execute one instruction; loads and stores of
the CLINT are atomic. `mip.MSIP` of a hart is its own `msip` bit, the other
pending bits are those of the event. `wfi` may always resume, and a hart asleep
is one that is not scheduled. Interrupts are not taken: `mstatus.MIE` is clear
out of reset. `main` is a parameter that tells after how many steps it returns
which value; it does not write the CLINT.
-/

namespace Zcu102.Boot
set_option autoImplicit false
open Sim

abbrev Word := BitVec 64

def clintCtrlAddr : ℕ := 0x2000000
def maxHarts : ℕ := 32
def clintEndHartIpi : ℕ := clintCtrlAddr + maxHarts * 4
def nonsmpHart : Word := 0

/-- The registers the ROM uses. -/
inductive Reg where
  | zero
  | sp
  | a0
  | a1
  | s1
  | s2
  deriving DecidableEq, Repr

/-- The instructions of `head.S`. Branch targets are instruction indices. -/
inductive Instr where
  | li (rd : Reg) (imm : Word)
  | la (rd : Reg) (addr : Word)
  | csrwMie (rs : Reg)
  | csrrMhartid (rd : Reg)
  | csrrMip (rd : Reg)
  | bne (rs1 rs2 : Reg) (target : ℕ)
  | blt (rs1 rs2 : Reg) (target : ℕ)
  | beqz (rs : Reg) (target : ℕ)
  | bnez (rs : Reg) (target : ℕ)
  | addi (rd rs : Reg) (imm : Word)
  | andi (rd rs : Reg) (imm : Word)
  | slli (rd rs : Reg) (shamt : ℕ)
  | add (rd rs1 rs2 : Reg)
  | sw (rs2 : Reg) (offset : Word) (rs1 : Reg)
  | lw (rd : Reg) (offset : Word) (rs1 : Reg)
  | wfi
  | callMain
  | jr (rs : Reg)
  deriving DecidableEq, Repr

/-- `smp_pause`, with the index of the label `42` it jumps to. -/
def smpPause (reg1 reg2 : Reg) (label42 : ℕ) : List Instr :=
  [.li reg2 0x8,
   .csrwMie reg2,
   .li reg1 nonsmpHart,
   .csrrMhartid reg2,
   .bne reg1 reg2 label42]

/-- `smp_resume` at index `start`. Its labels are `41` at 1, `42` at 6 and `41` again at 15. -/
def smpResume (reg1 reg2 : Reg) (start : ℕ) : List Instr :=
  [.li reg1 (BitVec.ofNat 64 clintCtrlAddr),
   .li reg2 1,
   .sw reg2 0 reg1,
   .addi reg1 reg1 4,
   .li reg2 (BitVec.ofNat 64 clintEndHartIpi),
   .blt reg1 reg2 (start + 1),
   .wfi,
   .csrrMip reg2,
   .andi reg2 reg2 0x8,
   .beqz reg2 (start + 6),
   .li reg1 (BitVec.ofNat 64 clintCtrlAddr),
   .csrrMhartid reg2,
   .slli reg2 reg2 2,
   .add reg2 reg2 reg1,
   .sw .zero 0 reg2,
   .lw reg2 0 reg1,
   .bnez reg2 (start + 15),
   .addi reg1 reg1 4,
   .li reg2 (BitVec.ofNat 64 clintEndHartIpi),
   .blt reg1 reg2 (start + 15)]

/-- What the ROM is linked with: when `main` returns what, and the address of the device tree. -/
structure Rom where
  mainAt : ℕ → Option Word
  dtb : Word

/-- `_prog_start`. -/
def progStart (rom : Rom) : List Instr :=
  smpPause .s1 .s2 13 ++
  [.li .sp (BitVec.ofNat 64 (payloadDest + 0xffff000)),
   .callMain] ++
  smpResume .s1 .s2 7 ++
  [.csrrMhartid .a0,
   .la .a1 rom.dtb,
   .li .s1 (BitVec.ofNat 64 payloadDest),
   .jr .s1]

/-- The first instruction after `smp_resume`. -/
def resumedPc : ℕ := 27

/-- The jump to the payload. -/
def jumpPc : ℕ := 30

/-! ## The machine -/

/-- A hart; `inMain` counts the steps it has spent in `main`. -/
structure Hart where
  pc : ℕ
  reg : Reg → Word
  mie : Word
  inMain : ℕ

namespace Hart

def get (h : Hart) (r : Reg) : Word := if r = .zero then 0 else h.reg r

def set (h : Hart) (r : Reg) (v : Word) : Hart := { h with reg := fun q => if q = r then v else h.reg q }

def goto (h : Hart) (target : ℕ) : Hart := { h with pc := target }

def next (h : Hart) : Hart := h.goto (h.pc + 1)

@[simp] theorem get_of_ne {h : Hart} {r : Reg} (ne : r ≠ .zero) : h.get r = h.reg r := if_neg ne

@[simp] theorem set_pc (h : Hart) (r : Reg) (v : Word) : (h.set r v).pc = h.pc := rfl

@[simp] theorem set_reg (h : Hart) (r q : Reg) (v : Word) :
    (h.set r v).reg q = if q = r then v else h.reg q := rfl

@[simp] theorem goto_pc (h : Hart) (target : ℕ) : (h.goto target).pc = target := rfl

@[simp] theorem goto_reg (h : Hart) (target : ℕ) : (h.goto target).reg = h.reg := rfl

@[simp] theorem next_pc (h : Hart) : h.next.pc = h.pc + 1 := rfl

@[simp] theorem next_reg (h : Hart) : h.next.reg = h.reg := rfl

end Hart

/-- What a hart did that others or an observer can see. -/
inductive Access where
  | returned (hart : ℕ) (v : Word)
  | readMip (hart : ℕ) (v : Word)
  | store (hart : ℕ) (addr : Word) (v : BitVec 32)
  | load (hart : ℕ) (addr : Word) (v : BitVec 32)
  | jump (hart : ℕ) (target : Word)
  deriving DecidableEq, Repr

/-- The outcome of one instruction of a hart. -/
structure Outcome where
  hart : Hart
  store : Option (Word × BitVec 32) := none
  note : List Access := []

/-- One instruction of hart `i`, given its `mip` and what the CLINT reads. -/
def exec (rom : Rom) (i : ℕ) (mip : Word) (clint : Word → BitVec 32) (h : Hart) : Instr → Outcome
  | .li rd imm => { hart := (h.set rd imm).next }
  | .la rd addr => { hart := (h.set rd addr).next }
  | .csrwMie rs => { hart := { h with mie := h.get rs }.next }
  | .csrrMhartid rd => { hart := (h.set rd (BitVec.ofNat 64 i)).next }
  | .csrrMip rd => { hart := (h.set rd mip).next, note := [.readMip i mip] }
  | .bne rs1 rs2 target => { hart := if h.get rs1 ≠ h.get rs2 then h.goto target else h.next }
  | .blt rs1 rs2 target => { hart := if (h.get rs1).slt (h.get rs2) then h.goto target else h.next }
  | .beqz rs target => { hart := if h.get rs = 0 then h.goto target else h.next }
  | .bnez rs target => { hart := if h.get rs ≠ 0 then h.goto target else h.next }
  | .addi rd rs imm => { hart := (h.set rd (h.get rs + imm)).next }
  | .andi rd rs imm => { hart := (h.set rd (h.get rs &&& imm)).next }
  | .slli rd rs shamt => { hart := (h.set rd (h.get rs <<< shamt)).next }
  | .add rd rs1 rs2 => { hart := (h.set rd (h.get rs1 + h.get rs2)).next }
  | .sw rs2 offset rs1 =>
    let addr := h.get rs1 + offset
    let v := (h.get rs2).setWidth 32
    { hart := h.next, store := some (addr, v), note := [.store i addr v] }
  | .lw rd offset rs1 =>
    let addr := h.get rs1 + offset
    { hart := (h.set rd ((clint addr).signExtend 64)).next, note := [.load i addr (clint addr)] }
  | .wfi => { hart := h.next }
  | .callMain =>
    match rom.mainAt h.inMain with
    | none => { hart := { h with inMain := h.inMain + 1 } }
    | some v => { hart := (h.set .a0 v).next, note := [.returned i v] }
  | .jr rs => { hart := h.goto (progStart rom).length, note := [.jump i (h.get rs)] }

/-- The `msip` register of hart `k`. -/
def slot (k : ℕ) : Word := BitVec.ofNat 64 (clintCtrlAddr + 4 * k)

/-- Harts `0 .. n`, their `msip` bits, and the accesses so far. -/
structure Sys (n : ℕ) where
  hart : Fin (n + 1) → Hart
  msip : Fin (n + 1) → Bool
  log : List Access

/-- The hart that executes its next instruction, and what else is pending in its `mip`. -/
structure Act (n : ℕ) where
  hart : Fin (n + 1)
  pending : Word

variable {n : ℕ}

/-- Bit 3 of `mip` is the hart's own `msip`. -/
def mipOf (pending : Word) (msip : Bool) : Word := (pending &&& ~~~0x8) ||| if msip then 0x8 else 0

/-- An `msip` register holds one bit; those of absent harts read 0. -/
def clintLoad (msip : Fin (n + 1) → Bool) (addr : Word) : BitVec 32 :=
  if ∃ j : Fin (n + 1), addr = slot j ∧ msip j = true then 1 else 0

def clintStore (msip : Fin (n + 1) → Bool) (addr : Word) (v : BitVec 32) : Fin (n + 1) → Bool :=
  fun j => if addr = slot j then v.getLsbD 0 else msip j

namespace Sys

/-- The machine after an outcome of hart `i`. -/
def after (s : Sys n) (i : Fin (n + 1)) (o : Outcome) : Sys n where
  hart := fun j => if j = i then o.hart else s.hart j
  msip :=
    match o.store with
    | none => s.msip
    | some (addr, v) => clintStore s.msip addr v
  log := s.log ++ o.note

/-- One instruction of one hart. A hart that has jumped has left the ROM. -/
def step (rom : Rom) (s : Sys n) (a : Act n) : Sys n :=
  match (progStart rom)[(s.hart a.hart).pc]? with
  | none => s
  | some ins =>
    s.after a.hart
      (exec rom a.hart (mipOf a.pending (s.msip a.hart)) (clintLoad s.msip) (s.hart a.hart) ins)

/-- All harts at `_prog_start` with arbitrary registers, no `msip` set. -/
def start (reg : Fin (n + 1) → Reg → Word) : Sys n where
  hart := fun i => ⟨0, reg i, 0, 0⟩
  msip := fun _ => false
  log := []

theorem step_fetch {rom : Rom} {s : Sys n} {a : Act n} {ins : Instr}
    (fetch : (progStart rom)[(s.hart a.hart).pc]? = some ins) : s.step rom a = s.after a.hart
      (exec rom a.hart (mipOf a.pending (s.msip a.hart)) (clintLoad s.msip) (s.hart a.hart) ins) := by
  rw [step, fetch]

end Sys

/-! ## The registers of the CLINT -/

theorem slot_next (k : ℕ) : slot k + 4#64 = slot (k + 1) := by
  have split : clintCtrlAddr + 4 * (k + 1) = clintCtrlAddr + 4 * k + 4 := by omega
  rw [slot, slot, split]
  exact (BitVec.ofNat_add (clintCtrlAddr + 4 * k) 4).symm

theorem slot_inj {j k : ℕ} (hj : j < maxHarts) (hk : k < maxHarts) : slot j = slot k ↔ j = k := by
  simp only [maxHarts] at hj hk
  constructor
  · intro same
    have := congrArg BitVec.toNat same
    simp only [slot, clintCtrlAddr, BitVec.toNat_ofNat] at this
    omega
  · exact congrArg slot

/-- The loops over the slots go on up to the last. -/
theorem slot_slt {k : ℕ} (h : k < maxHarts) : (slot (k + 1)).slt (slot maxHarts) = decide (k + 1 < maxHarts) := by
  have all : ∀ k < 32, (slot (k + 1)).slt (slot 32) = decide (k + 1 < 32) := by decide
  exact all k h

theorem slot_of_hartid {i : ℕ} (h : i < maxHarts) : BitVec.ofNat 64 i <<< 2 + slot 0 = slot i := by
  have all : ∀ i < 32, BitVec.ofNat 64 i <<< 2 + slot 0 = slot i := by decide
  exact all i h

theorem hartid_eq_zero {i : ℕ} (h : i < maxHarts) : nonsmpHart = BitVec.ofNat 64 i ↔ i = 0 := by
  have all : ∀ i < 32, nonsmpHart = BitVec.ofNat 64 i ↔ i = 0 := by decide
  exact all i h

/-- Masking `mip` leaves the hart's own bit. -/
theorem mipOf_and (pending : Word) (b : Bool) : mipOf pending b &&& 0x8 = if b then 0x8 else 0 := by
  have masked : pending &&& ~~~0x8 &&& 0x8 = 0 := by
    rw [BitVec.and_assoc, show ~~~(0x8 : Word) &&& 0x8 = 0#64 by decide, BitVec.and_zero]
    rfl
  rw [mipOf, BitVec.and_or_distrib_right, masked]
  cases b <;> decide

theorem clintStore_slot {msip : Fin (n + 1) → Bool} (few : n < maxHarts) {k : ℕ} (h : k < maxHarts)
    (v : BitVec 32) : clintStore msip (slot k) v = fun j => if j.val = k then v.getLsbD 0 else msip j := by
  funext j
  simp only [clintStore, slot_inj h (by omega : j.val < maxHarts), eq_comm]

theorem clintLoad_slot {msip : Fin (n + 1) → Bool} (few : n < maxHarts) {k : ℕ} (h : k < maxHarts) :
    (clintLoad msip (slot k)).signExtend 64 = 0 ↔ ∀ j : Fin (n + 1), j.val = k → msip j = false := by
  unfold clintLoad
  by_cases up : ∃ j : Fin (n + 1), slot k = slot j ∧ msip j = true
  · obtain ⟨j, same, set⟩ := up
    have slots : k = j.val := (slot_inj h (by omega)).1 same
    rw [if_pos ⟨j, same, set⟩]
    refine iff_of_false (by decide) fun low => ?_
    rw [low j slots.symm] at set
    cases set
  · rw [if_neg up]
    refine iff_of_true (by decide) fun j same => ?_
    by_contra set
    exact up ⟨j, by rw [same], by simpa using set⟩

end Zcu102.Boot
