import Zcu102.Sim.Chisel
import Zcu102.Shell.Diplomacy

/-!
# The DDR controller (`XilinxZCU102MIG.scala`, `zcu102mig.scala`)

What a DDR overlay with a base address and a size elaborates to, and the
address the island presents to the controller. The address ports of the
blackbox have 28 bits, while the elaboration accepts ranges of up to 2 GiB, so
the translation is faithful exactly up to 256 MiB.
-/

namespace Zcu102.Shell
set_option autoImplicit false
open Sim

/-- `ZCU102DDRSize` as configured by default. -/
def zcu102DDRSize : ℕ := 0x40000000 * 2

/-- The deepest memory the `require`s accept. -/
def migMaxDepth : ℕ := 0x80000000

def migDepthMessage : String := "zcu102mig supports upto 2GB depth configuraton"

/-- `c0_ddr4_s_axi_awaddr` and `c0_ddr4_s_axi_araddr` are `Bits(INPUT,28)`. -/
def axiAddrBits : ℕ := 28

/-- The blackbox `zcu102mig(depth)`. -/
def zcu102mig (depth : ℕ) : Except String Unit := require (depth ≤ migMaxDepth) migDepthMessage

/-- `XilinxZCU102MIGIsland` once elaborated. -/
structure Island where
  offset : ℕ
  depth : ℕ

/-- `XilinxZCU102MIGIsland(c)`. -/
def migIsland (d : Diplomacy) (address : List AddressSet) : Except String Island :=
  match d.fromSets address with
  | [range] => do
    require (range.size ≤ migMaxDepth) migDepthMessage
    zcu102mig range.size
    pure ⟨range.base, range.size⟩
  | _ => .error "DDR range must be contiguous"

/-- `XilinxZCU102MIG(c)`, which takes the head of the ranges before it builds its island. -/
def xilinxZCU102MIG (d : Diplomacy) (address : List AddressSet) : Except String Island :=
  match d.fromSets address with
  | [] => .error "head of empty list"
  | _ :: _ => migIsland d address

/-- `DDRZCU102PlacedOverlay`, and `DDR2ZCU102PlacedOverlay` alike. -/
def ddrOverlay (d : Diplomacy) (baseAddress size : ℕ) : Except String Island :=
  xilinxZCU102MIG d (d.misaligned baseAddress size)

namespace Island

variable {w : ℕ}

/-- `addr - UInt(offset)`, truncated to the port. -/
def translate (island : Island) (addr : BitVec w) : BitVec axiAddrBits :=
  Chisel.connect axiAddrBits (Chisel.sub addr (Chisel.lit island.offset))

/-- The write address port. -/
def awaddr (island : Island) (addr : BitVec w) : BitVec axiAddrBits := island.translate addr

/-- The read address port. -/
def araddr (island : Island) (addr : BitVec w) : BitVec axiAddrBits := island.translate addr

/-- The bus addresses of the memory. -/
def Mem (island : Island) (a : ℕ) : Prop := island.offset ≤ a ∧ a < island.offset + island.depth

end Island

/-- A port sees the offset of each address of the memory, a different one for each. -/
structure Faithful (island : Island) {w : ℕ} (port : BitVec w → BitVec axiAddrBits) : Prop where
  offsets : ∀ a, island.Mem a → (port (BitVec.ofNat w a)).toNat = a - island.offset
  injective : ∀ a b, island.Mem a → island.Mem b → port (BitVec.ofNat w a) = port (BitVec.ofNat w b) → a = b

/-- An overlay that elaborates has a memory as described, neither empty nor deeper than 2 GiB. -/
theorem ddrOverlay_ok {d : Diplomacy} {base size : ℕ} {island : Island}
    (accepted : ddrOverlay d base size = .ok island) :
    island = ⟨base, size⟩ ∧ 0 < size ∧ size ≤ migMaxDepth := by
  unfold ddrOverlay xilinxZCU102MIG migIsland at accepted
  by_cases zero : size = 0
  · subst zero
    rw [d.empty] at accepted
    cases accepted
  · have pos : 0 < size := by omega
    rw [d.contiguous base size pos] at accepted
    obtain ⟨small, accepted⟩ := require_bind_ok.1 accepted
    obtain ⟨-, accepted⟩ := require_bind_ok.1 accepted
    cases accepted
    exact ⟨rfl, pos, of_decide_eq_true small⟩

theorem ddrOverlay_accepts (d : Diplomacy) {base size : ℕ} (pos : 0 < size) (small : size ≤ migMaxDepth) :
    ddrOverlay d base size = .ok ⟨base, size⟩ := by
  have fine : decide (size ≤ migMaxDepth) = true := decide_eq_true small
  simp only [ddrOverlay, xilinxZCU102MIG, migIsland, d.contiguous base size pos]
  exact require_bind_ok.2 ⟨fine, require_bind_ok.2 ⟨fine, rfl⟩⟩

/-- The port sees the offset of an address, as far as it fits. -/
theorem Island.translate_toNat {island : Island} {w a : ℕ} (fits : island.offset + island.depth ≤ 2 ^ w)
    (inside : island.Mem a) :
    (island.translate (BitVec.ofNat w a)).toNat = (a - island.offset) % 2 ^ axiAddrBits := by
  obtain ⟨lo, hi⟩ := inside
  have value : (BitVec.ofNat w a).toNat = a := by
    rw [BitVec.toNat_ofNat, Nat.mod_eq_of_lt (by omega)]
  rw [Island.translate, Chisel.connect_toNat, Chisel.sub_toNat, Chisel.lit_toNat, value]
  rw [Chisel.lit_toNat, value]
  exact lo

/-- Both ports are faithful exactly when the memory fits into their 28 bits. -/
theorem Island.faithful_iff {island : Island} {w : ℕ} (fits : island.offset + island.depth ≤ 2 ^ w) :
    Faithful island (island.translate (w := w)) ↔ island.depth ≤ 2 ^ axiAddrBits := by
  constructor
  · intro faithful
    refine Chisel.mod_exact_iff.1 fun x less => ?_
    have inside : island.Mem (island.offset + x) := ⟨by omega, by omega⟩
    have exact_offset := faithful.offsets _ inside
    rw [Island.translate_toNat fits inside] at exact_offset
    simpa using exact_offset
  · intro small
    have offsets : ∀ a, island.Mem a → (island.translate (BitVec.ofNat w a)).toNat = a - island.offset := by
      intro a inside
      rw [Island.translate_toNat fits inside]
      obtain ⟨lo, hi⟩ := inside
      exact Nat.mod_eq_of_lt (by omega)
    refine ⟨offsets, fun a b insideA insideB same => ?_⟩
    have values := congrArg BitVec.toNat same
    rw [offsets a insideA, offsets b insideB] at values
    obtain ⟨loA, -⟩ := insideA
    obtain ⟨loB, -⟩ := insideB
    omega

/-- **The DDR address translation** of every accepted overlay, on a bus wide
enough for its range, is exact and free of aliases on both ports exactly when
the memory is no larger than 256 MiB. -/
theorem ddr_translation_iff (d : Diplomacy) {base size w : ℕ} {island : Island}
    (accepted : ddrOverlay d base size = .ok island) (fits : base + size ≤ 2 ^ w) :
    (Faithful island (island.awaddr (w := w)) ∧ Faithful island (island.araddr (w := w))) ↔ size ≤ 2 ^ axiAddrBits := by
  obtain ⟨rfl, -, -⟩ := ddrOverlay_ok accepted
  have ports : Faithful ⟨base, size⟩ (Island.translate ⟨base, size⟩ (w := w)) ↔ size ≤ 2 ^ axiAddrBits :=
    Island.faithful_iff fits
  exact ⟨fun both => ports.1 both.1, fun small => ⟨ports.2 small, ports.2 small⟩⟩

/-- A memory of 256 MiB at `0x80000000`. -/
theorem ddr_translation_quarter : ∃ island, ddrOverlay rocketChip 0x80000000 0x10000000 = .ok island ∧
    Faithful island (island.awaddr (w := 32)) ∧ Faithful island (island.araddr (w := 32)) := by
  have accepted : ddrOverlay rocketChip 0x80000000 0x10000000 = .ok ⟨0x80000000, 0x10000000⟩ :=
    ddrOverlay_accepts rocketChip (by decide) (by decide)
  exact ⟨_, accepted, (ddr_translation_iff rocketChip accepted (by decide)).2 (by decide)⟩

/-- The default memory of 2 GiB: two addresses 256 MiB apart meet at the port. -/
theorem ddr_default_aliases : ∃ island, ddrOverlay rocketChip 0x80000000 zcu102DDRSize = .ok island ∧
    island.Mem 0x80000000 ∧ island.Mem 0x90000000 ∧
    island.awaddr (BitVec.ofNat 32 0x80000000) = island.awaddr (BitVec.ofNat 32 0x90000000) := by
  refine ⟨⟨0x80000000, zcu102DDRSize⟩, ddrOverlay_accepts rocketChip (by decide) (by decide), ?_, ?_, ?_⟩
  · exact ⟨by decide, by decide⟩
  · exact ⟨by decide, by decide⟩
  · apply BitVec.eq_of_toNat_eq
    show (Island.translate _ _).toNat = (Island.translate _ _).toNat
    rw [Island.translate_toNat (by decide) ⟨by decide, by decide⟩,
      Island.translate_toNat (by decide) ⟨by decide, by decide⟩]
    rfl

end Zcu102.Shell
