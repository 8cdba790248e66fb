import Mathlib.Data.Nat.Bitwise
import Mathlib.Data.List.Range

/-!
# Address sets

The parts of the diplomacy library the shells use. `AddressSet.misaligned` and
`AddressRange.fromSets` are not part of this repository: a `Diplomacy` is any
pair of functions for which the sets made of a base and a size cover one
contiguous range.
-/

namespace Zcu102.Shell
set_option autoImplicit false

/-- `AddressSet(base, mask)`, with its `require((base & mask) == 0)`. -/
structure AddressSet where
  base : ℕ
  mask : ℕ
  aligned : base &&& mask = 0
  deriving DecidableEq, Repr

/-- The last address of a set. -/
def AddressSet.max (a : AddressSet) : ℕ := a.base ||| a.mask

structure AddressRange where
  base : ℕ
  size : ℕ
  deriving DecidableEq, Repr

/-- `AddressSet.misaligned` and `AddressRange.fromSets`. -/
structure Diplomacy where
  misaligned : ℕ → ℕ → List AddressSet
  fromSets : List AddressSet → List AddressRange
  empty : ∀ base, fromSets (misaligned base 0) = []
  contiguous : ∀ base size, 0 < size → fromSets (misaligned base size) = [⟨base, size⟩]

/-! ## An instance

`misaligned` as the library computes it, greedily: each set is the largest aligned
power of two that still fits. `fromSets` joins neighbours, for sets in order whose
mask has no holes. -/

/-- The largest power of two up to `2 ^ k` that divides `base`. -/
def alignedStep (base : ℕ) : ℕ → ℕ
  | 0 => 1
  | k + 1 => if base % 2 ^ (k + 1) = 0 then 2 ^ (k + 1) else alignedStep base k

theorem alignedStep_spec (base k : ℕ) : ∃ j ≤ k, alignedStep base k = 2 ^ j ∧ base % 2 ^ j = 0 := by
  induction k with
  | zero => exact ⟨0, Nat.le_refl 0, rfl, Nat.mod_one base⟩
  | succ k ih =>
    unfold alignedStep
    by_cases divides : base % 2 ^ (k + 1) = 0
    · rw [if_pos divides]
      exact ⟨k + 1, Nat.le_refl _, rfl, divides⟩
    · rw [if_neg divides]
      obtain ⟨j, below, step, aligned⟩ := ih
      exact ⟨j, Nat.le_succ_of_le below, step, aligned⟩

theorem alignedStep_and (base k : ℕ) : base &&& (alignedStep base k - 1) = 0 := by
  obtain ⟨j, -, step, aligned⟩ := alignedStep_spec base k
  rw [step, Nat.and_two_pow_sub_one_eq_mod]
  exact aligned

theorem alignedStep_pos (base k : ℕ) : 0 < alignedStep base k := by
  obtain ⟨j, -, step, -⟩ := alignedStep_spec base k
  rw [step]
  exact Nat.two_pow_pos j

theorem alignedStep_le {base size : ℕ} (pos : size ≠ 0) : alignedStep base size.log2 ≤ size := by
  obtain ⟨j, below, step, -⟩ := alignedStep_spec base size.log2
  rw [step]
  exact Nat.le_trans (Nat.pow_le_pow_right (by decide) below) (Nat.log2_self_le pos)

def misaligned (base size : ℕ) : List AddressSet :=
  if size = 0 then []
  else
    let step := alignedStep base size.log2
    ⟨base, step - 1, alignedStep_and base size.log2⟩ :: misaligned (base + step) (size - step)
termination_by size
decreasing_by
  have := alignedStep_pos base size.log2
  omega

/-- The range of a set without holes. -/
def AddressSet.range (a : AddressSet) : AddressRange := ⟨a.base, a.mask + 1⟩

/-- Join a range with the ranges after it while they touch. -/
def joined (r : AddressRange) : List AddressRange → List AddressRange
  | [] => [r]
  | next :: rest =>
    if r.base + r.size = next.base then joined ⟨r.base, r.size + next.size⟩ rest else r :: joined next rest

def fromSets : List AddressSet → List AddressRange
  | [] => []
  | a :: rest => joined a.range (rest.map AddressSet.range)

theorem range_step (base k : ℕ) :
    AddressSet.range ⟨base, alignedStep base k - 1, alignedStep_and base k⟩ = ⟨base, alignedStep base k⟩ := by
  rw [AddressSet.range, Nat.sub_add_cancel (alignedStep_pos base k)]

theorem joined_misaligned (base size more : ℕ) :
    joined ⟨base, size⟩ ((misaligned (base + size) more).map AddressSet.range) = [⟨base, size + more⟩] := by
  induction more using Nat.strongRecOn generalizing size with
  | ind more ih =>
    by_cases done : more = 0
    · rw [misaligned, if_pos done, List.map_nil, joined, done, Nat.add_zero]
    · have pos := alignedStep_pos (base + size) more.log2
      have le : alignedStep (base + size) more.log2 ≤ more := alignedStep_le done
      rw [misaligned, if_neg done, List.map_cons, joined]
      have width := range_step (base + size) more.log2
      have rest := ih (more - alignedStep (base + size) more.log2) (by omega) (size + alignedStep (base + size) more.log2)
      rw [width, if_pos rfl, Nat.add_assoc base, rest]
      congr 2
      omega

/-- The address sets of rocket-chip. -/
def rocketChip : Diplomacy where
  misaligned := misaligned
  fromSets := fromSets
  empty base := by rw [misaligned, if_pos rfl, fromSets]
  contiguous base size pos := by
    have le : alignedStep base size.log2 ≤ size := alignedStep_le (Nat.ne_of_gt pos)
    rw [misaligned, if_neg (Nat.ne_of_gt pos), fromSets, range_step, joined_misaligned, Nat.add_sub_of_le le]

/-- A `require` of the elaboration. -/
def require (condition : Bool) (message : String) : Except String Unit :=
  if condition then .ok () else .error message

theorem require_bind_ok {α : Type} {condition : Bool} {message : String} {next : Unit → Except String α} {a : α} :
    (require condition message >>= next) = .ok a ↔ condition = true ∧ next () = .ok a := by
  cases condition with
  | false => exact iff_of_false (fun h => by cases h) (fun h => by cases h.1)
  | true => exact ⟨fun h => ⟨rfl, h⟩, fun h => h.2⟩

end Zcu102.Shell
