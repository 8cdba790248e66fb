import Mathlib.Data.List.Lex
import Mathlib.Data.List.Nodup

/-!
# Places in a tree

A place is the list of the numbers of the children on the way to it. The places of the
children of a node are put behind the number of the child, block by block, from the
first child to the last or from the last to the first.

In the order of declaration a place comes before another if it does so
lexicographically. Blocks from the first to the last are in order when each block is;
from the last to the first there must also not be two of them.
-/

namespace Zcu102.Sim
set_option autoImplicit false

abbrev Place := List ℕ

/-- The blocks of the children from `i` on, the first one first. -/
def ascending (i : ℕ) : List (List Place) → List Place
  | [] => []
  | block :: rest => block.map (i :: ·) ++ ascending (i + 1) rest

/-- The same blocks, the last one first. -/
def descending (i : ℕ) : List (List Place) → List Place
  | [] => []
  | block :: rest => descending (i + 1) rest ++ block.map (i :: ·)

theorem descending_perm (i : ℕ) (blocks : List (List Place)) : (descending i blocks).Perm (ascending i blocks) := by
  induction blocks generalizing i with
  | nil => exact List.Perm.refl _
  | cons block rest ih =>
    have swapped : (ascending (i + 1) rest ++ block.map (i :: ·)).Perm (ascending i (block :: rest)) :=
      List.perm_append_comm
    exact ((ih (i + 1)).append_right _).trans swapped

/-- What stands in one of the blocks made of the members of a list, numbered from `i` on. -/
theorem mem_numbered {α β : Type} {f : ℕ → α → List β} {i : ℕ} {xs : List α} {b : β} :
    (b ∈ (xs.zipIdx i).flatMap fun x => f x.2 x.1) ↔ ∃ k x, xs[k]? = some x ∧ b ∈ f (i + k) x := by
  rw [List.mem_flatMap]
  constructor
  · intro found
    obtain ⟨⟨x, n⟩, mem, inside⟩ := found
    obtain ⟨le, there⟩ := List.mk_mem_zipIdx_iff_le_and_getElem?_sub.mp mem
    exact ⟨n - i, x, there, by rwa [Nat.add_sub_of_le le]⟩
  · intro found
    obtain ⟨k, x, there, inside⟩ := found
    exact ⟨(x, i + k), List.mk_add_mem_zipIdx_iff_getElem?.mpr there, inside⟩

theorem ascending_eq (i : ℕ) (blocks : List (List Place)) :
    ascending i blocks = (blocks.zipIdx i).flatMap fun x => x.1.map (x.2 :: ·) := by
  induction blocks generalizing i with
  | nil => rfl
  | cons block rest ih => rw [ascending, ih, List.zipIdx_cons, List.flatMap_cons]

theorem mem_ascending {i : ℕ} {blocks : List (List Place)} {p : Place} :
    p ∈ ascending i blocks ↔
      ∃ (k : ℕ) (block : List Place), blocks[k]? = some block ∧ p ∈ block.map ((i + k) :: ·) := by
  rw [ascending_eq]
  exact mem_numbered (f := fun k (block : List Place) => block.map (k :: ·))

/-- All places of later children have larger numbers. -/
theorem lt_of_mem_ascending {i : ℕ} {blocks : List (List Place)} {p : Place} (q : Place)
    (mem : p ∈ ascending (i + 1) blocks) : i :: q < p := by
  obtain ⟨k, block, -, inside⟩ := mem_ascending.mp mem
  obtain ⟨q', -, rfl⟩ := List.mem_map.mp inside
  apply List.cons_lt_cons_iff.mpr
  left
  omega

/-- The places of one child are in order as they are below it. -/
theorem sorted_block_iff (i : ℕ) (block : List Place) :
    (block.map (i :: ·)).Pairwise (· < ·) ↔ block.Pairwise (· < ·) := by
  rw [List.pairwise_map]
  apply iff_of_eq
  congr 1
  funext p q
  simp

theorem sorted_ascending_iff (i : ℕ) (blocks : List (List Place)) :
    (ascending i blocks).Pairwise (· < ·) ↔ ∀ block ∈ blocks, block.Pairwise (· < ·) := by
  induction blocks generalizing i with
  | nil => simp [ascending]
  | cons block rest ih =>
    have across : ∀ p ∈ block.map (i :: ·), ∀ q ∈ ascending (i + 1) rest, p < q := by
      intro p mem q later
      obtain ⟨p', -, rfl⟩ := List.mem_map.mp mem
      exact lt_of_mem_ascending p' later
    rw [ascending, List.pairwise_append, sorted_block_iff, ih, List.forall_mem_cons]
    exact ⟨fun sorted => ⟨sorted.1, sorted.2.1⟩, fun sorted => ⟨sorted.1, sorted.2, across⟩⟩

/-- Later children before the child `i` are out of order, unless there is nothing on one side. -/
theorem across_descending_iff (i : ℕ) (block : List Place) (rest : List (List Place)) :
    (∀ p ∈ descending (i + 1) rest, ∀ q ∈ block.map (i :: ·), p < q) ↔ ∀ later ∈ rest, block = [] ∨ later = [] := by
  constructor
  · intro across later mem
    by_contra both
    rw [not_or] at both
    obtain ⟨q, inside⟩ := List.exists_mem_of_ne_nil block both.1
    obtain ⟨q', inside'⟩ := List.exists_mem_of_ne_nil later both.2
    obtain ⟨k, there⟩ := List.mem_iff_getElem?.mp mem
    have listed : (i + 1 + k) :: q' ∈ ascending (i + 1) rest :=
      mem_ascending.mpr ⟨k, later, there, List.mem_map_of_mem inside'⟩
    have after := lt_of_mem_ascending q listed
    have before := across _ ((descending_perm _ _).mem_iff.mpr listed) _ (List.mem_map_of_mem inside)
    exact lt_asymm after before
  · intro empty p mem q inside
    obtain ⟨q', inside', -⟩ := List.mem_map.mp inside
    obtain ⟨k, later, there, inside''⟩ := mem_ascending.mp ((descending_perm _ _).mem_iff.mp mem)
    obtain none | none := empty later (List.mem_of_getElem? there)
    · rw [none] at inside'
      exact absurd inside' List.not_mem_nil
    · rw [none] at inside''
      exact absurd inside'' List.not_mem_nil

theorem sorted_descending_iff (i : ℕ) (blocks : List (List Place)) :
    (descending i blocks).Pairwise (· < ·) ↔
      (∀ block ∈ blocks, block.Pairwise (· < ·)) ∧ blocks.Pairwise fun block later => block = [] ∨ later = [] := by
  induction blocks generalizing i with
  | nil => simp [descending]
  | cons block rest ih =>
    rw [descending, List.pairwise_append, sorted_block_iff, ih, across_descending_iff, List.forall_mem_cons,
      List.pairwise_cons]
    constructor
    · intro sorted
      exact ⟨⟨sorted.2.1, sorted.1.1⟩, sorted.2.2, sorted.1.2⟩
    · intro sorted
      exact ⟨⟨sorted.1.2, sorted.2.2⟩, sorted.1.1, sorted.2.1⟩

theorem nodup_ascending {blocks : List (List Place)} (nodup : ∀ block ∈ blocks, block.Nodup) (i : ℕ) :
    (ascending i blocks).Nodup := by
  induction blocks generalizing i with
  | nil => exact List.nodup_nil
  | cons block rest ih =>
    obtain ⟨first, later⟩ := List.forall_mem_cons.mp nodup
    rw [ascending, List.nodup_append']
    refine ⟨first.map (List.cons_injective), ih later (i + 1), ?_⟩
    intro p mem mem'
    obtain ⟨q, -, rfl⟩ := List.mem_map.mp mem
    exact lt_irrefl _ (lt_of_mem_ascending q mem')

/-- In a list in order, as many places come before one as stand before it. -/
theorem countP_lt_of_sorted {ps : List Place} (sorted : ps.Pairwise (· < ·)) {k : ℕ} {p : Place}
    (there : ps[k]? = some p) : ps.countP (fun q => decide (q < p)) = k := by
  induction ps generalizing k with
  | nil => cases there
  | cons first ps ih =>
    obtain ⟨least, sorted⟩ := List.pairwise_cons.mp sorted
    cases k with
    | zero =>
      cases there
      apply List.countP_eq_zero.mpr
      intro q mem before
      obtain rfl | later := List.mem_cons.mp mem
      · exact lt_irrefl q (of_decide_eq_true before)
      · exact lt_asymm (of_decide_eq_true before) (least q later)
    | succ k =>
      have before : decide (first < p) = true := decide_eq_true (least p (List.mem_of_getElem? there))
      rw [List.countP_cons, ih sorted there, if_pos before]

end Zcu102.Sim
