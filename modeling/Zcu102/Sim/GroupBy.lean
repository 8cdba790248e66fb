import Mathlib.Data.List.Dedup
import Mathlib.Data.List.Perm.Subperm
import Mathlib.Data.Nat.Notation

/-!
# Grouping by key

`groupBy` of a sequence of pairs, as a map from its keys to their values. The order
of the keys carries no meaning.
-/

namespace Zcu102.Sim
set_option autoImplicit false

variable {K V E : Type} [DecidableEq K]

/-- The values of each key, in order. -/
def groupBy (pairs : List (K × V)) : List (K × List V) :=
  (pairs.map Prod.fst).dedup.map fun key => (key, (pairs.filter fun pair => pair.1 = key).map Prod.snd)

theorem length_groupBy (pairs : List (K × V)) : (groupBy pairs).length = (pairs.map Prod.fst).dedup.length :=
  List.length_map _

theorem mem_groupBy {pairs : List (K × V)} {group : K × List V} (mem : group ∈ groupBy pairs) :
    group.2 = (pairs.filter fun pair => pair.1 = group.1).map Prod.snd := by
  obtain ⟨key, -, rfl⟩ := List.mem_map.mp mem
  rfl

/-- A group holds the values of its key. -/
theorem mem_group_iff {pairs : List (K × V)} {group : K × List V} (mem : group ∈ groupBy pairs) (v : V) :
    v ∈ group.2 ↔ (group.1, v) ∈ pairs := by
  rw [mem_groupBy mem]
  constructor
  · intro grouped
    obtain ⟨pair, here, rfl⟩ := List.mem_map.mp grouped
    obtain ⟨member, key⟩ := List.mem_filter.mp here
    rw [← of_decide_eq_true key]
    exact member
  · intro member
    apply List.mem_map.mpr
    exact ⟨(group.1, v), List.mem_filter.mpr ⟨member, decide_eq_true rfl⟩, rfl⟩

theorem exists_group {pairs : List (K × V)} {key : K} {v : V} (mem : (key, v) ∈ pairs) :
    ∃ group ∈ groupBy pairs, group.1 = key := by
  have keyed : key ∈ (pairs.map Prod.fst).dedup := List.mem_dedup.mpr (List.mem_map_of_mem mem)
  exact ⟨_, List.mem_map_of_mem keyed, rfl⟩

/-- There is one group to a key. -/
theorem group_ext {pairs : List (K × V)} {g h : K × List V} (left : g ∈ groupBy pairs) (right : h ∈ groupBy pairs)
    (same : g.1 = h.1) : g = h := by
  apply Prod.ext same
  rw [mem_groupBy left, mem_groupBy right, same]

/-- Two values are in one group when they stand under one key. -/
theorem same_group_iff {pairs : List (K × V)} (v w : V) :
    (∃ group ∈ groupBy pairs, v ∈ group.2 ∧ w ∈ group.2) ↔ ∃ key, (key, v) ∈ pairs ∧ (key, w) ∈ pairs := by
  constructor
  · intro together
    obtain ⟨group, mem, left, right⟩ := together
    exact ⟨group.1, (mem_group_iff mem v).mp left, (mem_group_iff mem w).mp right⟩
  · intro together
    obtain ⟨key, left, right⟩ := together
    obtain ⟨group, mem, rfl⟩ := exists_group left
    exact ⟨group, mem, (mem_group_iff mem v).mpr left, (mem_group_iff mem w).mpr right⟩

/-- A value that stands under one key is in exactly one group. -/
theorem existsUnique_group {pairs : List (K × V)} {key : K} {v : V} (mem : (key, v) ∈ pairs)
    (only : ∀ other, (other, v) ∈ pairs → other = key) : ∃! group, group ∈ groupBy pairs ∧ v ∈ group.2 := by
  obtain ⟨group, grouped, rfl⟩ := exists_group mem
  apply ExistsUnique.intro group
  · exact ⟨grouped, (mem_group_iff grouped v).mpr mem⟩
  · intro other found
    exact group_ext found.1 grouped (only other.1 ((mem_group_iff found.1 v).mp found.2))

/-! ## Counting the keys -/

/-- Each name as often as its entry is large. -/
def labels (name : E → K) (size : E → ℕ) (entries : List E) : List K :=
  entries.flatMap fun e => List.replicate (size e) (name e)

omit [DecidableEq K] in
theorem mem_labels {name : E → K} {size : E → ℕ} {entries : List E} {key : K} :
    key ∈ labels name size entries ↔ ∃ e ∈ entries, size e ≠ 0 ∧ name e = key := by
  unfold labels
  rw [List.mem_flatMap]
  apply exists_congr
  intro e
  rw [List.mem_replicate, eq_comm]

/-- The labels name as many keys as there are entries exactly when no name is repeated and no entry is empty. -/
theorem length_dedup_labels (name : E → K) (size : E → ℕ) (entries : List E) :
    (labels name size entries).dedup.length = entries.length ↔
      (entries.map name).Nodup ∧ ∀ e ∈ entries, size e ≠ 0 := by
  have distinct := List.nodup_dedup (labels name size entries)
  constructor
  · intro count
    have within : (labels name size entries).dedup ⊆ entries.map name := by
      intro key mem
      obtain ⟨e, here, -, rfl⟩ := mem_labels.mp (List.mem_dedup.mp mem)
      exact List.mem_map_of_mem here
    have all : (labels name size entries).dedup.Perm (entries.map name) := by
      apply (distinct.subperm within).perm_of_length_le
      exact Nat.le_of_eq (by rw [List.length_map, count])
    have names : (entries.map name).Nodup := all.nodup_iff.mp distinct
    constructor
    · exact names
    · intro e here
      have used : name e ∈ labels name size entries :=
        List.mem_dedup.mp (all.mem_iff.mpr (List.mem_map_of_mem here))
      obtain ⟨other, there, filled, same⟩ := mem_labels.mp used
      rw [← List.inj_on_of_nodup_map names there here same]
      exact filled
  · intro named
    obtain ⟨names, filled⟩ := named
    have all : (labels name size entries).dedup.Perm (entries.map name) := by
      apply (List.perm_ext_iff_of_nodup distinct names).mpr
      intro key
      rw [List.mem_dedup, mem_labels, List.mem_map]
      apply exists_congr
      intro e
      constructor
      · intro found
        exact ⟨found.1, found.2.2⟩
      · intro found
        exact ⟨found.1, filled e found.1, found.2⟩
    rw [all.length_eq, List.length_map]

end Zcu102.Sim
