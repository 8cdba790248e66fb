import Zcu102.Clocks.Generated

/-!
# The clock groups of the PLLs

The factory labels each output with the name of the edge it drives, groups the
outputs by label over all PLLs, and compares the number of groups with the number of
edges.
-/

namespace Zcu102.Clocks
set_option autoImplicit false
open Zcu102.Sim

section Groups

variable {kind : Instance} {nodes : List PLLNode} {made : List Pll}

theorem sdcGroups_eq (accepted : makePlls kind nodes = .ok made) :
    sdcGroups nodes made = groupBy ((wires kind nodes).map fun wire => (wire.1.label, wire.2)) := by
  rw [sdcGroups, labelled_made accepted]

theorem mem_labelled {label : String} {c : PllClock} :
    (label, c) ∈ ((wires kind nodes).map fun wire => (wire.1.label, wire.2)) ↔
      ∃ s, s.label = label ∧ (s, c) ∈ wires kind nodes := by
  rw [List.mem_map]
  constructor
  · intro found
    obtain ⟨wire, mem, same⟩ := found
    cases same
    exact ⟨wire.1, rfl, mem⟩
  · intro found
    obtain ⟨s, rfl, mem⟩ := found
    exact ⟨(s, c), mem, rfl⟩

/-- With enough ports no row is dropped, and the labels are those of all edges. -/
theorem labels_wires (fits : ∀ node ∈ nodes, node.total ≤ kind.outputs) :
    (wires kind nodes).map (fun wire => wire.1.label) =
      labels (fun e => e.sink.name) (fun e => e.members.length) (nodes.flatMap PLLNode.edgesOut) := by
  have rows : ∀ node ∈ nodes.zipIdx,
      ((slots node.2 node.1.edgesOut).zip (nodeClocks kind node.2 node.1)).map (fun wire => wire.1.label) =
        groupLabels node.1.edgesOut := by
    intro node mem
    have fit := fits node.1 (List.fst_mem_of_mem_zipIdx mem)
    have enough : (slots node.2 node.1.edgesOut).length ≤ (nodeClocks kind node.2 node.1).length := by
      rw [length_slots, nodeClocks, List.length_map, List.length_range, Nat.min_eq_left fit]
    calc ((slots node.2 node.1.edgesOut).zip (nodeClocks kind node.2 node.1)).map (fun wire => wire.1.label)
        = (((slots node.2 node.1.edgesOut).zip (nodeClocks kind node.2 node.1)).map Prod.fst).map Slot.label := by
          rw [List.map_map]
          rfl
      _ = groupLabels node.1.edgesOut := by rw [List.map_fst_zip enough, map_label_slots]
  calc (wires kind nodes).map (fun wire => wire.1.label)
      = nodes.zipIdx.flatMap fun node => groupLabels node.1.edgesOut := by
        rw [wires, List.map_flatMap]
        exact List.flatMap_congr rows
    _ = (nodes.zipIdx.map Prod.fst).flatMap fun node => groupLabels node.edgesOut := by
        rw [List.flatMap_map]
    _ = labels (fun e => e.sink.name) (fun e => e.members.length) (nodes.flatMap PLLNode.edgesOut) := by
        rw [List.zipIdx_map_fst, labels, List.flatMap_assoc]
        rfl

/-- The edges of all nodes, with where they are. -/
def edgesAt (nodes : List PLLNode) : List ((ℕ × ℕ) × ClockGroupEdgeParameters) :=
  nodes.zipIdx.flatMap fun node => node.1.edgesOut.zipIdx.map fun edge => ((node.2, edge.2), edge.1)

theorem map_snd_edgesAt (nodes : List PLLNode) : (edgesAt nodes).map Prod.snd = nodes.flatMap PLLNode.edgesOut := by
  conv => rhs; rw [← List.zipIdx_map_fst 0 nodes, List.flatMap_map]
  rw [edgesAt, List.map_flatMap]
  congr 1
  funext node
  rw [List.map_map]
  exact List.zipIdx_map_fst 0 node.1.edgesOut

theorem mem_edgesAt {node : PLLNode} {number i : ℕ} {e : ClockGroupEdgeParameters}
    (there : nodes[number]? = some node) (here : node.edgesOut[i]? = some e) :
    ((number, i), e) ∈ edgesAt nodes := by
  apply List.mem_flatMap.mpr
  exact ⟨(node, number), List.mem_zipIdx_iff_getElem?.mpr there,
    List.mem_map.mpr ⟨(e, i), List.mem_zipIdx_iff_getElem?.mpr here, rfl⟩⟩

/-- With distinct names, clocks with one label are of one edge. -/
theorem label_eq_iff (names : ((nodes.flatMap PLLNode.edgesOut).map fun e => e.sink.name).Nodup) {s s' : Slot}
    {c c' : PllClock} (left : (s, c) ∈ wires kind nodes) (right : (s', c') ∈ wires kind nodes) :
    s.label = s'.label ↔ s.member.node = s'.member.node ∧ s.member.edge = s'.member.edge := by
  obtain ⟨node, there, -, row⟩ := mem_wires.mp left
  obtain ⟨node', there', -, row'⟩ := mem_wires.mp right
  obtain ⟨number, e, edge, -, label⟩ := mem_slots.mp (List.mem_of_getElem? row)
  obtain ⟨number', e', edge', -, label'⟩ := mem_slots.mp (List.mem_of_getElem? row')
  rw [label, label', number, number']
  constructor
  · intro same
    rw [← map_snd_edgesAt, List.map_map] at names
    have one := List.inj_on_of_nodup_map names (mem_edgesAt there edge) (mem_edgesAt there' edge') same
    exact Prod.mk.inj (congrArg Prod.fst one)
  · intro same
    obtain ⟨numbers, edges⟩ := same
    rw [numbers] at there
    cases there.symm.trans there'
    rw [edges] at edge
    cases edge.symm.trans edge'
    rfl

/-- The groups partition the outputs of the PLLs, edge by edge. -/
structure Partition (made : List Pll) (groups : List (String × List PllClock)) : Prop where
  covers : ∀ c ∈ made.flatMap Pll.clocks, ∃! group, group ∈ groups ∧ c ∈ group.2
  only : ∀ group ∈ groups, ∀ c ∈ group.2, c ∈ made.flatMap Pll.clocks
  together : ∀ c c', (∃ group ∈ groups, c ∈ group.2 ∧ c' ∈ group.2) ↔
    ∃ m m', (m, c) ∈ made.flatMap Pll.drives ∧ (m', c') ∈ made.flatMap Pll.drives ∧
      m.node = m'.node ∧ m.edge = m'.edge

theorem partition_of_names (accepted : makePlls kind nodes = .ok made)
    (names : ((nodes.flatMap PLLNode.edgesOut).map fun e => e.sink.name).Nodup) :
    Partition made (sdcGroups nodes made) := by
  rw [sdcGroups_eq accepted]
  constructor
  · intro c output
    obtain ⟨s, wired⟩ := (mem_clocks accepted).mp output
    apply existsUnique_group (mem_labelled.mpr ⟨s, rfl, wired⟩)
    intro other labelled
    obtain ⟨s', rfl, wired'⟩ := mem_labelled.mp labelled
    have member := (wires_inj wired' wired).mpr rfl
    exact (label_eq_iff names wired' wired).mpr ⟨by rw [member], by rw [member]⟩
  · intro group mem c inside
    obtain ⟨s, -, wired⟩ := mem_labelled.mp ((mem_group_iff mem c).mp inside)
    exact (mem_clocks accepted).mpr ⟨s, wired⟩
  · intro c c'
    rw [same_group_iff]
    constructor
    · intro together
      obtain ⟨label, left, right⟩ := together
      obtain ⟨s, rfl, wired⟩ := mem_labelled.mp left
      obtain ⟨s', same, wired'⟩ := mem_labelled.mp right
      exact ⟨s.member, s'.member, (mem_drives accepted).mpr ⟨s, rfl, wired⟩,
        (mem_drives accepted).mpr ⟨s', rfl, wired'⟩, (label_eq_iff names wired wired').mp same.symm⟩
    · intro together
      obtain ⟨m, m', left, right, edge⟩ := together
      obtain ⟨s, rfl, wired⟩ := (mem_drives accepted).mp left
      obtain ⟨s', rfl, wired'⟩ := (mem_drives accepted).mp right
      have same := (label_eq_iff names wired wired').mpr edge
      exact ⟨s.label, mem_labelled.mpr ⟨s, rfl, wired⟩, mem_labelled.mpr ⟨s', same.symm, wired'⟩⟩

/-- The count of the groups says that the names are distinct and no edge is empty. -/
theorem length_sdcGroups_iff (accepted : makePlls kind nodes = .ok made)
    (fits : ∀ node ∈ nodes, node.total ≤ kind.outputs) :
    (sdcGroups nodes made).length = (nodes.map fun node => node.edgesOut.length).sum ↔
      ((nodes.flatMap PLLNode.edgesOut).map fun e => e.sink.name).Nodup ∧
        ∀ e ∈ nodes.flatMap PLLNode.edgesOut, e.members.length ≠ 0 := by
  have column : ((wires kind nodes).map fun wire => (wire.1.label, wire.2)).map Prod.fst =
      (wires kind nodes).map fun wire => wire.1.label := by
    rw [List.map_map]
    rfl
  rw [sdcGroups_eq accepted, length_groupBy, column, labels_wires fits, ← List.length_flatMap]
  exact length_dedup_labels _ _ _

/-- **The clock groups of the PLLs**: the check passes exactly when all edges have distinct names and members,
and then the groups partition the outputs. -/
theorem clock_groups_partition (fits : ∀ node ∈ nodes, node.total ≤ kind.outputs)
    (accepted : makePlls kind nodes = .ok made) :
    ((∃ groups, plls kind nodes = .ok (made, groups)) ↔
      ((nodes.flatMap PLLNode.edgesOut).map fun e => e.sink.name).Nodup ∧
        ∀ e ∈ nodes.flatMap PLLNode.edgesOut, e.members.length ≠ 0) ∧
    ∀ groups, plls kind nodes = .ok (made, groups) → Partition made groups := by
  have check := length_sdcGroups_iff accepted fits
  constructor
  · rw [← check]
    constructor
    · intro passes
      obtain ⟨groups, passes⟩ := passes
      obtain ⟨-, rfl, count⟩ := plls_ok_iff.mp passes
      exact count
    · intro count
      exact ⟨_, plls_ok_iff.mpr ⟨accepted, rfl, count⟩⟩
  · intro groups passes
    obtain ⟨-, rfl, count⟩ := plls_ok_iff.mp passes
    exact partition_of_names accepted (check.mp count).1

end Groups

/-- A node with a group of two clocks and one of a single clock. -/
def nodeOfGroups : PLLNode where
  valName := "pll"
  feedback := false
  edgesIn := [input100]
  edgesOut := [edgeOf "core" 2, edgeOf "bus" 1]

theorem clock_groups_two : ∃ made groups, plls .series7MMCM [nodeOfGroups] = .ok (made, groups) ∧
    groups.map (fun group => (group.1, group.2.length)) = [("core", 2), ("bus", 1)] ∧ Partition made groups := by
  have fits : ∀ node ∈ [nodeOfGroups], node.total ≤ Instance.series7MMCM.outputs := by
    intro node mem
    rw [List.mem_singleton.mp mem]
    decide
  obtain ⟨iff, partition⟩ := clock_groups_partition fits rfl
  obtain ⟨groups, passes⟩ := iff.mpr (by decide)
  refine ⟨_, groups, passes, ?_, partition groups passes⟩
  cases passes
  rfl

end Zcu102.Clocks
