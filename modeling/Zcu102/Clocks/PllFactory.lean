import Mathlib.Algebra.Order.Ring.Rat
import Mathlib.Data.List.Nodup
import Zcu102.Shell.Diplomacy
import Zcu102.Sim.GroupBy

/-!
# The PLLs of a shell (`PLLFactory.plls`)

Every PLL node has one input clock and any number of output edges, each a named
group of clocks. The factory flattens the members of the edges four times: into the
clocks it requests, into the bundle members it drives, and into the labels of the
clock groups; each time the flattened list is joined with the outputs of the PLL by
position, and `zip` stops at the shorter of the two.

A PLL has as many outputs as were requested, up to the number its IP has.
-/

namespace Zcu102.Clocks
set_option autoImplicit false
open Zcu102.Sim Zcu102.Shell

/-! ## Parameters -/

structure ClockParameters where
  freqMHz : ℚ
  dutyCycle : ℚ := 50
  freq_pos : 0 < freqMHz
  duty_pos : 0 < dutyCycle
  duty_lt : dutyCycle < 100
  deriving DecidableEq

structure ClockSourceParameters where
  jitterPS : Option ℚ := none
  give : Option ClockParameters := none

structure ClockSinkParameters where
  phaseDeg : ℚ := 0
  phaseErrorDeg : ℚ := 5
  freqErrorPPM : ℚ := 10000
  jitterPS : ℚ := 200
  take : Option ClockParameters := none
  phase_nonneg : 0 ≤ phaseErrorDeg
  freq_nonneg : 0 ≤ freqErrorPPM

/-- The given and the taken clock, the given one first. -/
def unify (source : ClockSourceParameters) (sink : ClockSinkParameters) : Option ClockParameters :=
  source.give.or sink.take

/-- An edge, whose given and taken clocks are one. -/
structure ClockEdgeParameters where
  source : ClockSourceParameters
  sink : ClockSinkParameters
  known : (unify source sink).isSome
  given : ∀ x, source.give = some x → (unify source sink).get known = x
  taken : ∀ x, sink.take = some x → (unify source sink).get known = x

def ClockEdgeParameters.clock (e : ClockEdgeParameters) : ClockParameters := (unify e.source e.sink).get e.known

structure ClockGroupSinkParameters where
  name : String
  members : List ClockSinkParameters

/-- An output edge of a PLL. Its members have a source that gives nothing, so their sinks take. -/
structure ClockGroupEdgeParameters where
  sink : ClockGroupSinkParameters
  take : ∀ s ∈ sink.members, s.take.isSome

theorem unify_taken (s : ClockSinkParameters) : unify {} s = s.take := Option.none_or

/-- `ClockEdgeParameters(ClockSourceParameters(), s)`. -/
def memberEdge (s : ClockSinkParameters) (take : s.take.isSome) : ClockEdgeParameters where
  source := {}
  sink := s
  known := by rw [unify_taken, take]
  given x gives := by cases gives
  taken x takes := by simp only [unify_taken, takes, Option.get_some]

def ClockGroupEdgeParameters.members (e : ClockGroupEdgeParameters) : List ClockEdgeParameters :=
  e.sink.members.pmap memberEdge e.take

/-- A `PLLNode` with the edges the design gave it. -/
structure PLLNode where
  valName : String
  feedback : Bool
  edgesIn : List ClockEdgeParameters
  edgesOut : List ClockGroupEdgeParameters

structure PLLInClockParameters where
  freqMHz : ℚ
  jitter : ℚ := 50
  feedback : Bool := false

structure PLLOutClockParameters where
  freqMHz : ℚ
  phaseDeg : ℚ := 0
  dutyCycle : ℚ := 50
  jitterPS : ℚ := 300
  freqErrorPPM : ℚ := 10000
  phaseErrorDeg : ℚ := 5

structure PLLParameters where
  name : String
  input : PLLInClockParameters
  req : List PLLOutClockParameters

/-! ## Instances -/

inductive Instance where
  | series7MMCM
  | polarFireCCC
  deriving DecidableEq, Repr

/-- The optional clock ports an IP has. -/
def Instance.outputs : Instance → ℕ
  | .series7MMCM => 7
  | .polarFireCCC => 4

/-- A clock output: the number of the PLL and that of its port. -/
@[ext] structure PllClock where
  pll : ℕ
  output : ℕ
  deriving DecidableEq, Repr

/-- `getClocks`: port `i` is there when more than `i` clocks are requested. -/
def getClocks (kind : Instance) (pll : ℕ) (c : PLLParameters) : List PllClock :=
  (List.range kind.outputs).filterMap fun i => if c.req.length ≥ i + 1 then some ⟨pll, i⟩ else none

/-- A member of the bundle of an output edge. -/
structure Member where
  node : ℕ
  edge : ℕ
  index : ℕ
  deriving DecidableEq, Repr

/-- `out.flatMap(_.member)`. -/
def outMembers (node : ℕ) (edgesOut : List ClockGroupEdgeParameters) : List Member :=
  edgesOut.zipIdx.flatMap fun edge => (List.range edge.1.members.length).map fun i => ⟨node, edge.2, i⟩

/-- `edgeOut.flatMap(_.members).map { e => PLLOutClockParameters(..) }`. -/
def request (edgesOut : List ClockGroupEdgeParameters) : List PLLOutClockParameters :=
  (edgesOut.flatMap ClockGroupEdgeParameters.members).map fun e =>
    { freqMHz := e.clock.freqMHz
      phaseDeg := e.sink.phaseDeg
      dutyCycle := e.clock.dutyCycle
      jitterPS := e.sink.jitterPS
      freqErrorPPM := e.sink.freqErrorPPM
      phaseErrorDeg := e.sink.phaseErrorDeg }

/-- `edgeOut.flatMap(e => Seq.fill(e.members.size) { e.sink.name })`. -/
def groupLabels (edgesOut : List ClockGroupEdgeParameters) : List String :=
  labels (fun e => e.sink.name) (fun e => e.members.length) edgesOut

/-- A PLL the factory made, and what it connects its clocks to. -/
structure Pll where
  params : PLLParameters
  clocks : List PllClock
  drives : List (Member × PllClock)

/-- The PLL of one node, `gen` making an instance of the kind. -/
def makePll (kind : Instance) (number : ℕ) (node : PLLNode) : Except String Pll :=
  match node.edgesIn with
  | [edgeIn] =>
    let params : PLLParameters :=
      { name := node.valName
        input :=
          { freqMHz := edgeIn.clock.freqMHz
            jitter := edgeIn.source.jitterPS.getD 50
            feedback := node.feedback }
        req := request node.edgesOut }
    let clocks := getClocks kind number params
    .ok { params, clocks, drives := (outMembers number node.edgesOut).zip clocks }
  | _ => .error "requirement failed"

def makePlls (kind : Instance) (nodes : List PLLNode) : Except String (List Pll) :=
  nodes.zipIdx.mapM fun node => makePll kind node.2 node.1

/-- The clock pins of each label. -/
def sdcGroups (nodes : List PLLNode) (plls : List Pll) : List (String × List PllClock) :=
  groupBy ((nodes.zip plls).flatMap fun made => (groupLabels made.1.edgesOut).zip made.2.clocks)

/-- `plls`, with the groups handed to `sdc.addGroup`. -/
def plls (kind : Instance) (nodes : List PLLNode) : Except String (List Pll × List (String × List PllClock)) := do
  let made ← makePlls kind nodes
  let groups := sdcGroups nodes made
  require (groups.length == (nodes.map fun node => node.edgesOut.length).sum) "requirement failed"
  return (made, groups)

/-! ## The join, row by row

The flattened lists are the columns of one table, with a row for each member. -/

structure Slot where
  member : Member
  edge : ClockEdgeParameters
  label : String

def slots (node : ℕ) (edgesOut : List ClockGroupEdgeParameters) : List Slot :=
  edgesOut.zipIdx.flatMap fun edge =>
    edge.1.members.zipIdx.map fun member => ⟨⟨node, edge.2, member.2⟩, member.1, edge.1.sink.name⟩

theorem map_member_slots (node : ℕ) (edgesOut : List ClockGroupEdgeParameters) :
    (slots node edgesOut).map Slot.member = outMembers node edgesOut := by
  unfold slots outMembers
  rw [List.map_flatMap]
  congr 1
  funext edge
  rw [List.map_map, List.range_eq_range', ← List.zipIdx_map_snd, List.map_map]
  rfl

theorem map_edge_slots (node : ℕ) (edgesOut : List ClockGroupEdgeParameters) :
    (slots node edgesOut).map Slot.edge = edgesOut.flatMap ClockGroupEdgeParameters.members := by
  conv => rhs; rw [← List.zipIdx_map_fst 0 edgesOut, List.flatMap_map]
  unfold slots
  rw [List.map_flatMap]
  congr 1
  funext edge
  rw [List.map_map]
  exact List.zipIdx_map_fst 0 edge.1.members

theorem map_label_slots (node : ℕ) (edgesOut : List ClockGroupEdgeParameters) :
    (slots node edgesOut).map Slot.label = groupLabels edgesOut := by
  conv => rhs; rw [groupLabels, labels, ← List.zipIdx_map_fst 0 edgesOut, List.flatMap_map]
  unfold slots
  rw [List.map_flatMap]
  congr 1
  funext edge
  have size : edge.1.members.zipIdx.length = edge.1.members.length := List.length_zipIdx
  rw [List.map_map, ← size]
  exact List.map_const

theorem mem_slots {node : ℕ} {edgesOut : List ClockGroupEdgeParameters} {s : Slot} :
    s ∈ slots node edgesOut ↔ s.member.node = node ∧ ∃ e, edgesOut[s.member.edge]? = some e ∧
      e.members[s.member.index]? = some s.edge ∧ s.label = e.sink.name := by
  unfold slots
  rw [List.mem_flatMap]
  constructor
  · intro found
    obtain ⟨edge, there, inside⟩ := found
    obtain ⟨member, here, rfl⟩ := List.mem_map.mp inside
    exact ⟨rfl, edge.1, List.mem_zipIdx_iff_getElem?.mp there, List.mem_zipIdx_iff_getElem?.mp here, rfl⟩
  · intro found
    cases s with
    | mk member x label =>
      obtain ⟨rfl, e, there, here, rfl⟩ := found
      exact ⟨(e, member.edge), List.mem_zipIdx_iff_getElem?.mpr there,
        List.mem_map.mpr ⟨(x, member.index), List.mem_zipIdx_iff_getElem?.mpr here, rfl⟩⟩

theorem nodup_outMembers (node : ℕ) (edgesOut : List ClockGroupEdgeParameters) :
    (outMembers node edgesOut).Nodup := by
  unfold outMembers
  apply List.nodup_flatMap.mpr
  constructor
  · intro edge _
    apply List.nodup_range.map
    intro i j same
    exact (Member.mk.inj same).2.2
  · have apart : (edgesOut.zipIdx.map Prod.snd).Nodup := by
      rw [List.zipIdx_map_snd]
      exact List.nodup_range'
    apply (List.pairwise_map.mp apart).imp
    intro e e' different
    apply List.disjoint_left.mpr
    intro m left right
    obtain ⟨i, -, rfl⟩ := List.mem_map.mp left
    obtain ⟨j, -, same⟩ := List.mem_map.mp right
    exact different (Member.mk.inj same).2.1.symm

/-! ## What the factory connects -/

/-- The number of clocks a node is asked for. -/
def PLLNode.total (node : PLLNode) : ℕ := (node.edgesOut.map fun e => e.members.length).sum

theorem length_slots (number : ℕ) (node : PLLNode) : (slots number node.edgesOut).length = node.total := by
  rw [← List.length_map Slot.edge, map_edge_slots, List.length_flatMap, PLLNode.total]

theorem length_request (node : PLLNode) : (request node.edgesOut).length = node.total := by
  rw [request, List.length_map, List.length_flatMap, PLLNode.total]

/-- The outputs of the PLL of a node. -/
def nodeClocks (kind : Instance) (number : ℕ) (node : PLLNode) : List PllClock :=
  (List.range (min node.total kind.outputs)).map fun i => ⟨number, i⟩

theorem getClocks_eq (kind : Instance) (number : ℕ) (c : PLLParameters) :
    getClocks kind number c = (List.range (min c.req.length kind.outputs)).map fun i => ⟨number, i⟩ := by
  unfold getClocks
  induction kind.outputs with
  | zero => rw [Nat.min_zero, List.range_zero, List.filterMap_nil, List.map_nil]
  | succ w ih =>
    rw [List.range_succ, List.filterMap_append, ih]
    by_cases room : c.req.length ≥ w + 1
    · rw [Nat.min_eq_right room, Nat.min_eq_right (Nat.le_of_succ_le room), List.range_succ, List.map_append]
      simp only [List.filterMap_cons, if_pos room, List.filterMap_nil, List.map_cons, List.map_nil]
    · have full : c.req.length ≤ w := Nat.le_of_lt_succ (Nat.lt_of_not_le room)
      rw [Nat.min_eq_left full, Nat.min_eq_left (Nat.le_succ_of_le full)]
      simp only [List.filterMap_cons, if_neg room, List.filterMap_nil, List.append_nil]

/-- Each row of the table with the output it is joined to. -/
def wires (kind : Instance) (nodes : List PLLNode) : List (Slot × PllClock) :=
  nodes.zipIdx.flatMap fun node => (slots node.2 node.1.edgesOut).zip (nodeClocks kind node.2 node.1)

theorem getElem?_nodeClocks {kind : Instance} {number : ℕ} {node : PLLNode} {i : ℕ} {c : PllClock} :
    (nodeClocks kind number node)[i]? = some c ↔ (i < node.total ∧ i < kind.outputs) ∧ c = ⟨number, i⟩ := by
  unfold nodeClocks
  rw [List.getElem?_map, Option.map_eq_some_iff, ← Nat.lt_min]
  constructor
  · intro found
    obtain ⟨j, here, rfl⟩ := found
    obtain ⟨bound, same⟩ := List.getElem?_eq_some_iff.mp here
    rw [List.getElem_range] at same
    rw [List.length_range] at bound
    subst same
    exact ⟨bound, rfl⟩
  · intro found
    obtain ⟨bound, rfl⟩ := found
    exact ⟨i, List.getElem?_range bound, rfl⟩

theorem mem_wires {kind : Instance} {nodes : List PLLNode} {s : Slot} {c : PllClock} :
    (s, c) ∈ wires kind nodes ↔ ∃ node, nodes[c.pll]? = some node ∧ c.output < kind.outputs ∧
      (slots c.pll node.edgesOut)[c.output]? = some s := by
  unfold wires
  rw [List.mem_flatMap]
  constructor
  · intro found
    obtain ⟨node, there, joined⟩ := found
    obtain ⟨i, here⟩ := List.mem_iff_getElem?.mp joined
    obtain ⟨row, port⟩ := List.getElem?_zip_eq_some.mp here
    obtain ⟨bounds, same⟩ := getElem?_nodeClocks.mp port
    dsimp only at row same
    subst same
    exact ⟨node.1, List.mem_zipIdx_iff_getElem?.mp there, bounds.2, row⟩
  · intro found
    obtain ⟨node, there, bound, row⟩ := found
    have total : c.output < node.total := by
      rw [← length_slots c.pll]
      exact (List.getElem?_eq_some_iff.mp row).1
    exact ⟨(node, c.pll), List.mem_zipIdx_iff_getElem?.mpr there, List.mem_iff_getElem?.mpr ⟨c.output,
      List.getElem?_zip_eq_some.mpr ⟨row, getElem?_nodeClocks.mpr ⟨⟨total, bound⟩, rfl⟩⟩⟩⟩

/-- A member has one row. -/
theorem row_unique {number number' i j : ℕ} {node node' : PLLNode} {nodes : List PLLNode} {s s' : Slot}
    (there : nodes[number]? = some node) (row : (slots number node.edgesOut)[i]? = some s)
    (there' : nodes[number']? = some node') (row' : (slots number' node'.edgesOut)[j]? = some s')
    (same : s.member = s'.member) : number = number' ∧ i = j := by
  have numbers : number = number' := by
    rw [← (mem_slots.mp (List.mem_of_getElem? row)).1, same, (mem_slots.mp (List.mem_of_getElem? row')).1]
  subst numbers
  cases there.symm.trans there'
  have distinct := nodup_outMembers number node.edgesOut
  rw [← map_member_slots] at distinct
  constructor
  · rfl
  · apply (List.getElem?_inj _ distinct).mp
    · rw [List.getElem?_map, List.getElem?_map, row, row', Option.map_some, Option.map_some, same]
    · rw [List.length_map]
      exact (List.getElem?_eq_some_iff.mp row).1

/-- A member is joined to at most one output, and an output to at most one member. -/
theorem wires_inj {kind : Instance} {nodes : List PLLNode} {s s' : Slot} {c c' : PllClock}
    (left : (s, c) ∈ wires kind nodes) (right : (s', c') ∈ wires kind nodes) :
    s.member = s'.member ↔ c = c' := by
  obtain ⟨node, there, -, row⟩ := mem_wires.mp left
  obtain ⟨node', there', -, row'⟩ := mem_wires.mp right
  constructor
  · intro same
    obtain ⟨pll, output⟩ := row_unique there row there' row' same
    exact PllClock.ext pll output
  · intro same
    subst same
    cases there.symm.trans there'
    rw [Option.some.inj (row.symm.trans row')]

/-- A column of what a fallible map makes. -/
theorem mapM_column {α β γ : Type} {f : α → Except String β} {g : β → γ} {h : α → γ}
    (column : ∀ a b, f a = .ok b → g b = h a) {as : List α} {bs : List β} (made : as.mapM f = .ok bs) :
    bs.map g = as.map h := by
  induction as generalizing bs with
  | nil =>
    cases made
    rfl
  | cons a as ih =>
    rw [List.mapM_cons] at made
    cases first : f a with
    | error message =>
      rw [first] at made
      cases made
    | ok b =>
      cases rest : as.mapM f with
      | error message =>
        rw [first, rest] at made
        cases made
      | ok bs' =>
        rw [first, rest] at made
        cases made
        rw [List.map_cons, List.map_cons, column a b first, ih rest]

theorem makePll_ok {kind : Instance} {number : ℕ} {node : PLLNode} {pll : Pll}
    (made : makePll kind number node = .ok pll) :
    pll.params.req = request node.edgesOut ∧ pll.clocks = nodeClocks kind number node ∧
      pll.drives = (outMembers number node.edgesOut).zip (nodeClocks kind number node) := by
  unfold makePll at made
  split at made
  · cases made
    simp only [getClocks_eq, length_request, nodeClocks, and_self]
  · cases made

section Made

variable {kind : Instance} {nodes : List PLLNode} {made : List Pll}

theorem request_made (accepted : makePlls kind nodes = .ok made) :
    made.map (fun pll => pll.params.req) = nodes.map fun node => request node.edgesOut := by
  rw [mapM_column (fun _ _ made => (makePll_ok made).1) accepted]
  conv => rhs; rw [← List.zipIdx_map_fst 0 nodes, List.map_map]
  rfl

theorem clocks_made (accepted : makePlls kind nodes = .ok made) :
    made.map Pll.clocks = nodes.zipIdx.map fun node => nodeClocks kind node.2 node.1 :=
  mapM_column (fun _ _ made => (makePll_ok made).2.1) accepted

/-- The factory's connections are the wires, by member. -/
theorem drives_made (accepted : makePlls kind nodes = .ok made) :
    made.flatMap Pll.drives = (wires kind nodes).map fun wire => (wire.1.member, wire.2) := by
  have column := mapM_column (fun _ _ made => (makePll_ok made).2.2) accepted
  rw [List.flatMap_def, column, wires, List.map_flatMap, ← List.flatMap_def]
  congr 1
  funext node
  rw [← map_member_slots, List.zip_map_left]
  rfl

/-- The labelled clocks are the wires, by label. -/
theorem labelled_made (accepted : makePlls kind nodes = .ok made) :
    ((nodes.zip made).flatMap fun pll => (groupLabels pll.1.edgesOut).zip pll.2.clocks) =
      (wires kind nodes).map fun wire => (wire.1.label, wire.2) := by
  have table : (nodes.zip made).map (Prod.map id Pll.clocks) =
      nodes.zipIdx.map fun node => (node.1, nodeClocks kind node.2 node.1) := by
    calc (nodes.zip made).map (Prod.map id Pll.clocks)
        = nodes.zip (made.map Pll.clocks) := List.zip_map_right.symm
      _ = (nodes.zipIdx.map Prod.fst).zip (nodes.zipIdx.map fun node => nodeClocks kind node.2 node.1) := by
        rw [clocks_made accepted, List.zipIdx_map_fst]
      _ = nodes.zipIdx.map fun node => (node.1, nodeClocks kind node.2 node.1) := List.zip_map'
  calc ((nodes.zip made).flatMap fun pll => (groupLabels pll.1.edgesOut).zip pll.2.clocks)
      = ((nodes.zip made).map (Prod.map id Pll.clocks)).flatMap fun pll => (groupLabels pll.1.edgesOut).zip pll.2 := by
        rw [List.flatMap_map]
        rfl
    _ = nodes.zipIdx.flatMap fun node => (groupLabels node.1.edgesOut).zip (nodeClocks kind node.2 node.1) := by
        rw [table, List.flatMap_map]
    _ = (wires kind nodes).map fun wire => (wire.1.label, wire.2) := by
        rw [wires, List.map_flatMap]
        congr 1
        funext node
        rw [← map_label_slots node.2, List.zip_map_left]
        rfl

theorem mem_drives (accepted : makePlls kind nodes = .ok made) {m : Member} {c : PllClock} :
    (m, c) ∈ made.flatMap Pll.drives ↔ ∃ s, s.member = m ∧ (s, c) ∈ wires kind nodes := by
  rw [drives_made accepted, List.mem_map]
  constructor
  · intro found
    obtain ⟨wire, mem, same⟩ := found
    cases same
    exact ⟨wire.1, rfl, mem⟩
  · intro found
    obtain ⟨s, rfl, mem⟩ := found
    exact ⟨(s, c), mem, rfl⟩

/-- Every output the PLLs have is joined to a row. -/
theorem mem_clocks (accepted : makePlls kind nodes = .ok made) {c : PllClock} :
    c ∈ made.flatMap Pll.clocks ↔ ∃ s, (s, c) ∈ wires kind nodes := by
  rw [List.flatMap_def, clocks_made accepted, ← List.flatMap_def, List.mem_flatMap]
  constructor
  · intro found
    obtain ⟨node, there, port⟩ := found
    obtain ⟨i, here⟩ := List.mem_iff_getElem?.mp port
    obtain ⟨⟨total, bound⟩, rfl⟩ := getElem?_nodeClocks.mp here
    rw [← length_slots node.2] at total
    exact ⟨_, mem_wires.mpr ⟨node.1, List.mem_zipIdx_iff_getElem?.mp there, bound, List.getElem?_eq_getElem total⟩⟩
  · intro found
    obtain ⟨s, wired⟩ := found
    obtain ⟨node, there, bound, row⟩ := mem_wires.mp wired
    have total := (List.getElem?_eq_some_iff.mp row).1
    rw [length_slots] at total
    exact ⟨(node, c.pll), List.mem_zipIdx_iff_getElem?.mpr there,
      List.mem_iff_getElem?.mpr ⟨c.output, getElem?_nodeClocks.mpr ⟨⟨total, bound⟩, rfl⟩⟩⟩

end Made

/-- The factory accepts when every node has one input and the groups are as many as the output edges. -/
theorem plls_ok_iff {kind : Instance} {nodes : List PLLNode} {made : List Pll}
    {groups : List (String × List PllClock)} :
    plls kind nodes = .ok (made, groups) ↔ makePlls kind nodes = .ok made ∧ groups = sdcGroups nodes made ∧
      groups.length = (nodes.map fun node => node.edgesOut.length).sum := by
  unfold plls
  cases makePlls kind nodes with
  | error message =>
    constructor
    · intro accepted
      cases accepted
    · intro accepted
      cases accepted.1
  | ok others =>
    change (require _ _ >>= fun _ => Except.ok (others, sdcGroups nodes others)) = _ ↔ _
    rw [require_bind_ok, beq_iff_eq]
    constructor
    · intro accepted
      obtain ⟨count, same⟩ := accepted
      cases same
      exact ⟨rfl, rfl, count⟩
    · intro accepted
      obtain ⟨same, rfl, count⟩ := accepted
      cases same
      exact ⟨count, rfl⟩

end Zcu102.Clocks
