import Zcu102.Clocks.PllFactory

/-!
# Every requested clock is generated

A member is driven when its place in the flattened list of its node is below the
number of ports of the PLL. `maxOutputs` is not compared with anything, so a node may
ask for more; the factory accepts it as long as the members left over share their
label with one that is driven.
-/

namespace Zcu102.Clocks
set_option autoImplicit false

/-- The parameters of a member of an output edge, if there is such a member. -/
def Member.params (nodes : List PLLNode) (m : Member) : Option ClockEdgeParameters :=
  nodes[m.node]?.bind fun node => node.edgesOut[m.edge]?.bind fun e => e.members[m.index]?

structure Generated (nodes : List PLLNode) (made : List Pll) : Prop where
  /-- Each member is driven by exactly one output. -/
  driven : ∀ m x, m.params nodes = some x → ∃! c, (m, c) ∈ made.flatMap Pll.drives
  /-- Distinct members are driven by distinct outputs. -/
  distinct : ∀ m m' c, (m, c) ∈ made.flatMap Pll.drives → (m', c) ∈ made.flatMap Pll.drives → m = m'
  /-- What is requested for the output is what the member asks for. -/
  requested : ∀ m c, (m, c) ∈ made.flatMap Pll.drives → ∃ x pll r, m.params nodes = some x ∧
    made[c.pll]? = some pll ∧ c ∈ pll.clocks ∧ pll.params.req[c.output]? = some r ∧
      r.freqMHz = x.clock.freqMHz ∧ r.phaseDeg = x.sink.phaseDeg ∧ r.dutyCycle = x.clock.dutyCycle

theorem params_eq_some {nodes : List PLLNode} {m : Member} {x : ClockEdgeParameters} :
    m.params nodes = some x ↔
      ∃ node s, nodes[m.node]? = some node ∧ s ∈ slots m.node node.edgesOut ∧ s.member = m ∧ s.edge = x := by
  unfold Member.params
  rw [Option.bind_eq_some_iff]
  constructor
  · intro found
    obtain ⟨node, there, found⟩ := found
    obtain ⟨e, edge, index⟩ := Option.bind_eq_some_iff.mp found
    exact ⟨node, ⟨m, x, e.sink.name⟩, there, mem_slots.mpr ⟨rfl, e, edge, index, rfl⟩, rfl, rfl⟩
  · intro found
    obtain ⟨node, s, there, row, rfl, rfl⟩ := found
    obtain ⟨-, e, edge, index, -⟩ := mem_slots.mp row
    exact ⟨node, there, Option.bind_eq_some_iff.mpr ⟨e, edge, index⟩⟩

section Generated

variable {kind : Instance} {nodes : List PLLNode} {made : List Pll}

/-- A member is driven exactly when its place in the flattened list is below the number of ports. -/
theorem driven_iff (accepted : makePlls kind nodes = .ok made) {node : PLLNode} {number i : ℕ} {s : Slot}
    (there : nodes[number]? = some node) (row : (slots number node.edgesOut)[i]? = some s) :
    (∃ c, (s.member, c) ∈ made.flatMap Pll.drives) ↔ i < kind.outputs := by
  constructor
  · intro driven
    obtain ⟨c, drives⟩ := driven
    obtain ⟨s', same, wired⟩ := (mem_drives accepted).mp drives
    obtain ⟨node', there', bound, row'⟩ := mem_wires.mp wired
    obtain ⟨-, rfl⟩ := row_unique there' row' there row same
    exact bound
  · intro bound
    exact ⟨⟨number, i⟩, (mem_drives accepted).mpr ⟨s, rfl, mem_wires.mpr ⟨node, there, bound, row⟩⟩⟩

theorem made_at (accepted : makePlls kind nodes = .ok made) {number : ℕ} {node : PLLNode}
    (there : nodes[number]? = some node) : ∃ pll, made[number]? = some pll ∧
      pll.params.req = request node.edgesOut ∧ pll.clocks = nodeClocks kind number node := by
  have req := congrArg (fun column => column[number]?) (request_made accepted)
  have clocks := congrArg (fun column => column[number]?) (clocks_made accepted)
  simp only [List.getElem?_map, List.getElem?_zipIdx, there, Option.map_some, Nat.zero_add] at req clocks
  obtain ⟨pll, here, same⟩ := Option.map_eq_some_iff.mp req
  rw [here, Option.map_some] at clocks
  exact ⟨pll, here, same, Option.some.inj clocks⟩

theorem request_at {number i : ℕ} {edgesOut : List ClockGroupEdgeParameters} {s : Slot}
    (row : (slots number edgesOut)[i]? = some s) : ∃ r, (request edgesOut)[i]? = some r ∧
      r.freqMHz = s.edge.clock.freqMHz ∧ r.phaseDeg = s.edge.sink.phaseDeg ∧ r.dutyCycle = s.edge.clock.dutyCycle := by
  rw [request, ← map_edge_slots number, List.getElem?_map, List.getElem?_map, row, Option.map_some, Option.map_some]
  exact ⟨_, rfl, rfl, rfl, rfl⟩

theorem generated_of_fits (accepted : makePlls kind nodes = .ok made)
    (fits : ∀ node ∈ nodes, node.total ≤ kind.outputs) : Generated nodes made where
  driven m x asked := by
    obtain ⟨node, s, there, mem, rfl, rfl⟩ := params_eq_some.mp asked
    obtain ⟨i, row⟩ := List.mem_iff_getElem?.mp mem
    have total := (List.getElem?_eq_some_iff.mp row).1
    rw [length_slots] at total
    have bound : i < kind.outputs := Nat.lt_of_lt_of_le total (fits node (List.mem_of_getElem? there))
    obtain ⟨c, drives⟩ := (driven_iff accepted there row).mpr bound
    apply ExistsUnique.intro c drives
    intro c' drives'
    obtain ⟨s₁, same, wired⟩ := (mem_drives accepted).mp drives
    obtain ⟨s₂, same', wired'⟩ := (mem_drives accepted).mp drives'
    exact (wires_inj wired' wired).mp (same'.trans same.symm)
  distinct m m' c left right := by
    obtain ⟨s, rfl, wired⟩ := (mem_drives accepted).mp left
    obtain ⟨s', rfl, wired'⟩ := (mem_drives accepted).mp right
    exact (wires_inj wired wired').mpr rfl
  requested m c drives := by
    obtain ⟨s, rfl, wired⟩ := (mem_drives accepted).mp drives
    obtain ⟨node, there, bound, row⟩ := mem_wires.mp wired
    have number := (mem_slots.mp (List.mem_of_getElem? row)).1
    obtain ⟨pll, here, req, clocks⟩ := made_at accepted there
    obtain ⟨r, asked, freq, phase, duty⟩ := request_at row
    have total := (List.getElem?_eq_some_iff.mp row).1
    rw [length_slots] at total
    have port : c ∈ pll.clocks := by
      rw [clocks]
      exact List.mem_of_getElem? (getElem?_nodeClocks.mpr ⟨⟨total, bound⟩, rfl⟩)
    have params := params_eq_some.mpr ⟨node, s, number.symm ▸ there, number.symm ▸ List.mem_of_getElem? row, rfl, rfl⟩
    exact ⟨s.edge, pll, r, params, here, port, req ▸ asked, freq, phase, duty⟩

/-- A node asked for more clocks than there are ports leaves the first of the rest undriven. -/
theorem fits_of_driven (accepted : makePlls kind nodes = .ok made)
    (driven : ∀ m x, m.params nodes = some x → ∃ c, (m, c) ∈ made.flatMap Pll.drives) :
    ∀ node ∈ nodes, node.total ≤ kind.outputs := by
  intro node mem
  obtain ⟨number, there⟩ := List.mem_iff_getElem?.mp mem
  by_contra exceeds
  have inside : kind.outputs < (slots number node.edgesOut).length := by
    rw [length_slots]
    omega
  have row := List.getElem?_eq_getElem inside
  have member := (mem_slots.mp (List.mem_of_getElem? row)).1
  have asked := params_eq_some.mpr ⟨node, _, member.symm ▸ there, member.symm ▸ List.mem_of_getElem? row, rfl, rfl⟩
  have below := (driven_iff accepted there row).mp (driven _ _ asked)
  omega

/-- **Every requested clock is generated**, exactly when no node asks for more clocks than its PLL has ports. -/
theorem generated_iff {groups : List (String × List PllClock)} (accepted : plls kind nodes = .ok (made, groups)) :
    Generated nodes made ↔ ∀ node ∈ nodes, node.total ≤ kind.outputs := by
  obtain ⟨accepted, -⟩ := plls_ok_iff.mp accepted
  constructor
  · intro generated
    apply fits_of_driven accepted
    intro m x asked
    obtain ⟨c, drives, -⟩ := generated.driven m x asked
    exact ⟨c, drives⟩
  · intro fits
    exact generated_of_fits accepted fits

end Generated

/-- A clock of 100 MHz. -/
def clock100 : ClockParameters where
  freqMHz := 100
  freq_pos := by decide
  duty_pos := by decide
  duty_lt := by decide

def sink100 : ClockSinkParameters where
  take := some clock100
  phase_nonneg := by decide
  freq_nonneg := by decide

def input100 : ClockEdgeParameters := memberEdge sink100 rfl

/-- A group of `n` such clocks. -/
def edgeOf (name : String) (n : ℕ) : ClockGroupEdgeParameters :=
  ⟨⟨name, List.replicate n sink100⟩, fun s mem => by rw [List.eq_of_mem_replicate mem]; rfl⟩

def nodeOf (n : ℕ) : PLLNode where
  valName := "pll"
  feedback := false
  edgesIn := [input100]
  edgesOut := [edgeOf "core" n]

theorem generated_two : ∃ made groups, plls .series7MMCM [nodeOf 2] = .ok (made, groups) ∧
    Generated [nodeOf 2] made := by
  have accepted : plls .series7MMCM [nodeOf 2] = .ok (_, _) := rfl
  refine ⟨_, _, accepted, (generated_iff accepted).mpr fun node mem => ?_⟩
  rw [List.mem_singleton.mp mem]
  decide

/-- Eight clocks of one group are accepted, and the eighth is not driven. -/
theorem eight_not_generated : ∃ made groups, plls .series7MMCM [nodeOf 8] = .ok (made, groups) ∧
    ¬ Generated [nodeOf 8] made := by
  have accepted : plls .series7MMCM [nodeOf 8] = .ok (_, _) := rfl
  refine ⟨_, _, accepted, fun generated => ?_⟩
  have fits := fits_of_driven (plls_ok_iff.mp accepted).1 fun m x asked => (generated.driven m x asked).exists
  exact absurd (fits (nodeOf 8) List.mem_cons_self) (by decide)

end Zcu102.Clocks
