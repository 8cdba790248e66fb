import Mathlib.Data.List.FinRange
import Zcu102.Shell.Diplomacy
import Zcu102.Sim.Places

/-!
# The pins of an interface (`IOPin.of`)

`getDataElements` lists the elements of a data tree depth first, the fields of a bundle
from the last to the first but the elements of a vector from the first to the last.
`IOPin.of` reverses the whole list. That puts the fields of every bundle back into the
order of declaration, and takes the elements of every vector out of it.

An element is known by its place in the tree: the number of each field in its bundle and
of each element in its vector.
-/

namespace Zcu102.Pins
set_option autoImplicit false
open Zcu102.Sim
open Zcu102.Shell (require require_bind_ok)

/-! ## Data trees -/

/-- A data tree of Chisel; the width of an element may not be known. -/
inductive Data where
  | element (width : Option ℕ)
  | bundle (fields : List Data)
  | vec (elements : List Data)

structure Element where
  place : Place
  width : Option ℕ
  deriving DecidableEq, Repr

def Element.under (i : ℕ) (e : Element) : Element := { e with place := i :: e.place }

mutual
/-- `getDataElements`. -/
def Data.getDataElements : Data → List Element
  | .element width => [⟨[], width⟩]
  | .bundle fields => fieldElements 0 fields
  | .vec elements => vecElements 0 elements

/-- The fields of a bundle from number `i` on, the last one first. -/
def fieldElements (i : ℕ) : List Data → List Element
  | [] => []
  | field :: rest => fieldElements (i + 1) rest ++ field.getDataElements.map (Element.under i)

/-- The elements of a vector from number `i` on. -/
def vecElements (i : ℕ) : List Data → List Element
  | [] => []
  | element :: rest => element.getDataElements.map (Element.under i) ++ vecElements (i + 1) rest
end

/-- `IOPin(element, index)`, with its two requires. -/
structure IOPin where
  element : Element
  index : ℕ
  known : element.width.isSome
  inside : index < element.width.get known
  deriving DecidableEq

/-- `Seq.tabulate(width.get) { i => IOPin(elt, i) }`. -/
def Element.bits (e : Element) : List IOPin :=
  if known : e.width.isSome then
    (List.finRange (e.width.get known)).map fun i : Fin (e.width.get known) => ⟨e, i.val, known, i.isLt⟩
  else []

def Element.pins (e : Element) : Except String (List IOPin) := do
  require e.width.isSome "requirement failed"
  return e.bits

def IOPin.of (x : Data) : Except String (List IOPin) := do
  let elts : List Element := match x with
    | .element width => [⟨[], width⟩]
    | .bundle _ => x.getDataElements.reverse
    | .vec _ => x.getDataElements.reverse
  let pins ← elts.mapM Element.pins
  return pins.flatten

/-! ## Bits of a tree -/

def Data.children : Data → List Data
  | .element _ => []
  | .bundle fields => fields
  | .vec elements => elements

/-- What stands at a place. -/
def Data.sub : Data → Place → Option Data
  | x, [] => some x
  | x, i :: p => x.children[i]?.bind fun y => y.sub p

/-- A pin is a bit of an element of the tree. -/
def Data.Has (x : Data) (pin : IOPin) : Prop := x.sub pin.element.place = some (.element pin.element.width)

def Data.HasBits (x : Data) : Prop := ∃ pin, x.Has pin

/-- A condition at every place of a tree. -/
def Data.Everywhere (P : Data → Prop) (x : Data) : Prop := ∀ p y, x.sub p = some y → P y

/-- Every width is known. -/
def Data.Known (x : Data) : Prop := x.Everywhere (· ≠ .element none)

/-- Of two elements of a vector at most one has bits. -/
def Data.Single : Data → Prop
  | .element _ => True
  | .bundle _ => True
  | .vec elements => elements.Pairwise fun a b => ¬ (a.HasBits ∧ b.HasBits)

/-- No vector of the tree has bits in two of its elements. -/
def Data.Straight (x : Data) : Prop := x.Everywhere Data.Single

/-- The place of a bit. -/
def IOPin.place (pin : IOPin) : Place := pin.element.place ++ [pin.index]

/-- The order of declaration: fields as they are declared, elements of a vector by their index, bits from 0 on. -/
def IOPin.Before (pin pin' : IOPin) : Prop := pin.place < pin'.place

instance (pin pin' : IOPin) : Decidable (pin.Before pin') := inferInstanceAs (Decidable (_ < _))

structure EachOnce (x : Data) (pins : List IOPin) : Prop where
  nodup : pins.Nodup
  mem_iff : ∀ pin, pin ∈ pins ↔ x.Has pin

/-- Every bit once, in the order of declaration: joined with the names of a board's pins, the `k`th name goes to the
bit that `k` others come before. -/
structure Enumerates (x : Data) (pins : List IOPin) : Prop extends EachOnce x pins where
  ordered : pins.Pairwise IOPin.Before
  assigned : ∀ (board : List String) (k : ℕ) (pin : IOPin) (name : String),
    (pins.zip board)[k]? = some (pin, name) ↔
      x.Has pin ∧ pins.countP (fun other => decide (other.Before pin)) = k ∧ board[k]? = some name

/-! ## Trees -/

/-- Induction over a tree, with its hypothesis for every child. -/
@[induction_eliminator]
theorem Data.tree_induction {P : Data → Prop} (element : ∀ width, P (.element width))
    (bundle : ∀ fields, (∀ y ∈ fields, P y) → P (.bundle fields))
    (vec : ∀ elements, (∀ y ∈ elements, P y) → P (.vec elements)) (x : Data) : P x :=
  @Data.rec P (fun xs => ∀ y ∈ xs, P y) element bundle vec (fun _ mem => absurd mem List.not_mem_nil)
    (fun _ _ first later => List.forall_mem_cons.mpr ⟨first, later⟩) x

theorem Data.sub_cons (x : Data) (i : ℕ) (p : Place) : x.sub (i :: p) = x.children[i]?.bind fun y => y.sub p := by
  rw [Data.sub]

theorem Data.everywhere_iff {P : Data → Prop} {x : Data} :
    x.Everywhere P ↔ P x ∧ ∀ y ∈ x.children, y.Everywhere P := by
  constructor
  · intro all
    refine ⟨all [] x (by rw [Data.sub]), fun y mem p z there => ?_⟩
    obtain ⟨i, here⟩ := List.mem_iff_getElem?.mp mem
    apply all (i :: p) z
    rw [Data.sub_cons, here, Option.bind_some, there]
  · intro all p y there
    cases p with
    | nil =>
      rw [Data.sub] at there
      cases there
      exact all.1
    | cons i p =>
      rw [Data.sub_cons] at there
      obtain ⟨z, here, below⟩ := Option.bind_eq_some_iff.mp there
      exact all.2 z (List.mem_of_getElem? here) p y below

theorem Data.everywhere_element {P : Data → Prop} {width : Option ℕ} (here : P (.element width)) :
    (Data.element width).Everywhere P :=
  Data.everywhere_iff.mpr ⟨here, fun _ mem => absurd mem List.not_mem_nil⟩

/-! ## Elements -/

theorem mem_fieldElements {i : ℕ} {xs : List Data} {e : Element} : e ∈ fieldElements i xs ↔ e ∈ vecElements i xs := by
  induction xs generalizing i with
  | nil => rw [fieldElements, vecElements]
  | cons x xs ih => rw [fieldElements, vecElements, List.mem_append, List.mem_append, ih, or_comm]

theorem vecElements_eq (i : ℕ) (xs : List Data) :
    vecElements i xs = (xs.zipIdx i).flatMap fun x => x.1.getDataElements.map (Element.under x.2) := by
  induction xs generalizing i with
  | nil =>
    rw [vecElements]
    rfl
  | cons x xs ih => rw [vecElements, ih, List.zipIdx_cons, List.flatMap_cons]

theorem mem_vecElements {xs : List Data} {e : Element} :
    e ∈ vecElements 0 xs ↔ ∃ (k : ℕ) (y : Data), xs[k]? = some y ∧ ∃ e' ∈ y.getDataElements, e'.under k = e := by
  rw [vecElements_eq, mem_numbered (f := fun k (y : Data) => y.getDataElements.map (Element.under k))]
  simp only [Nat.zero_add, List.mem_map]

/-- The elements below the children of an aggregate. -/
theorem mem_below {x : Data} (aggregate : ∀ width, x ≠ .element width)
    (ih : ∀ y ∈ x.children, ∀ e, e ∈ y.getDataElements ↔ y.sub e.place = some (.element e.width)) (e : Element) :
    e ∈ vecElements 0 x.children ↔ x.sub e.place = some (.element e.width) := by
  rw [mem_vecElements]
  constructor
  · intro found
    obtain ⟨k, y, there, e', mem, rfl⟩ := found
    rw [Element.under, Data.sub_cons, there, Option.bind_some]
    exact (ih y (List.mem_of_getElem? there) e').mp mem
  · intro there
    obtain ⟨place, width⟩ := e
    cases place with
    | nil =>
      rw [Data.sub] at there
      exact absurd (Option.some.inj there) (aggregate width)
    | cons k p =>
      rw [Data.sub_cons] at there
      obtain ⟨y, here, below⟩ := Option.bind_eq_some_iff.mp there
      exact ⟨k, y, here, ⟨p, width⟩, (ih y (List.mem_of_getElem? here) _).mpr below, rfl⟩

/-- `getDataElements` lists the elements of the tree. -/
theorem mem_getDataElements (x : Data) (e : Element) :
    e ∈ x.getDataElements ↔ x.sub e.place = some (.element e.width) := by
  induction x generalizing e with
  | element width =>
    rw [Data.getDataElements, List.mem_singleton]
    obtain ⟨place, width'⟩ := e
    cases place with
    | nil => simp [Data.sub, eq_comm]
    | cons i p => simp [Data.sub, Data.children]
  | bundle fields ih =>
    rw [Data.getDataElements, mem_fieldElements]
    exact mem_below (x := .bundle fields) (fun width same => by cases same) ih e
  | vec elements ih =>
    rw [Data.getDataElements]
    exact mem_below (x := .vec elements) (fun width same => by cases same) ih e

/-! ## Bits -/

theorem mem_bits {e : Element} {pin : IOPin} : pin ∈ e.bits ↔ pin.element = e := by
  unfold Element.bits
  constructor
  · intro mem
    by_cases known : e.width.isSome
    · rw [dif_pos known] at mem
      obtain ⟨i, -, rfl⟩ := List.mem_map.mp mem
      rfl
    · rw [dif_neg known] at mem
      exact absurd mem List.not_mem_nil
  · intro same
    subst same
    rw [dif_pos pin.known]
    exact List.mem_map.mpr ⟨⟨pin.index, pin.inside⟩, List.mem_finRange _, rfl⟩

theorem places_bits (e : Element) :
    e.bits.map IOPin.place = (List.range (e.width.getD 0)).map fun k => e.place ++ [k] := by
  obtain ⟨place, width⟩ := e
  cases width with
  | none => rfl
  | some width =>
    have bits : (⟨place, some width⟩ : Element).bits =
        (List.finRange width).map fun i : Fin width => ⟨⟨place, some width⟩, i.val, rfl, i.isLt⟩ := rfl
    rw [bits, List.map_map, Option.getD_some, ← List.map_coe_finRange_eq_range, List.map_map]
    rfl

/-- The bits of a tree as `IOPin.of` lists them. -/
def Data.listed (x : Data) : List IOPin := x.getDataElements.reverse.flatMap Element.bits

theorem mem_listed {x : Data} {pin : IOPin} : pin ∈ x.listed ↔ x.Has pin := by
  unfold Data.listed
  rw [List.mem_flatMap, Data.Has, ← mem_getDataElements]
  constructor
  · intro found
    obtain ⟨e, mem, bit⟩ := found
    rw [mem_bits.mp bit]
    exact List.mem_reverse.mp mem
  · intro mem
    exact ⟨pin.element, List.mem_reverse.mpr mem, mem_bits.mpr rfl⟩

def Data.places (x : Data) : List Place := x.listed.map IOPin.place

theorem places_element (width : Option ℕ) :
    (Data.element width).places = (List.range (width.getD 0)).map fun k => [k] := by
  rw [Data.places, Data.listed, Data.getDataElements, List.reverse_singleton, List.flatMap_singleton, places_bits]
  rfl

/-- The places of a list of elements, all under one child. -/
theorem places_under (i : ℕ) (es : List Element) :
    ((es.map (Element.under i)).flatMap Element.bits).map IOPin.place =
      ((es.flatMap Element.bits).map IOPin.place).map (i :: ·) := by
  rw [List.flatMap_map, List.map_flatMap, List.map_flatMap, List.map_flatMap]
  congr 1
  funext e
  rw [places_bits, places_bits, List.map_map]
  rfl

theorem places_bundle (fields : List Data) : (Data.bundle fields).places = ascending 0 (fields.map Data.places) := by
  -- Reversing the list puts the blocks of the fields in order and reverses each of them, as `places` of a field does.
  have numbered (i : ℕ) : ((fieldElements i fields).reverse.flatMap Element.bits).map IOPin.place =
      ascending i (fields.map Data.places) := by
    induction fields generalizing i with
    | nil =>
      rw [fieldElements]
      rfl
    | cons field rest ih =>
      rw [fieldElements, List.reverse_append, ← List.map_reverse, List.flatMap_append, List.map_append, places_under, ih]
      rfl
  rw [Data.places, Data.listed, Data.getDataElements, numbered]

theorem places_vec (elements : List Data) : (Data.vec elements).places = descending 0 (elements.map Data.places) := by
  -- Here the blocks were in order before the reversal.
  have numbered (i : ℕ) : ((vecElements i elements).reverse.flatMap Element.bits).map IOPin.place =
      descending i (elements.map Data.places) := by
    induction elements generalizing i with
    | nil =>
      rw [vecElements]
      rfl
    | cons element rest ih =>
      rw [vecElements, List.reverse_append, ← List.map_reverse, List.flatMap_append, List.map_append, places_under, ih]
      rfl
  rw [Data.places, Data.listed, Data.getDataElements, numbered]

theorem places_eq_nil_iff (x : Data) : x.places = [] ↔ ¬ x.HasBits := by
  rw [Data.places, List.map_eq_nil_iff, List.eq_nil_iff_forall_not_mem, Data.HasBits, not_exists]
  simp only [mem_listed]

/-! ## Order -/

theorem nodup_places (x : Data) : x.places.Nodup := by
  induction x with
  | element width =>
    rw [places_element]
    exact List.nodup_range.map fun k k' same => List.head_eq_of_cons_eq same
  | bundle fields ih =>
    rw [places_bundle]
    exact nodup_ascending (List.forall_mem_map.mpr ih) 0
  | vec elements ih =>
    rw [places_vec]
    exact (descending_perm 0 _).nodup_iff.mpr (nodup_ascending (List.forall_mem_map.mpr ih) 0)

/-- The places of a tree come in order exactly when no vector has two elements with bits. -/
theorem sorted_places_iff (x : Data) : x.places.Pairwise (· < ·) ↔ x.Straight := by
  induction x with
  | element width =>
    have sorted : (Data.element width).places.Pairwise (· < ·) := by
      rw [places_element, List.pairwise_map]
      apply List.pairwise_lt_range.imp
      intro k k' before
      exact List.cons_lt_cons_iff.mpr (Or.inl before)
    exact ⟨fun _ => Data.everywhere_element trivial, fun _ => sorted⟩
  | bundle fields ih =>
    rw [places_bundle, sorted_ascending_iff, List.forall_mem_map, Data.Straight, Data.everywhere_iff]
    exact ⟨fun sorted => ⟨trivial, fun y mem => (ih y mem).mp (sorted y mem)⟩,
      fun straight y mem => (ih y mem).mpr (straight.2 y mem)⟩
  | vec elements ih =>
    have single : (Data.vec elements).Single ↔
        (elements.map Data.places).Pairwise fun block later => block = [] ∨ later = [] := by
      rw [List.pairwise_map, Data.Single]
      simp only [places_eq_nil_iff, not_and_or]
    rw [places_vec, sorted_descending_iff, List.forall_mem_map, Data.Straight, Data.everywhere_iff, single, and_comm]
    exact and_congr_right fun _ => forall₂_congr ih

/-! ## What `IOPin.of` returns -/

theorem pins_known {e : Element} (known : e.width.isSome) : e.pins = .ok e.bits := by
  rw [Element.pins, require_bind_ok]
  exact ⟨known, rfl⟩

theorem mapM_pins {es : List Element} (known : ∀ e ∈ es, e.width.isSome) :
    es.mapM Element.pins = .ok (es.map Element.bits) := by
  induction es with
  | nil => rfl
  | cons e es ih =>
    obtain ⟨first, later⟩ := List.forall_mem_cons.mp known
    rw [List.mapM_cons, pins_known first, ih later]
    rfl

theorem width_isSome {x : Data} (known : x.Known) {e : Element} (mem : e ∈ x.getDataElements) : e.width.isSome := by
  have there := (mem_getDataElements x e).mp mem
  rw [Option.isSome_iff_ne_none]
  intro unknown
  rw [unknown] at there
  exact known _ _ there rfl

/-- The elements are enumerated in the reverse order also when there is only one. -/
theorem of_eq (x : Data) :
    IOPin.of x = (x.getDataElements.reverse.mapM Element.pins >>= fun pins => .ok pins.flatten) := by
  cases x with
  | element width =>
    rw [Data.getDataElements]
    rfl
  | bundle fields => rfl
  | vec elements => rfl

/-- When every width is known, no require fails. -/
theorem of_known {x : Data} (known : x.Known) : IOPin.of x = .ok x.listed := by
  have widths : ∀ e ∈ x.getDataElements.reverse, e.width.isSome :=
    fun e mem => width_isSome known (List.mem_reverse.mp mem)
  rw [of_eq, mapM_pins widths, Data.listed, List.flatMap_def]
  rfl

theorem eachOnce_listed (x : Data) : EachOnce x x.listed where
  nodup := List.Nodup.of_map _ (nodup_places x)
  mem_iff := fun _ => mem_listed

theorem ordered_iff (x : Data) : x.listed.Pairwise IOPin.Before ↔ x.Straight := by
  rw [← sorted_places_iff, Data.places, List.pairwise_map]
  rfl

/-- In a list in order, as many pins come before one as stand before it. -/
theorem countP_before {pins : List IOPin} (ordered : pins.Pairwise IOPin.Before) {k : ℕ} {pin : IOPin}
    (there : pins[k]? = some pin) : pins.countP (fun other => decide (other.Before pin)) = k := by
  have sorted : (pins.map IOPin.place).Pairwise (· < ·) := List.pairwise_map.mpr ordered
  have placed : (pins.map IOPin.place)[k]? = some pin.place := by
    rw [List.getElem?_map, there, Option.map_some]
  rw [← countP_lt_of_sorted sorted placed, List.countP_map]
  rfl

theorem getElem?_iff_countP {pins : List IOPin} (ordered : pins.Pairwise IOPin.Before) {k : ℕ} {pin : IOPin} :
    pins[k]? = some pin ↔ pin ∈ pins ∧ pins.countP (fun other => decide (other.Before pin)) = k := by
  constructor
  · intro there
    exact ⟨List.mem_of_getElem? there, countP_before ordered there⟩
  · intro ⟨mem, rank⟩
    obtain ⟨j, there⟩ := List.mem_iff_getElem?.mp mem
    rw [← rank, countP_before ordered there, there]

theorem enumerates_iff (x : Data) : Enumerates x x.listed ↔ x.Straight := by
  constructor
  · intro enumerates
    exact (ordered_iff x).mp enumerates.ordered
  · intro straight
    have ordered := (ordered_iff x).mpr straight
    refine { eachOnce_listed x with ordered := ordered, assigned := ?_ }
    intro board k pin name
    rw [List.getElem?_zip_eq_some, getElem?_iff_countP ordered, mem_listed, and_assoc]

/-! ## Two interfaces

The pads of the memory controller are a bundle of elements; the PMOD connector has a vector.
-/

/-- The fields of `ZCU102MIGIODDR`: adr, bg, ba, reset_n, act_n, ck_c, ck_t, cke, cs_n, odt, dq, dqs_c, dqs_t,
dm_dbi_n. -/
def ddrWidths : List ℕ := [17, 1, 2, 1, 1, 1, 1, 1, 1, 1, 16, 2, 2, 2]

/-- A bundle of elements. -/
def Data.flat (widths : List ℕ) : Data := .bundle (widths.map fun width => .element (some width))

def ddrPads : Data := .flat ddrWidths

/-- `PMODPortIO`. -/
def pmodPortIo : Data := .bundle [.vec (List.replicate 8 (.element (some 1)))]

theorem Data.everywhere_flat {P : Data → Prop} {widths : List ℕ} (bundle : P (.flat widths))
    (elements : ∀ width, P (.element (some width))) : (Data.flat widths).Everywhere P := by
  refine Data.everywhere_iff.mpr ⟨bundle, ?_⟩
  exact List.forall_mem_map.mpr fun width _ => Data.everywhere_element (elements width)

theorem Data.flat_known (widths : List ℕ) : (Data.flat widths).Known :=
  Data.everywhere_flat (fun same => by cases same) (fun _ same => by cases same)

theorem Data.flat_straight (widths : List ℕ) : (Data.flat widths).Straight :=
  Data.everywhere_flat trivial (fun _ => trivial)

theorem pmodPortIo_known : pmodPortIo.Known := by
  refine Data.everywhere_iff.mpr ⟨(fun same => by cases same), List.forall_mem_singleton.mpr ?_⟩
  refine Data.everywhere_iff.mpr ⟨(fun same => by cases same), fun y mem => ?_⟩
  rw [List.eq_of_mem_replicate mem]
  exact Data.everywhere_element fun same => by cases same

/-- The eight bits of the connector come from the last to the first. -/
theorem places_pmodPortIo : pmodPortIo.places = (List.range 8).map fun k => [0, 7 - k, 0] := by
  decide

/-! ## The order of the pins -/

/-- **Every bit of a tree is listed exactly once, and in the order of declaration exactly when no vector of the tree
has bits in two of its elements**. -/
theorem pins_in_order_iff (x : Data) (known : x.Known) :
    ∃ pins, IOPin.of x = .ok pins ∧ EachOnce x pins ∧ (Enumerates x pins ↔ x.Straight) :=
  ⟨x.listed, of_known known, eachOnce_listed x, enumerates_iff x⟩

theorem pins_in_order_ddr : ddrPads.Known ∧ ∃ pins, IOPin.of ddrPads = .ok pins ∧ Enumerates ddrPads pins := by
  have known : ddrPads.Known := Data.flat_known ddrWidths
  obtain ⟨pins, listed, -, enumerates⟩ := pins_in_order_iff ddrPads known
  exact ⟨known, pins, listed, enumerates.mpr (Data.flat_straight ddrWidths)⟩

theorem pmod_pins_reversed : ∃ pins, IOPin.of pmodPortIo = .ok pins ∧
    pins.map IOPin.place = (List.range 8).map (fun k => [0, 7 - k, 0]) ∧ ¬ Enumerates pmodPortIo pins := by
  refine ⟨pmodPortIo.listed, of_known pmodPortIo_known, places_pmodPortIo, fun enumerates => ?_⟩
  have sorted : pmodPortIo.places.Pairwise (· < ·) := List.pairwise_map.mpr enumerates.ordered
  rw [places_pmodPortIo] at sorted
  exact absurd sorted (by decide)

/-! ## Overlays -/

/-- A constraint of the XDC file, after the method that adds it. -/
inductive Constraint where
  | boardPin (io : IOPin) (pin : String)
  | packagePin (io : IOPin) (pin : String)
  | ioStandard (io : IOPin) (standard : String)

def allddrpins1 : List String :=
  ["AM8", "AM9", "AP8", "AN8", "AK10", "AJ10", "AP9", "AN9", "AP10", "AP11", "AM10", "AL10", "AM11", "AL11",
    "AJ7", "AL5", "AJ9", "AK7",
    "AK12", "AJ12",
    "AH9", "AK8", "AP7", "AN7", "AM3", "AP2", "AK9",
    "AK4", "AK5", "AN4", "AM4", "AP4", "AP5", "AM5", "AM6", "AK2", "AK3", "AL1", "AK1", "AN1", "AM1", "AP3", "AN3",
    "AP6", "AL2",
    "AN6", "AL3",
    "AL6", "AN2"]

/-- The package pins of `DDR2ZCU102PlacedOverlay`. -/
def ddr2Overlay : Except String (List Constraint) := do
  let ios ← IOPin.of ddrPads
  return (ios.zip allddrpins1).map fun (io, pin) => .packagePin io pin

/-- The body of `PMODXilinxPlacedOverlay`. -/
def pmodOverlay (boardPin packagePin : List String) (ioStandard : String) : Except String (List Constraint) := do
  require (boardPin.isEmpty || packagePin.isEmpty)
    "requirement failed: can't provide both boardpin and packagepin, this is ambiguous"
  let cutAt := boardPin.length
  let ios ← IOPin.of pmodPortIo
  let boardIO := ios.take cutAt
  let packageIO := ios.drop cutAt
  return (boardPin.zip boardIO).map (fun (pin, io) => .boardPin io pin) ++
    (packagePin.zip packageIO).flatMap fun (pin, io) => [.packagePin io pin, .ioStandard io ioStandard]

theorem ddr2Overlay_eq : ddr2Overlay = .ok (List.zipWith Constraint.packagePin ddrPads.listed allddrpins1) := by
  rw [ddr2Overlay, ddrPads, of_known (Data.flat_known ddrWidths)]
  exact congrArg Except.ok List.map_zip_eq_zipWith

/-- The list of names fits the pads: every bit gets the next name, and no name is left. -/
theorem ddr2Overlay_complete : ∃ pins, Enumerates ddrPads pins ∧ pins.length = allddrpins1.length ∧
    ddr2Overlay = .ok (List.zipWith Constraint.packagePin pins allddrpins1) := by
  refine ⟨ddrPads.listed, (enumerates_iff _).mpr (Data.flat_straight _), ?_, ddr2Overlay_eq⟩
  have count : ddrPads.places.length = 49 := by decide
  rw [Data.places, List.length_map] at count
  exact count

theorem pmodPortIo_listed {k : ℕ} (inside : k < 8) :
    ∃ io, pmodPortIo.listed[k]? = some io ∧ io.place = [0, 7 - k, 0] := by
  have there : pmodPortIo.places[k]? = some [0, 7 - k, 0] := by
    rw [places_pmodPortIo, List.getElem?_map, List.getElem?_range inside, Option.map_some]
  rw [Data.places, List.getElem?_map] at there
  exact Option.map_eq_some_iff.mp there

/-- The `k`th name of either list goes to the element `7 - k` of the connector. -/
theorem pmodOverlay_reversed {boardPin packagePin : List String} {ioStandard : String} {constraints : List Constraint}
    (made : pmodOverlay boardPin packagePin ioStandard = .ok constraints) {k : ℕ} (inside : k < 8) :
    ∃ io : IOPin, io.place = [0, 7 - k, 0] ∧
      (∀ name, boardPin[k]? = some name → .boardPin io name ∈ constraints) ∧
      (∀ name, packagePin[k]? = some name → .packagePin io name ∈ constraints) := by
  rw [pmodOverlay, require_bind_ok, of_known pmodPortIo_known] at made
  obtain ⟨one, made⟩ := made
  cases made
  obtain ⟨io, there, place⟩ := pmodPortIo_listed inside
  refine ⟨io, place, fun name named => ?_, fun name named => ?_⟩
  · obtain ⟨short, -⟩ := List.getElem?_eq_some_iff.mp named
    have joined : (boardPin.zip (pmodPortIo.listed.take boardPin.length))[k]? = some (name, io) := by
      rw [List.getElem?_zip_eq_some, List.getElem?_take_of_lt short]
      exact ⟨named, there⟩
    exact List.mem_append_left _ (List.mem_map.mpr ⟨(name, io), List.mem_of_getElem? joined, rfl⟩)
  · -- A package pin is given, so no board pin is, and nothing is dropped.
    have given : packagePin ≠ [] := List.ne_nil_of_mem (List.mem_of_getElem? named)
    have none : boardPin = [] := by simpa [given] using one
    subst none
    have joined : (packagePin.zip pmodPortIo.listed)[k]? = some (name, io) :=
      List.getElem?_zip_eq_some.mpr ⟨named, there⟩
    exact List.mem_flatMap.mpr ⟨(name, io), List.mem_of_getElem? joined, List.mem_cons_self⟩

end Zcu102.Pins
