import Mathlib.Data.Int.Notation
import Zcu102.Shell.Diplomacy

/-!
# The windows of the PCIe bridge (`xdma.scala`)

`XDMABlackBox` writes the windows of the bridge into a Vivado script, from
`bars` and `basesFull`; the device describes them to the operating system in its
`ranges`, from `bars` and `bases`. The first list of bases is padded with the
AXI bases, the second is not: the two descriptions agree exactly when there is a
base for every bar.
-/

namespace Zcu102.Shell
set_option autoImplicit false

/-- `XDMAParams`, with its `require`s as fields; `control` is aligned to `ecamSize`. -/
structure XDMAParams where
  bars : List AddressSet
  bases : List ℤ
  control : ℤ
  lanes : ℕ := 1
  gen : ℕ := 3
  addrBits : ℕ := 64
  mIDBits : ℕ := 4
  sIDBits : ℕ := 4
  bars_nonempty : bars.isEmpty = false
  lanes_ok : 1 ≤ lanes ∧ lanes ≤ 16 ∧ lanes &&& (lanes - 1) = 0
  gen_ok : 1 ≤ gen ∧ gen ≤ 3
  addrBits_ok : addrBits = 32 ∨ addrBits = 64
  mIDBits_ok : 1 ≤ mIDBits ∧ mIDBits ≤ 8
  sIDBits_ok : 1 ≤ sIDBits ∧ sIDBits ≤ 8
  bars_fit : ∀ a ∈ bars, a.max >>> addrBits = 0
  control_aligned : control % 0x4000000 = 0

/-- The bases of all bars: those given, then the AXI bases. -/
def XDMAParams.basesFull (c : XDMAParams) : List ℤ :=
  c.bases.take c.bars.length ++ (c.bars.map fun a => (a.base : ℤ)).drop c.bases.length

/-- What a window translates: an AXI range and where it starts on the PCIe side. -/
structure Window where
  axiBase : ℤ
  axiLimit : ℤ
  pcieBase : ℤ
  deriving DecidableEq, Repr

/-! ## The Vivado script -/

/-- The properties of the windows, `CONFIG.axibar_num` and the three of each bar. -/
inductive Setting where
  | axibarNum
  | axibar (i : ℕ)
  | axibarHighaddr (i : ℕ)
  | axibar2pciebar (i : ℕ)
  deriving DecidableEq, Repr

def barSettings (a : AddressSet) (b : ℤ) (i : ℕ) : List (Setting × ℤ) :=
  [(.axibar i, a.base), (.axibarHighaddr i, a.max), (.axibar2pciebar i, b)]

/-- The settings of the bars, numbered from `k`. -/
def barsFrom (k : ℕ) : List (AddressSet × ℤ) → List (Setting × ℤ)
  | [] => []
  | (a, b) :: rest => barSettings a b k ++ barsFrom (k + 1) rest

/-- The settings `XDMABlackBox` writes. -/
def script (c : XDMAParams) : List (Setting × ℤ) :=
  (.axibarNum, (c.bars.length : ℤ)) :: barsFrom 0 (c.bars.zip c.basesFull)

/-- Window `i` of a script. -/
def scriptWindow (settings : List (Setting × ℤ)) (i : ℕ) : Option Window := do
  let axiBase ← settings.lookup (.axibar i)
  let axiLimit ← settings.lookup (.axibarHighaddr i)
  let pcieBase ← settings.lookup (.axibar2pciebar i)
  pure ⟨axiBase, axiLimit, pcieBase⟩

/-! ## The device tree -/

structure Permissions where
  r : Bool
  w : Bool
  x : Bool
  c : Bool
  a : Bool
  deriving DecidableEq, Repr

/-- A binding of the resource `ranges`: `ResourceAddress(address, permissions)`. -/
structure Binding where
  address : List AddressSet
  permissions : Permissions

structure ResourceMapping where
  address : List AddressSet
  offset : ℤ
  permissions : Permissions

/-- The flag word of a 32-bit memory range, above the 64-bit address. -/
def rangeFlags : ℤ := 0x02000000 * 2 ^ 64

/-- `addr2range`; a binding of several sets is `Unreachable()`. -/
def addr2range (x : Binding × ℤ) : Option ResourceMapping :=
  match x.1.address with
  | [address] => some ⟨[address], rangeFlags + x.2 - address.base, x.1.permissions⟩
  | _ => none

/-- The `ranges` of the device. -/
def ranges (c : XDMAParams) (resources : List Binding) : Option (List ResourceMapping) :=
  (resources.zip c.bases).mapM addr2range

/-- The window a mapping of one set denotes: its child address is the AXI address plus the offset. -/
def ResourceMapping.window (m : ResourceMapping) : Option Window :=
  match m.address with
  | [address] => some ⟨address.base, address.max, address.base + m.offset - rangeFlags⟩
  | _ => none

/-- One binding per bar, in order. -/
def bindings (c : XDMAParams) (permissions : Permissions) : List Binding :=
  c.bars.map fun a => ⟨[a], permissions⟩

/-- Both descriptions give every bar a window, the same one. -/
def Agree (c : XDMAParams) (permissions : Permissions) : Prop :=
  ∃ mappings, ranges c (bindings c permissions) = some mappings ∧
    mappings.length = c.bars.length ∧ (script c).lookup .axibarNum = some (c.bars.length : ℤ) ∧
    ∀ i, i < c.bars.length → ∃ window, mappings[i]?.bind ResourceMapping.window = some window ∧
      scriptWindow (script c) i = some window

/-! ## The two lists of bases -/

theorem basesFull_eq {c : XDMAParams} (enough : c.bars.length ≤ c.bases.length) :
    c.basesFull = c.bases.take c.bars.length := by
  unfold XDMAParams.basesFull
  rw [List.drop_eq_nil_of_le (by simpa using enough), List.append_nil]

/-- The mapping of a bar. -/
def barMapping (permissions : Permissions) (x : AddressSet × ℤ) : ResourceMapping :=
  ⟨[x.1], rangeFlags + x.2 - x.1.base, permissions⟩

theorem mapM_addr2range (permissions : Permissions) (bars : List AddressSet) (bases : List ℤ) :
    ((bars.map fun a => (⟨[a], permissions⟩ : Binding)).zip bases).mapM addr2range =
      some ((bars.zip bases).map (barMapping permissions)) := by
  induction bars generalizing bases with
  | nil => simp
  | cons a bars ih =>
    cases bases with
    | nil => simp
    | cons b bases =>
      rw [List.map_cons, List.zip_cons_cons, List.mapM_cons, ih bases]
      simp only [addr2range, List.zip_cons_cons, List.map_cons, barMapping, Option.bind_eq_bind,
        Option.bind_some, Option.pure_def]

theorem ranges_eq (c : XDMAParams) (permissions : Permissions) :
    ranges c (bindings c permissions) = some ((c.bars.zip c.bases).map (barMapping permissions)) :=
  mapM_addr2range permissions c.bars c.bases

theorem barMapping_window (permissions : Permissions) (x : AddressSet × ℤ) :
    (barMapping permissions x).window = some ⟨x.1.base, x.1.max, x.2⟩ := by
  simp only [ResourceMapping.window, barMapping, Option.some.injEq, Window.mk.injEq, true_and]
  omega

/-! ## The windows of the script -/

theorem lookup_of_ne {s t : Setting} (other : s ≠ t) (v : ℤ) (rest : List (Setting × ℤ)) :
    ((t, v) :: rest).lookup s = rest.lookup s := by
  rw [List.lookup_cons, beq_false_of_ne other]

/-- A script that starts with the settings of bar `k` gives that window. -/
theorem scriptWindow_here (a : AddressSet) (b : ℤ) (k : ℕ) (rest : List (Setting × ℤ)) :
    scriptWindow (barSettings a b k ++ rest) k = some ⟨a.base, a.max, b⟩ := by
  simp [scriptWindow, barSettings, lookup_of_ne]

/-- The settings of bar `k` say nothing about another bar. -/
theorem scriptWindow_skip {a : AddressSet} {b : ℤ} {k i : ℕ} (other : i ≠ k) (rest : List (Setting × ℤ)) :
    scriptWindow (barSettings a b k ++ rest) i = scriptWindow rest i := by
  simp [scriptWindow, barSettings, lookup_of_ne, other]

theorem scriptWindow_barsFrom (pairs : List (AddressSet × ℤ)) (k i : ℕ) :
    scriptWindow (barsFrom k pairs) (k + i) = pairs[i]?.map fun x => ⟨x.1.base, x.1.max, x.2⟩ := by
  induction pairs generalizing k i with
  | nil => simp [barsFrom, scriptWindow]
  | cons pair pairs ih =>
    cases i with
    | zero => exact scriptWindow_here pair.1 pair.2 k _
    | succ i =>
      have step := ih (k + 1) i
      rw [show k + 1 + i = k + (i + 1) by omega] at step
      rw [barsFrom, scriptWindow_skip (by omega), step, List.getElem?_cons_succ]

/-- The window of bar `i` in the script. -/
theorem scriptWindow_script (c : XDMAParams) (i : ℕ) :
    scriptWindow (script c) i = (c.bars.zip c.basesFull)[i]?.map fun x => ⟨x.1.base, x.1.max, x.2⟩ := by
  have skip : scriptWindow (script c) i = scriptWindow (barsFrom 0 (c.bars.zip c.basesFull)) i := by
    simp [scriptWindow, script, lookup_of_ne]
  have found := scriptWindow_barsFrom (c.bars.zip c.basesFull) 0 i
  rw [Nat.zero_add] at found
  rw [skip, found]

theorem axibarNum_script (c : XDMAParams) : (script c).lookup .axibarNum = some (c.bars.length : ℤ) := by
  simp [script]

/-! ## The descriptions agree -/

/-- The device describes only as many windows as there are bases. -/
theorem not_agree {c : XDMAParams} {permissions : Permissions} (few : c.bases.length < c.bars.length) :
    ¬ Agree c permissions := by
  rintro ⟨mappings, described, count, -⟩
  rw [ranges_eq, Option.some.injEq] at described
  rw [← described, List.length_map, List.length_zip] at count
  omega

theorem agree_of_enough {c : XDMAParams} (permissions : Permissions)
    (enough : c.bars.length ≤ c.bases.length) : Agree c permissions := by
  refine ⟨_, ranges_eq c permissions, ?_, axibarNum_script c, fun i bound => ?_⟩
  · rw [List.length_map, List.length_zip]
    omega
  · have inBases : i < c.bases.length := Nat.lt_of_lt_of_le bound enough
    have zipped : (c.bars.zip c.bases)[i]? = some (c.bars[i], c.bases[i]) := by
      rw [List.getElem?_zip_eq_some]
      exact ⟨List.getElem?_eq_getElem bound, List.getElem?_eq_getElem inBases⟩
    have zippedFull : (c.bars.zip c.basesFull)[i]? = some (c.bars[i], c.bases[i]) := by
      rw [List.getElem?_zip_eq_some, basesFull_eq enough]
      exact ⟨List.getElem?_eq_getElem bound, by rw [List.getElem?_take_of_lt bound, List.getElem?_eq_getElem inBases]⟩
    refine ⟨⟨c.bars[i].base, c.bars[i].max, c.bases[i]⟩, ?_, ?_⟩
    · rw [List.getElem?_map, zipped, Option.map_some, Option.bind_some, barMapping_window]
    · rw [scriptWindow_script, zippedFull, Option.map_some]

/-- **The device describes the windows the bridge decodes exactly when every bar has a base.** -/
theorem windows_agree_iff (c : XDMAParams) (permissions : Permissions) :
    Agree c permissions ↔ c.bars.length ≤ c.bases.length :=
  ⟨fun agree => Nat.le_of_not_lt fun few => not_agree few agree, agree_of_enough permissions⟩

/-- The edge connector of the VCU118 with the defaults of `PCIeDesignInput`: one bar, not remapped. -/
def pcieDefault : XDMAParams where
  bars := [⟨0x40000000, 0x1FFFFFFF, by decide⟩]
  bases := []
  control := 0x2000000000
  lanes := 8
  bars_nonempty := rfl
  lanes_ok := by decide
  gen_ok := by decide
  addrBits_ok := by decide
  mIDBits_ok := by decide
  sIDBits_ok := by decide
  bars_fit := by decide
  control_aligned := by decide

/-- Read, write and execute. -/
def barPermissions : Permissions := ⟨true, true, true, false, false⟩

/-- The bridge decodes a window at `0x40000000`, the device describes none. -/
theorem default_pcie_undescribed :
    scriptWindow (script pcieDefault) 0 = some ⟨0x40000000, 0x5FFFFFFF, 0x40000000⟩ ∧
      (ranges pcieDefault (bindings pcieDefault barPermissions)).map List.length = some 0 ∧
      ¬ Agree pcieDefault barPermissions :=
  ⟨by decide, rfl, not_agree (by decide)⟩

end Zcu102.Shell
