import Mathlib.Data.Nat.Log
import Mathlib.Data.Rat.Floor
import Mathlib.Data.List.FinRange
import Mathlib.Data.List.Infix
import Zcu102.Sim.Steps

/-!
# The reset wrangler (`ResetWrangler.scala`)

The resets of all inputs are one cause. While it is high two registers of the
slowest clock are held at their initial values; after it falls one of them counts
`slowTicks` edges and the other, one edge behind, drops `deglitched`.
-/

namespace Zcu102.Reset
set_option autoImplicit false
open Zcu102.Sim

variable {n : ℕ}

/-- The parameters of `ResetWrangler` and the frequencies of its `n + 1` inputs. -/
structure Wrangler (n : ℕ) where
  debounceNs : ℚ
  freqMHz : Fin (n + 1) → ℚ
  debounceNs_nonneg : 0 ≤ debounceNs
  freqMHz_pos : ∀ i, 0 < freqMHz i

/-- `minBy`: the first input of least value. -/
def minBy (f : Fin (n + 1) → ℚ) : Fin (n + 1) :=
  (List.finRange (n + 1)).foldl (fun best i => if f i < f best then i else best) 0

/-- `Double.toInt`, which saturates, of an integral value. -/
def toInt (x : ℤ) : ℤ := max (-2 ^ 31) (min (2 ^ 31 - 1) x)

namespace Wrangler

variable (w : Wrangler n)

def slowIn : Fin (n + 1) := minBy w.freqMHz

def slowPeriodNs : ℚ := 1000 / w.freqMHz w.slowIn

def slowTicks : ℕ := (max (toInt ⌈w.debounceNs / w.slowPeriodNs⌉) 7).toNat

def slowBits : ℕ := Nat.clog 2 (w.slowTicks + 1)

/-- The input resets and the two registers. -/
structure State where
  resets : Fin (n + 1) → Bool
  debounced : BitVec w.slowBits
  deglitched : Bool

end Wrangler

/-- A rising edge of an input clock, or a change of an input reset. -/
inductive InputEvent (n : ℕ) where
  | edge (i : Fin (n + 1))
  | reset (i : Fin (n + 1)) (level : Bool)
  deriving DecidableEq

namespace Wrangler.State

variable {w : Wrangler n}

def causes (s : w.State) : Bool := ((List.finRange (n + 1)).map s.resets).foldl (· || ·) false

def increment (s : w.State) : Bool := s.debounced.toNat != w.slowTicks

def incremented (s : w.State) : BitVec w.slowBits := s.debounced + 1

/-- `AsyncResetReg`: a high cause puts both registers at their initial values. -/
def asyncReset (s : w.State) : w.State :=
  if s.causes then { s with debounced := 0, deglitched := true } else s

/-- What the registers load at an edge of the slowest clock. -/
def loaded (s : w.State) : w.State :=
  { s with
    debounced := if s.increment then s.incremented else s.debounced
    deglitched := s.increment }

def step (s : w.State) : InputEvent n → w.State
  | .edge i => if i = w.slowIn then s.loaded.asyncReset else s
  | .reset i level => { s with resets := Function.update s.resets i level }.asyncReset

end Wrangler.State

/-- The registers start at their initial values. -/
def Wrangler.start (w : Wrangler n) (resets : Fin (n + 1) → Bool) : w.State := ⟨resets, 0, true⟩

/-! ## The slowest clock -/

theorem foldl_min_le (f : Fin (n + 1) → ℚ) (l : List (Fin (n + 1))) (best : Fin (n + 1)) :
    f (l.foldl (fun best i => if f i < f best then i else best) best) ≤ f best ∧
      ∀ i ∈ l, f (l.foldl (fun best i => if f i < f best then i else best) best) ≤ f i := by
  induction l generalizing best with
  | nil => exact ⟨le_refl _, fun i mem => absurd mem List.not_mem_nil⟩
  | cons j l ih =>
    obtain ⟨least, each⟩ := ih (if f j < f best then j else best)
    have better : f (if f j < f best then j else best) ≤ f best ∧ f (if f j < f best then j else best) ≤ f j := by
      split
      · exact ⟨le_of_lt ‹_›, le_refl _⟩
      · exact ⟨le_refl _, le_of_not_gt ‹_›⟩
    rw [List.foldl_cons]
    refine ⟨le_trans least better.1, fun i mem => ?_⟩
    rcases List.mem_cons.mp mem with here | there
    · rw [here]
      exact le_trans least better.2
    · exact each i there

theorem Wrangler.slowIn_le (w : Wrangler n) (i : Fin (n + 1)) : w.freqMHz w.slowIn ≤ w.freqMHz i :=
  (foldl_min_le w.freqMHz _ 0).2 i (List.mem_finRange i)

/-- The ticks cover the debounce time. -/
theorem Wrangler.debounceNs_le (w : Wrangler n) (fits : w.debounceNs / w.slowPeriodNs < 2 ^ 31 - 2) :
    w.debounceNs ≤ w.slowTicks * w.slowPeriodNs := by
  have period : 0 < w.slowPeriodNs := div_pos (by norm_num) (w.freqMHz_pos _)
  have small : ⌈w.debounceNs / w.slowPeriodNs⌉ ≤ 2 ^ 31 - 2 := by
    norm_num at fits
    rw [Int.ceil_le]
    exact_mod_cast le_of_lt fits
  have enough : ⌈w.debounceNs / w.slowPeriodNs⌉ ≤ (w.slowTicks : ℤ) := by
    rw [Wrangler.slowTicks, toInt]
    omega
  have ticks : w.debounceNs / w.slowPeriodNs ≤ (w.slowTicks : ℚ) := by
    exact_mod_cast Int.ceil_le.mp enough
  exact (div_le_iff₀ period).mp ticks

theorem Wrangler.slowTicks_lt (w : Wrangler n) : w.slowTicks < 2 ^ w.slowBits :=
  Nat.le_pow_clog (by decide) (w.slowTicks + 1)

/-! ## One event -/

theorem foldl_or (l : List Bool) (b : Bool) : l.foldl (· || ·) b = true ↔ b = true ∨ true ∈ l := by
  induction l generalizing b with
  | nil => simp
  | cons c l ih =>
    rw [List.foldl_cons, ih, Bool.or_eq_true, List.mem_cons, or_assoc, eq_comm (a := c)]

namespace Wrangler.State

variable {w : Wrangler n} {s : w.State}

theorem causes_iff (s : w.State) : s.causes = true ↔ ∃ i, s.resets i = true := by
  rw [causes, foldl_or]
  simp

/-- The registers at their initial values. -/
def Init (s : w.State) : Prop := s.debounced = 0 ∧ s.deglitched = true

/-- After `c` edges of the slowest clock with the cause low. -/
def Counts (c : ℕ) (s : w.State) : Prop :=
  s.debounced.toNat = min c w.slowTicks ∧ s.deglitched = decide (c ≤ w.slowTicks)

theorem Init.counts (init : s.Init) : Counts 0 s := by
  obtain ⟨zero, high⟩ := init
  refine ⟨?_, ?_⟩
  · rw [zero, Nat.zero_min]
    rfl
  · rw [high, decide_eq_true (Nat.zero_le _)]

@[simp] theorem causes_asyncReset (s : w.State) : s.asyncReset.causes = s.causes := by
  unfold asyncReset
  split <;> rfl

theorem asyncReset_init (high : s.causes = true) : s.asyncReset.Init := by
  rw [asyncReset, if_pos high]
  exact ⟨rfl, rfl⟩

theorem asyncReset_low (low : s.causes = false) : s.asyncReset = s := by
  rw [asyncReset, if_neg (by rw [low]; exact Bool.false_ne_true)]

/-- A clock does not change the cause. -/
theorem causes_edge (s : w.State) (i : Fin (n + 1)) : (s.step (.edge i)).causes = s.causes := by
  by_cases slow : i = w.slowIn
  · rw [step, if_pos slow, causes_asyncReset]
    rfl
  · rw [step, if_neg slow]

/-- With the cause high after an event the registers are at their initial values. -/
theorem init_step (init : s.causes = true → s.Init) {e : InputEvent n} (high : (s.step e).causes = true) :
    (s.step e).Init := by
  cases e with
  | edge i =>
    rw [causes_edge] at high
    by_cases slow : i = w.slowIn
    · rw [step, if_pos slow]
      exact asyncReset_init high
    · rw [step, if_neg slow]
      exact init high
  | reset i level =>
    rw [step, causes_asyncReset] at high
    exact asyncReset_init high

/-- When the cause falls they keep them. -/
theorem Init.fall (init : s.Init) (high : s.causes = true) {e : InputEvent n} (low : (s.step e).causes = false) :
    (s.step e).Init := by
  cases e with
  | edge i =>
    rw [causes_edge, high] at low
    cases low
  | reset i level =>
    rw [step, causes_asyncReset] at low
    rw [step, asyncReset_low low]
    exact init

/-- No count reaches the width of the register. -/
theorem toNat_incremented {c : ℕ} (counts : Counts c s) (more : s.increment = true) :
    s.incremented.toNat = s.debounced.toNat + 1 := by
  have bound := w.slowTicks_lt
  have value := counts.1
  have below : s.debounced.toNat ≠ w.slowTicks := bne_iff_ne.mp more
  have fits : s.debounced.toNat + 1 < 2 ^ w.slowBits := by omega
  rw [incremented, BitVec.toNat_add, BitVec.ofNat_eq_ofNat, BitVec.toNat_ofNat, Nat.add_mod_mod,
    Nat.mod_eq_of_lt fits]

theorem Counts.step {c : ℕ} (counts : Counts c s) (low : s.causes = false) {e : InputEvent n}
    (still : (s.step e).causes = false) : Counts (c + [e].count (.edge w.slowIn)) (s.step e) := by
  have value := counts.1
  cases e with
  | edge i =>
    by_cases slow : i = w.slowIn
    · have loads : s.loaded.asyncReset = s.loaded := asyncReset_low low
      rw [slow, List.count_singleton_self, State.step, if_pos rfl, loads]
      refine ⟨?_, ?_⟩
      · unfold loaded
        cases more : s.increment with
        | true =>
          have below : s.debounced.toNat ≠ w.slowTicks := bne_iff_ne.mp more
          rw [if_pos rfl, toNat_incremented counts more]
          omega
        | false =>
          have full : s.debounced.toNat = w.slowTicks := bne_eq_false_iff_eq.mp more
          rw [if_neg Bool.false_ne_true]
          show s.debounced.toNat = min (c + 1) w.slowTicks
          omega
      · rw [loaded, increment, Bool.eq_iff_iff, bne_iff_ne, decide_eq_true_iff]
        omega
    · have other : InputEvent.edge i ≠ .edge w.slowIn := fun same => slow (InputEvent.edge.inj same)
      rw [List.count_cons_of_ne other, State.step, if_neg slow]
      exact counts
  | reset i level =>
    have other : InputEvent.reset i level ≠ .edge w.slowIn := by simp
    rw [State.step, causes_asyncReset] at still
    rw [List.count_cons_of_ne other, State.step, asyncReset_low still]
    exact counts

end Wrangler.State

/-! ## Every run -/

/-- What an event makes of the levels of the input resets. -/
def drive (levels : Fin (n + 1) → Bool) : InputEvent n → Fin (n + 1) → Bool
  | .edge _ => levels
  | .reset i level => Function.update levels i level

/-- The waveform: the levels after some events, from those at the start. -/
def levels (resets : Fin (n + 1) → Bool) (es : List (InputEvent n)) : Fin (n + 1) → Bool := runs drive resets es

def anyHigh (levels : Fin (n + 1) → Bool) : Bool := decide (∃ i, levels i = true)

namespace Wrangler

variable (w : Wrangler n) (resets : Fin (n + 1) → Bool)

/-- The state after some events. -/
def after (es : List (InputEvent n)) : w.State := runs State.step (w.start resets) es

/-- The registers are at their initial values, or the cause fell and they have counted since. -/
theorem tracked (asserted : ∃ i, resets i = true) (es : List (InputEvent n)) :
    Tracked State.step State.causes (.edge w.slowIn) State.Init State.Counts (w.start resets) es :=
  runs_tracked ((State.causes_iff _).mpr asserted) ⟨rfl, rfl⟩ (fun _ _ init high => State.init_step init high)
    (fun _ _ high init low => (init.fall high low).counts) (fun _ _ _ low counts still => counts.step low still) es

/-- What the wrangler guarantees after the events `es`. -/
structure Debounces (es : List (InputEvent n)) : Prop where
  slowest : ∀ i, w.freqMHz w.slowIn ≤ w.freqMHz i
  longEnough : w.debounceNs ≤ w.slowTicks * w.slowPeriodNs
  bounded : (w.after resets es).debounced.toNat ≤ w.slowTicks
  noWrap : (w.after resets es).increment = true →
    (w.after resets es).incremented.toNat = (w.after resets es).debounced.toNat + 1
  heldHigh : ∀ i, levels resets es i = true → (w.after resets es).deglitched = true
  released : (w.after resets es).deglitched = false ↔
    ∃ post, LowSince drive anyHigh resets es post ∧ w.slowTicks + 1 ≤ post.count (.edge w.slowIn)

/-- The resets of the state follow the events, and so does the cause. -/
theorem resets_step (s : w.State) (e : InputEvent n) : (s.step e).resets = drive s.resets e := by
  have keeps (s : w.State) : s.asyncReset.resets = s.resets := by
    unfold State.asyncReset
    split <;> rfl
  cases e with
  | edge i =>
    by_cases slow : i = w.slowIn
    · rw [State.step, if_pos slow, keeps]
      rfl
    · rw [State.step, if_neg slow]
      rfl
  | reset i level =>
    rw [State.step, keeps]
    rfl

theorem causes_eq : (State.causes : w.State → Bool) = fun s => anyHigh s.resets := by
  funext s
  rw [Bool.eq_iff_iff, State.causes_iff, anyHigh, decide_eq_true_iff]

theorem lowSince_levels (es post : List (InputEvent n)) :
    LowSince State.step State.causes (w.start resets) es post ↔ LowSince drive anyHigh resets es post := by
  rw [causes_eq]
  exact lowSince_part w.resets_step

/-- The registers have counted some number of edges. -/
theorem counts (asserted : ∃ i, resets i = true) (es : List (InputEvent n)) :
    ∃ c, State.Counts c (w.after resets es) := by
  have tracked := w.tracked resets asserted es
  cases causes : (w.after resets es).causes with
  | true => exact ⟨0, (tracked.held causes).counts⟩
  | false =>
    obtain ⟨post, -, counts⟩ := tracked.since causes
    exact ⟨_, counts⟩

theorem deglitched_iff (asserted : ∃ i, resets i = true) (es : List (InputEvent n)) :
    (w.after resets es).deglitched = false ↔
      ∃ post, LowSince drive anyHigh resets es post ∧ w.slowTicks + 1 ≤ post.count (.edge w.slowIn) := by
  have tracked := w.tracked resets asserted es
  simp only [← w.lowSince_levels resets]
  constructor
  · intro low
    cases causes : (w.after resets es).causes with
    | true =>
      have init : (w.after resets es).Init := tracked.held causes
      rw [init.2] at low
      cases low
    | false =>
      obtain ⟨post, since, counts⟩ := tracked.since causes
      have late := of_decide_eq_false (counts.2.symm.trans low)
      exact ⟨post, since, by omega⟩
  · rintro ⟨post, since, late⟩
    obtain ⟨post', since', counts⟩ := tracked.since since.low
    rw [since.unique since'] at late
    exact counts.2.trans (decide_eq_false (by omega))

/-- **Every cause is debounced**, whenever the input resets change. -/
theorem wrangler_debounces (fits : w.debounceNs / w.slowPeriodNs < 2 ^ 31 - 2) (asserted : ∃ i, resets i = true)
    (es : List (InputEvent n)) : w.Debounces resets es := by
  obtain ⟨c, counts⟩ := w.counts resets asserted es
  have value := counts.1
  refine ⟨w.slowIn_le, w.debounceNs_le fits, by omega, State.toNat_incremented counts, fun i high => ?_,
    w.deglitched_iff resets asserted es⟩
  have cause : (w.after resets es).resets i = true := by
    rwa [after, runs_part w.resets_step]
  have init : (w.after resets es).Init :=
    (w.tracked resets asserted es).held ((State.causes_iff _).mpr ⟨i, cause⟩)
  exact init.2

end Wrangler

/-- Inputs of 100 and 50 MHz, with a debounce time of five periods of the slower one. -/
def twoClocks : Wrangler 1 where
  debounceNs := 100
  freqMHz i := if i = 0 then 100 else 50
  debounceNs_nonneg := by norm_num
  freqMHz_pos i := by split <;> norm_num

theorem wrangler_debounces_twoClocks :
    (twoClocks.after (fun _ => true)
        ([.reset 0 false, .reset 1 false] ++ List.replicate 8 (.edge 1))).deglitched = false ∧
      (twoClocks.after (fun _ => true) ([.reset 0 false] ++ List.replicate 8 (.edge 1))).deglitched = true := by
  have each := fun es => twoClocks.wrangler_debounces (fun _ => true) (by decide +kernel) ⟨0, rfl⟩ es
  refine ⟨(each _).released.mpr ⟨List.replicate 8 (.edge 1), ?_, by decide +kernel⟩, (each _).heldHigh 1 (by decide)⟩
  refine ⟨[.reset 0 false], .reset 1 false, rfl, ⟨by decide, by decide⟩, fun now part => ?_⟩
  exact (by decide : ∀ now ∈ (List.replicate 8 (InputEvent.edge (1 : Fin 2))).inits,
    anyHigh (levels (fun _ => true) ([.reset 0 false] ++ .reset 1 false :: now)) = false)
    now ((List.mem_inits _ _).mpr part)

end Zcu102.Reset
