import Zcu102.Reset.Sequencer

/-!
# Holding the first reset (`sifive_reset_hold`)

How long `reset1` stays high is counted in edges of `clock1`: those since
`areset` rose and those since it fell. `Held` bounds the three registers from
below by the two counts, whatever `areset` does afterwards; `Drained` bounds them
from above while `areset` stays low.
-/

namespace Zcu102.Reset
set_option autoImplicit false
open Zcu102.Sim

theorem outReset_iff (h : ResetHold) : h.outReset = true ↔ 256 ≤ h.debounceReset.toNat := by
  have top : h.outReset = h.debounceReset.msb := (BitVec.msb_eq_getLsbD_last _).symm
  rw [top, BitVec.msb_eq_decide, decide_eq_true_iff]

/-- The counter stops when its top bit falls. -/
theorem toNat_debounce (h : ResetHold) :
    (h.debounceReset - (BitVec.ofBool h.outReset).setWidth 9).toNat =
      if 256 ≤ h.debounceReset.toNat then h.debounceReset.toNat - 1 else h.debounceReset.toNat := by
  have bound := h.debounceReset.isLt
  have counts := outReset_iff h
  cases out : h.outReset with
  | true =>
    have high := counts.mp out
    have one : ((BitVec.ofBool true).setWidth 9).toNat = 1 := rfl
    rw [if_pos high, BitVec.toNat_sub, one]
    omega
  | false =>
    have low : ¬ 256 ≤ h.debounceReset.toNat := fun high => by
      rw [counts.mpr high] at out
      cases out
    have zero : ((BitVec.ofBool false).setWidth 9).toNat = 0 := rfl
    rw [if_neg low, BitVec.toNat_sub, zero]
    omega

/-! ## High -/

/-- `r` edges of `clock1` after `areset` rose and `f` after it fell. -/
structure Held (r f : ℕ) (h : ResetHold) : Prop where
  order : f ≤ r
  capture : ∀ i, i ≤ 3 → i < 4 - f → h.capture.getLsbD i = true
  syncReset : ∀ i, i ≤ 3 → 4 ≤ r + i → f + i ≤ 7 → h.syncReset.getLsbD i = true
  debounceReset : 5 ≤ r → f ≤ 263 → 511 ≤ h.debounceReset.toNat + (f - 8)

namespace Held

variable {r f f' : ℕ} {h : ResetHold}

theorem outReset (held : Held r f h) (low : 5 ≤ r) (high : f ≤ 263) : h.outReset = true := by
  have bound := held.debounceReset low high
  exact (outReset_iff h).mpr (by omega)

/-- A captured `areset` starts the count. -/
theorem start (captured : h.capture = BitVec.allOnes 4) : Held 0 0 h := by
  refine ⟨Nat.le_refl 0, fun i bound _ => ?_, fun i bound enough _ => by omega, fun enough _ => by omega⟩
  rw [captured]
  exact getLsbD_ones bound

/-- An edge of the clock, given what it captures. -/
theorem edge (held : Held r f h) {areset : Bool} (next : f' = f + 1 ∨ f = 0 ∧ f' = 0)
    (captured : ∀ i, i ≤ 3 → i < 4 - f' → (resetSync areset h.capture).getLsbD i = true) :
    Held (r + 1) f' (h.clockEdge areset) := by
  obtain ⟨order, capture, syncReset, debounceReset⟩ := held
  refine ⟨by omega, captured, fun i bound enough early => ?_, fun enough early => ?_⟩
  · apply shiftIn_place bound
    · intro top
      exact capture 0 (by omega) (by omega)
    · intro below
      exact syncReset (i + 1) (by omega) (by omega) (by omega)
  · show 511 ≤ (if h.syncReset.getLsbD 0 then BitVec.allOnes 9 else _ : BitVec 9).toNat + _
    by_cases still : h.syncReset.getLsbD 0 = true
    · rw [if_pos still, BitVec.toNat_allOnes]
      omega
    · -- the synchroniser runs dry only with the eighth edge after the fall
      have late : 8 ≤ f := Nat.le_of_not_lt fun early => still (syncReset 0 (by omega) (by omega) (by omega))
      have bound := debounceReset (by omega) (by omega)
      rw [if_neg still, toNat_debounce, if_pos (by omega)]
      omega

/-- An edge while `areset` is still high. -/
theorem edge_high (held : Held r 0 h) : Held (r + 1) 0 (h.clockEdge true) :=
  held.edge (Or.inr ⟨rfl, rfl⟩) fun _ bound _ => getLsbD_ones bound

/-- An edge after the fall, at either level. -/
theorem edge_fallen (held : Held r f h) (areset : Bool) : Held (r + 1) (f + 1) (h.clockEdge areset) := by
  refine held.edge (Or.inl rfl) fun i bound below => ?_
  cases areset with
  | true => exact getLsbD_ones bound
  | false => exact shiftIn_below held.capture (by omega) (by omega)

/-- No other event shortens the count. -/
theorem other {s : Sequencer} (held : Held r f s.hold) {e : Event} (not1 : e ≠ .clock1) : Held r f (step s e).hold := by
  cases e with
  | clock1 => exact absurd rfl not1
  | clock2 => exact held
  | clock3 => exact held
  | clock4 => exact held
  | areset level =>
    obtain ⟨order, capture, syncReset, debounceReset⟩ := held
    refine ⟨order, fun i bound below => ?_, syncReset, debounceReset⟩
    show (if posedge s.areset level then resetSync level s.hold.capture else s.hold.capture).getLsbD i = true
    rw [resetSync_posedge]
    split
    · exact getLsbD_ones bound
    · exact capture i bound below

end Held

/-- While `areset` stays high. -/
theorem held_while_high {s : Sequencer} {r : ℕ} (high : s.areset = true) (held : Held r 0 s.hold) {es : List Event}
    (stays : Event.areset false ∉ es) :
    (runs step s es).areset = true ∧ Held (r + es.count .clock1) 0 (runs step s es).hold := by
  refine runs_counted Event.clock1 (· ≠ .areset false) (fun c (s : Sequencer) => s.areset = true ∧ Held c 0 s.hold) ?_ ?_
    (fun e mem same => stays (same ▸ mem)) ⟨high, held⟩
  · rintro c s ⟨high, held⟩
    have edge := held.edge_high
    rw [← high] at edge
    exact ⟨high, edge⟩
  · rintro c s e still not1 ⟨high, held⟩
    refine ⟨?_, held.other not1⟩
    cases e with
    | areset level => exact eq_true_of_ne_false fun low => still (low ▸ rfl)
    | _ => exact high

/-- From the fall on, whatever `areset` does. -/
theorem held_after_fall {s : Sequencer} {r : ℕ} (held : Held r 0 s.hold) (es : List Event) :
    Held (r + es.count .clock1) (es.count .clock1) (runs step s es).hold := by
  have count : Held (r + (0 + es.count .clock1)) (0 + es.count .clock1) (runs step s es).hold :=
    runs_counted Event.clock1 (fun _ => True) (fun c (s : Sequencer) => Held (r + c) c s.hold)
      (fun c s held => held.edge_fallen s.areset) (fun c s e _ not1 held => held.other not1) (fun _ _ => trivial) held
  rwa [Nat.zero_add] at count

/-! ## Low -/

/-- `f` edges of `clock1` after `areset` fell, and it has stayed low. -/
structure Drained (f : ℕ) (h : ResetHold) : Prop where
  capture : ∀ i, i ≤ 3 → 4 - f ≤ i → h.capture.getLsbD i = false
  syncReset : ∀ i, i ≤ 3 → 8 ≤ f + i → h.syncReset.getLsbD i = false
  debounceReset : 8 ≤ f → h.debounceReset.toNat ≤ 255 ∨ h.debounceReset.toNat + (f - 8) ≤ 511

namespace Drained

variable {f : ℕ} {h : ResetHold}

theorem start (h : ResetHold) : Drained 0 h :=
  ⟨fun i bound late => by omega, fun i bound late => by omega, fun late => by omega⟩

theorem outReset (drained : Drained f h) (late : 264 ≤ f) : h.outReset = false := by
  have bound := drained.debounceReset (by omega)
  exact Bool.eq_false_iff.mpr fun high => by
    have := (outReset_iff h).mp high
    omega

theorem edge (drained : Drained f h) : Drained (f + 1) (h.clockEdge false) := by
  obtain ⟨capture, syncReset, debounceReset⟩ := drained
  have bound := (h.clockEdge false).debounceReset.isLt
  refine ⟨fun i bound late => shiftIn_from capture bound (by omega), fun i bound late => ?_, fun late => ?_⟩
  · apply shiftIn_place bound
    · intro top
      exact capture 0 (by omega) (by omega)
    · intro below
      exact syncReset (i + 1) (by omega) (by omega)
  · by_cases first : f = 7
    · -- the counter starts from whatever it holds
      omega
    · have before := debounceReset (by omega)
      show (if h.syncReset.getLsbD 0 then BitVec.allOnes 9 else _ : BitVec 9).toNat ≤ 255 ∨
        (if h.syncReset.getLsbD 0 then BitVec.allOnes 9 else _ : BitVec 9).toNat + _ ≤ 511
      rw [syncReset 0 (by omega) (by omega), if_neg Bool.false_ne_true, toNat_debounce]
      split <;> omega

theorem other {s : Sequencer} (drained : Drained f s.hold) (low : s.areset = false) {e : Event} (not1 : e ≠ .clock1)
    (notRise : e ≠ .areset true) : (step s e).areset = false ∧ Drained f (step s e).hold := by
  cases e with
  | clock1 => exact absurd rfl not1
  | clock2 => exact ⟨low, drained⟩
  | clock3 => exact ⟨low, drained⟩
  | clock4 => exact ⟨low, drained⟩
  | areset level =>
    have same : level = false := Bool.eq_false_iff.mpr fun high => notRise (high ▸ rfl)
    subst same
    refine ⟨rfl, ?_⟩
    show Drained f ⟨if posedge s.areset false then _ else _, _, _⟩
    rw [posedge_low, if_neg Bool.false_ne_true]
    exact drained

end Drained

/-- While `areset` stays low. -/
theorem drained_while_low {s : Sequencer} (low : s.areset = false) {es : List Event} (stays : Event.areset true ∉ es) :
    Drained (es.count .clock1) (runs step s es).hold := by
  have count : (runs step s es).areset = false ∧ Drained (0 + es.count .clock1) (runs step s es).hold := by
    refine runs_counted Event.clock1 (· ≠ .areset true) (fun c (s : Sequencer) => s.areset = false ∧ Drained c s.hold)
      ?_ ?_ (fun e mem same => stays (same ▸ mem)) ⟨low, Drained.start s.hold⟩
    · rintro c s ⟨low, drained⟩
      have edge := drained.edge
      rw [← low] at edge
      exact ⟨low, edge⟩
    · rintro c s e notRise not1 ⟨low, drained⟩
      exact drained.other low not1 notRise
  rw [Nat.zero_add] at count
  exact count.2

/-! ## Every run -/

/-- `areset` rose with the last event of `before`, or was high from the start. -/
def Rises (level : Bool) (before : List Event) : Prop :=
  before = [] ∧ level = true ∨
    ∃ earlier, before = earlier ++ [.areset true] ∧ (runs step (allOnes level) earlier).areset = false

theorem Rises.held {level : Bool} {before : List Event} (rises : Rises level before) :
    (runs step (allOnes level) before).areset = true ∧ Held 0 0 (runs step (allOnes level) before).hold := by
  rcases rises with ⟨nothing, high⟩ | ⟨earlier, split, low⟩
  · rw [nothing, runs_nil]
    exact ⟨high, Held.start rfl⟩
  · rw [split, runs_append]
    refine ⟨rfl, Held.start ?_⟩
    show (if posedge (runs step (allOnes level) earlier).areset true then _ else _) = _
    rw [low, resetSync_posedge]
    rfl

/-- What the sequencer guarantees after the events `es`, from the state of all ones. -/
structure Sequenced (level : Bool) (es : List Event) : Prop where
  ordered : Ordered (runs step (allOnes level) es)
  releasedLate : ReleasedLate (allOnes level) es
  heldHigh : ∀ before during, es = before ++ during → Rises level before → Event.areset false ∉ during →
    5 ≤ during.count .clock1 → (runs step (allOnes level) es).reset1 = true
  heldAfter : ∀ before during after, es = before ++ during ++ .areset false :: after → Rises level before →
    Event.areset false ∉ during → 5 ≤ (during ++ after).count .clock1 → after.count .clock1 ≤ 263 →
    (runs step (allOnes level) es).reset1 = true
  released : ∀ before during after, es = before ++ during ++ .areset false :: after → Rises level before →
    Event.areset false ∉ during → Event.areset true ∉ after → 264 ≤ after.count .clock1 →
    (runs step (allOnes level) es).reset1 = false

/-- **Hold and order**, for every interleaving of the clocks and of the changes of `areset`. -/
theorem sequencer_hold_and_order (level : Bool) (es : List Event) : Sequenced level es where
  ordered := ordered_runs (full_allOnes level) es
  releasedLate := releasedLate_runs (input_allOnes level) (full_allOnes level) es
  heldHigh before during split rises stays enough := by
    obtain ⟨high, held⟩ := rises.held
    have still := (held_while_high high held stays).2
    rw [split, runs_append]
    exact still.outReset (by omega) (by omega)
  heldAfter before during after split rises stays enough few := by
    obtain ⟨high, held⟩ := rises.held
    have still := (held_while_high high held stays).2.other (e := .areset false) (by decide)
    have fallen := held_after_fall still after
    rw [List.count_append] at enough
    rw [split, runs_append, runs_append, runs_cons]
    exact fallen.outReset (by omega) few
  released before during after split rises stays low enough := by
    have drained := drained_while_low (s := step (runs step (allOnes level) (before ++ during)) (.areset false)) rfl low
    rw [split, runs_append, runs_cons]
    exact drained.outReset enough

/-! ## Power-up -/

/-- The declared initial values, with `areset` high: the eight ones of `debounce_reset` are extended with a zero. -/
def powerUp : Sequencer where
  areset := true
  hold := ⟨BitVec.allOnes 4, BitVec.allOnes 4, (BitVec.allOnes 8).setWidth 9⟩
  syncClock2 := BitVec.allOnes 4
  syncClock3 := BitVec.allOnes 4
  syncClock4 := BitVec.allOnes 4

/-- All four domains are in reset. -/
def AllHigh (s : Sequencer) : Prop := s.reset1 = true ∧ s.reset2 = true ∧ s.reset3 = true ∧ s.reset4 = true

instance (s : Sequencer) : Decidable (AllHigh s) := inferInstanceAs (Decidable (_ ∧ _))

/-- Until `areset` falls every instant of a run finds all four domains in reset. -/
def HeldAtPowerUp (es : List Event) : Prop :=
  ∀ now, now <+: es → Event.areset false ∉ now → AllHigh (runs step powerUp now)

theorem held_powerUp : Held 4 0 powerUp.hold := by
  refine ⟨Nat.zero_le 4, fun i bound _ => getLsbD_ones bound, fun i bound _ _ => getLsbD_ones bound, ?_⟩
  intro enough
  omega

theorem full_powerUp (k : Stage) : Full k powerUp := by
  intro _
  cases k <;> rfl

theorem reset1_powerUp {es : List Event} (none1 : Event.clock1 ∉ es) : (runs step powerUp es).reset1 = false := by
  have count : 0 + es.count .clock1 = 0 → (runs step powerUp es).reset1 = false := by
    refine runs_counted Event.clock1 (fun _ => True) (fun c (s : Sequencer) => c = 0 → s.reset1 = false)
      (fun c s _ never => absurd never (Nat.succ_ne_zero c)) ?_ (fun _ _ => trivial) (fun _ => by decide)
    intro c s e _ not1 low zero
    cases e with
    | clock1 => exact absurd rfl not1
    | _ => exact low zero
  exact count (by rw [List.count_eq_zero_of_not_mem none1])

/-- At an instant with `areset` high from the start, the domains are in reset once `clock1` has had an edge. -/
theorem allHigh_powerUp_iff {es : List Event} (stays : Event.areset false ∉ es) :
    AllHigh (runs step powerUp es) ↔ Event.clock1 ∈ es := by
  constructor
  · intro high
    exact Classical.not_not.mp fun none1 => by
      rw [AllHigh, reset1_powerUp none1] at high
      cases high.1
  · intro some1
    have some1 : 0 < es.count Event.clock1 := List.count_pos_iff.mpr some1
    have held := (held_while_high rfl held_powerUp stays).2
    have order := ordered_runs full_powerUp es
    have first : (runs step powerUp es).reset1 = true := held.outReset (by omega) (by omega)
    have second := order .syncClock2 first
    have third := order .syncClock3 second
    exact ⟨first, second, third, order .syncClock4 third⟩

theorem not_heldAtPowerUp (es : List Event) : ¬ HeldAtPowerUp es := by
  intro held
  have start := held [] List.nil_prefix List.not_mem_nil
  rw [allHigh_powerUp_iff List.not_mem_nil] at start
  cases start

/-- **At power-up no run is held**: the domains are in reset exactly from the first edge of `clock1` on. -/
theorem powerUp_never_held (es : List Event) : ¬ HeldAtPowerUp es ∧
    ∀ now, now <+: es → Event.areset false ∉ now → (AllHigh (runs step powerUp now) ↔ Event.clock1 ∈ now) :=
  ⟨not_heldAtPowerUp es, fun _ _ stays => allHigh_powerUp_iff stays⟩

/-- The other clocks start first. -/
def othersFirst : List Event :=
  [.clock2, .clock2, .clock2, .clock2, .clock3, .clock3, .clock3, .clock3, .clock4, .clock4, .clock4, .clock4]

/-- Every domain is released with `areset` high. -/
theorem powerUp_released :
    (runs step powerUp othersFirst).areset = true ∧ (runs step powerUp othersFirst).reset1 = false ∧
      (runs step powerUp othersFirst).reset2 = false ∧ (runs step powerUp othersFirst).reset3 = false ∧
      (runs step powerUp othersFirst).reset4 = false ∧ ¬ HeldAtPowerUp othersFirst :=
  ⟨by decide, by decide, by decide, by decide, by decide, not_heldAtPowerUp othersFirst⟩

end Zcu102.Reset
