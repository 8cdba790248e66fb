import Mathlib.Data.Fin.Basic
import Zcu102.Sim.Steps

/-!
# A flag barrier

Party 0 works while the others wait. Then it raises one flag per slot, in
order; every party waits for its own flag, clears it, and scans the slots in
order until each reads clear. There are at least as many slots as parties, and
the slots of absent parties read clear. The invariant ties the flags to the
phases: a flag is up exactly when it was raised and its party has not cleared
it. A scan gets past slot 0 only once party 0 has cleared its own flag, hence
after all flags were raised, so the party at every slot passed has cleared too.
-/

namespace Zcu102.Sim.Barrier
set_option autoImplicit false

/-- Where a party is. -/
inductive Phase where
  | pausing
  | working
  | raising (k : ℕ)
  | waiting
  | seen
  | scanning (k : ℕ)
  | left
  deriving DecidableEq, Repr

namespace Phase

/-- The phases of party 0 alone. -/
def leads : Phase → Bool
  | working | raising _ => true
  | _ => false

/-- The work is over. -/
def worked : Phase → Bool
  | pausing | working => false
  | _ => true

/-- The party has seen its flag. -/
def woken : Phase → Bool
  | seen | scanning _ | left => true
  | _ => false

/-- The party has cleared its flag. -/
def cleared : Phase → Bool
  | scanning _ | left => true
  | _ => false

/-- How many of the `m` flags party 0 has raised. -/
def raised (m : ℕ) : Phase → ℕ
  | pausing | working => 0
  | raising k => k
  | _ => m

theorem woken_of_cleared {p : Phase} (h : p.cleared = true) : p.woken = true := by
  cases p <;> first | rfl | cases h

end Phase

/-- The parties `0 .. n` and their flags. -/
structure State (n : ℕ) where
  phase : Fin (n + 1) → Phase
  flag : Fin (n + 1) → Bool

variable {n m : ℕ}

def State.start (n : ℕ) : State n := ⟨fun _ => .pausing, fun _ => false⟩

def State.goto (s : State n) (i : Fin (n + 1)) (p : Phase) : State n :=
  { s with phase := fun j => if j = i then p else s.phase j }

def State.setFlag (s : State n) (k : ℕ) (b : Bool) : State n :=
  { s with flag := fun j => if j.val = k then b else s.flag j }

@[simp] theorem State.goto_flag (s : State n) (i : Fin (n + 1)) (p : Phase) : (s.goto i p).flag = s.flag := rfl

@[simp] theorem State.setFlag_phase (s : State n) (k : ℕ) (b : Bool) : (s.setFlag k b).phase = s.phase := rfl

@[simp] theorem State.goto_self (s : State n) (i : Fin (n + 1)) (p : Phase) : (s.goto i p).phase i = p :=
  if_pos rfl

theorem State.goto_other (s : State n) {i j : Fin (n + 1)} (p : Phase) (ne : j ≠ i) :
    (s.goto i p).phase j = s.phase j := if_neg ne

/-- The moves of a party, over `m` slots. -/
inductive Step (m : ℕ) : State n → State n → Prop
  | lead {s : State n} : s.phase 0 = .pausing → Step m s (s.goto 0 .working)
  | follow {s : State n} {i : Fin (n + 1)} : s.phase i = .pausing → i ≠ 0 → Step m s (s.goto i .waiting)
  | finish {s : State n} {i : Fin (n + 1)} : s.phase i = .working → Step m s (s.goto i (.raising 0))
  | raise {s : State n} {i : Fin (n + 1)} {k : ℕ} : s.phase i = .raising k → k < m →
      Step m s ((s.setFlag k true).goto i (.raising (k + 1)))
  | raised {s : State n} {i : Fin (n + 1)} : s.phase i = .raising m → Step m s (s.goto i .waiting)
  | observe {s : State n} {i : Fin (n + 1)} : s.phase i = .waiting → s.flag i = true → Step m s (s.goto i .seen)
  | clear {s : State n} {i : Fin (n + 1)} : s.phase i = .seen →
      Step m s ((s.setFlag i.val false).goto i (.scanning 0))
  | check {s : State n} {i : Fin (n + 1)} {k : ℕ} : s.phase i = .scanning k →
      (∀ j : Fin (n + 1), j.val = k → s.flag j = false) → Step m s (s.goto i (.scanning (k + 1)))
  | leave {s : State n} {i : Fin (n + 1)} : s.phase i = .scanning m → Step m s (s.goto i .left)

/-- What ties flags and phases. -/
structure Inv (m : ℕ) (s : State n) : Prop where
  leader : ∀ i, (s.phase i).leads = true → i = 0
  bound : (s.phase 0).raised m ≤ m
  flags : ∀ j, s.flag j = true ↔ j.val < (s.phase 0).raised m ∧ (s.phase j).cleared = false
  woken : ∀ j, (s.phase j).woken = true → j.val < (s.phase 0).raised m
  scanned : ∀ i k, s.phase i = .scanning k → ∀ j, j.val < k → (s.phase j).cleared = true
  left : ∀ i, s.phase i = .left → ∀ j, (s.phase j).cleared = true

theorem inv_start (m n : ℕ) : Inv m (State.start n) := by
  refine ⟨?_, ?_, ?_, ?_, ?_, ?_⟩ <;> simp [State.start, Phase.leads, Phase.raised, Phase.woken]

/-- What the move of one party has to keep, as seen from the others: no flag is
lowered that they count on, and the flags fit the new phases. -/
theorem Inv.move {s s' : State n} {i : Fin (n + 1)} (inv : Inv m s)
    (others : ∀ j, j ≠ i → s'.phase j = s.phase j)
    (grows : (s.phase 0).raised m ≤ (s'.phase 0).raised m) (bound : (s'.phase 0).raised m ≤ m)
    (stays : (s.phase i).cleared = true → (s'.phase i).cleared = true)
    (leader : (s'.phase i).leads = true → i = 0)
    (flags : ∀ j, s'.flag j = true ↔ j.val < (s'.phase 0).raised m ∧ (s'.phase j).cleared = false)
    (woken : (s'.phase i).woken = true → i.val < (s'.phase 0).raised m)
    (scanned : ∀ k, s'.phase i = .scanning k → ∀ j, j.val < k → (s'.phase j).cleared = true)
    (left : s'.phase i = .left → ∀ j, (s'.phase j).cleared = true) : Inv m s' := by
  have cleared : ∀ j, (s.phase j).cleared = true → (s'.phase j).cleared = true := by
    intro j h
    by_cases same : j = i
    · subst same
      exact stays h
    · rwa [others j same]
  refine ⟨?_, bound, flags, ?_, ?_, ?_⟩
  · intro j h
    by_cases same : j = i
    · subst same
      exact leader h
    · rw [others j same] at h
      exact inv.leader j h
  · intro j h
    by_cases same : j = i
    · subst same
      exact woken h
    · rw [others j same] at h
      exact (inv.woken j h).trans_le grows
  · intro j k h
    by_cases same : j = i
    · subst same
      exact scanned k h
    · rw [others j same] at h
      exact fun l less => cleared l (inv.scanned j k h l less)
  · intro j h
    by_cases same : j = i
    · subst same
      exact left h
    · rw [others j same] at h
      exact fun l => cleared l (inv.left j h l)

/-- A move that raises no flag and clears none. -/
theorem Inv.quiet {s : State n} {i : Fin (n + 1)} {p : Phase} (inv : Inv m s)
    (raised : i = 0 → p.raised m = (s.phase 0).raised m)
    (cleared : p.cleared = (s.phase i).cleared) (leader : p.leads = true → i = 0)
    (woken : p.woken = true → i.val < (s.phase 0).raised m)
    (scanned : ∀ k, p = .scanning k → ∀ j, j.val < k → (s.phase j).cleared = true)
    (left : p = .left → ∀ j, (s.phase j).cleared = true) : Inv m (s.goto i p) := by
  have count : ((s.goto i p).phase 0).raised m = (s.phase 0).raised m := by
    by_cases same : (0 : Fin (n + 1)) = i
    · subst same
      rw [State.goto_self]
      exact raised rfl
    · rw [State.goto_other _ _ same]
  have clear : ∀ j, ((s.goto i p).phase j).cleared = (s.phase j).cleared := by
    intro j
    by_cases same : j = i
    · subst same
      rw [State.goto_self, cleared]
    · rw [State.goto_other _ _ same]
  apply inv.move (fun j ne => State.goto_other s p ne)
  · exact count.ge
  · exact count.trans_le inv.bound
  · rw [clear]
    exact id
  · rwa [State.goto_self]
  · intro j
    rw [count, clear]
    exact inv.flags j
  · rwa [State.goto_self, count]
  · intro k h j less
    rw [State.goto_self] at h
    rw [clear]
    exact scanned k h j less
  · intro h j
    rw [State.goto_self] at h
    rw [clear]
    exact left h j

/-- A scan finds a slot clear only when its party has cleared it. -/
theorem Inv.passed {s : State n} (inv : Inv m s) (fits : n < m) {i j : Fin (n + 1)} {k : ℕ}
    (here : s.phase i = .scanning k) (slot : j.val = k) (low : s.flag j = false) :
    (s.phase j).cleared = true := by
  -- party 0 raised the flag of `j`: it raised one, or it is itself past its scan
  have raised : j.val < (s.phase 0).raised m := by
    by_cases zero : k = 0
    · have := inv.woken i (by simp [here, Phase.woken])
      omega
    · have done := inv.scanned i k here 0 (by show 0 < k; omega)
      have all : (s.phase 0).raised m = m := by
        cases phase : s.phase 0 <;> simp_all [Phase.cleared, Phase.raised]
      have := j.isLt
      omega
  have flag := inv.flags j
  rw [low] at flag
  simpa [raised] using flag

theorem Inv.raise {s : State n} (inv : Inv m s) {k : ℕ} (here : s.phase 0 = .raising k) (less : k < m) :
    Inv m ((s.setFlag k true).goto 0 (.raising (k + 1))) := by
  have count : (s.phase 0).raised m = k := by rw [here, Phase.raised]
  apply inv.move (fun j ne => State.goto_other (s.setFlag k true) (.raising (k + 1)) ne)
  · rw [count, State.goto_self]
    exact Nat.le_succ k
  · rw [State.goto_self]
    exact less
  · simp [here, Phase.cleared]
  · exact fun _ => rfl
  · intro j
    have clear : (((s.setFlag k true).goto 0 (.raising (k + 1))).phase j).cleared = (s.phase j).cleared := by
      by_cases zero : j = 0
      · simp [zero, here, Phase.cleared]
      · rw [State.goto_other _ _ zero, State.setFlag_phase]
    rw [clear, State.goto_self, State.goto_flag]
    show (if j.val = k then true else s.flag j) = true ↔ j.val < k + 1 ∧ _
    by_cases slot : j.val = k
    · -- the flag just raised: its party cannot have cleared it yet
      rw [if_pos slot]
      have fresh : (s.phase j).cleared = false := by
        by_contra done
        have := inv.woken j (Phase.woken_of_cleared (by simpa using done))
        omega
      simp [fresh, slot]
    · rw [if_neg slot, inv.flags j, count, show j.val < k + 1 ↔ j.val < k by omega]
  · simp [Phase.woken]
  · simp
  · simp

theorem Inv.clear {s : State n} (inv : Inv m s) {i : Fin (n + 1)} (here : s.phase i = .seen) :
    Inv m ((s.setFlag i.val false).goto i (.scanning 0)) := by
  have count : (((s.setFlag i.val false).goto i (.scanning 0)).phase 0).raised m = (s.phase 0).raised m := by
    by_cases zero : (0 : Fin (n + 1)) = i
    · subst zero
      simp [here, Phase.raised]
    · rw [State.goto_other _ _ zero, State.setFlag_phase]
  have woken : i.val < (s.phase 0).raised m := inv.woken i (by simp [here, Phase.woken])
  apply inv.move (fun j ne => State.goto_other (s.setFlag i.val false) (.scanning 0) ne)
  · exact count.ge
  · exact count.trans_le inv.bound
  · simp [Phase.cleared]
  · simp [Phase.leads]
  · intro j
    rw [count, State.goto_flag]
    show (if j.val = i.val then false else s.flag j) = true ↔ _
    by_cases same : j = i
    · simp [same, Phase.cleared]
    · rw [State.goto_other _ _ same, State.setFlag_phase, if_neg (fun h => same (Fin.ext h))]
      exact inv.flags j
  · exact fun _ => count.symm ▸ woken
  · simp
  · simp

theorem Inv.step {s s' : State n} (inv : Inv m s) (fits : n < m) (h : Step m s s') : Inv m s' := by
  cases h with
  | lead here =>
    exact inv.quiet (by simp [here, Phase.raised]) (by simp [here, Phase.cleared]) (by simp) nofun nofun nofun
  | follow here other =>
    exact inv.quiet (fun zero => absurd zero other) (by simp [here, Phase.cleared]) nofun nofun nofun nofun
  | @finish i here =>
    have lead : i = 0 := inv.leader i (by simp [here, Phase.leads])
    subst lead
    exact inv.quiet (by simp [here, Phase.raised]) (by simp [here, Phase.cleared]) (by simp) nofun nofun nofun
  | @raised i here =>
    have lead : i = 0 := inv.leader i (by simp [here, Phase.leads])
    subst lead
    exact inv.quiet (by simp [here, Phase.raised]) (by simp [here, Phase.cleared]) (by simp) nofun nofun nofun
  | @observe i here up =>
    have raised := ((inv.flags i).1 up).1
    refine inv.quiet ?_ (by simp [here, Phase.cleared]) nofun (fun _ => raised) nofun nofun
    rintro rfl
    simp [here, Phase.raised]
  | @check i k here low =>
    refine inv.quiet ?_ (by simp [here, Phase.cleared]) nofun (fun _ => inv.woken i (by simp [here, Phase.woken])) ?_ nofun
    · rintro rfl
      simp [here, Phase.raised]
    · intro k' same j less
      obtain rfl : k + 1 = k' := Phase.scanning.inj same
      by_cases slot : j.val = k
      · exact inv.passed fits here slot (low j slot)
      · exact inv.scanned i k here j (by omega)
  | @leave i here =>
    refine inv.quiet ?_ (by simp [here, Phase.cleared]) nofun (fun _ => inv.woken i (by simp [here, Phase.woken])) nofun ?_
    · rintro rfl
      simp [here, Phase.raised]
    · intro _ j
      exact inv.scanned i m here j (by omega)
  | @raise i k here less =>
    have lead : i = 0 := inv.leader i (by simp [here, Phase.leads])
    subst lead
    exact inv.raise here less
  | @clear i here => exact inv.clear here

/-- The invariant along every run of the barrier. -/
theorem inv_reachable {s : State n} (fits : n < m) (h : Relation.ReflTransGen (Step m) (State.start n) s) :
    Inv m s := by
  induction h with
  | refl => exact inv_start m n
  | tail _ last ih => exact ih.step fits last

/-- **Once a party has left, every party has cleared its flag**, and all flags are down. -/
theorem Inv.all_cleared {s : State n} (inv : Inv m s) {i : Fin (n + 1)} (gone : s.phase i = .left)
    (j : Fin (n + 1)) : (s.phase j).cleared = true ∧ s.flag j = false := by
  have cleared := inv.left i gone j
  refine ⟨cleared, ?_⟩
  by_contra up
  rw [Bool.not_eq_false, inv.flags j, cleared] at up
  exact absurd up.2 (by decide)

end Zcu102.Sim.Barrier
