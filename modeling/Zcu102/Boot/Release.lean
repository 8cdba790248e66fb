import Zcu102.Boot.Hart

/-!
# The barrier lets every hart through

If `main` returns, whatever it returns, some schedule takes hart 0 to the jump
into the payload: hart 0 raises all bits, each other hart runs up to the
clearing of its own, and hart 0 clears its own and finds all of them clear.
`Spot` describes a hart that runs alone; the lemmas follow it instruction by
instruction.
-/

namespace Zcu102.Boot
set_option autoImplicit false
open Sim

variable {n : ℕ} {rom : Rom}

/-- Hart `i` is at `pc` with registers in `regs` and the bits are `msip`; the others are as in `r`. -/
structure Spot (r : Sys n) (i : Fin (n + 1)) (pc : ℕ) (regs : Hart → Prop) (msip : Fin (n + 1) → Bool)
    (s : Sys n) : Prop where
  here : (s.hart i).pc = pc
  regs : regs (s.hart i)
  bits : s.msip = msip
  others : ∀ j, j ≠ i → s.hart j = r.hart j

section Spot

variable {r : Sys n} {i : Fin (n + 1)} {pc pc' : ℕ} {regs regs' : Hart → Prop} {msip : Fin (n + 1) → Bool}
  {ins : Instr}

/-- What hart `i` does alone, with the given bits. -/
def alone (rom : Rom) (i : Fin (n + 1)) (msip : Fin (n + 1) → Bool) (h : Hart) (ins : Instr) : Outcome :=
  exec rom i (mipOf 0 (msip i)) (clintLoad msip) h ins

theorem Spot.step {s : Sys n} (spot : Spot r i pc regs msip s) (fetch : (progStart rom)[pc]? = some ins) :
    s.step rom ⟨i, 0⟩ = s.after i (alone rom i msip (s.hart i) ins) := by
  have fetch : (progStart rom)[(s.hart i).pc]? = some ins := by rw [spot.here, fetch]
  rw [Sys.step_fetch (a := ⟨i, 0⟩) fetch, alone, spot.bits]

/-- `k` instructions of hart `i` alone, as long as it does not store. -/
def stretch (rom : Rom) (i : Fin (n + 1)) (msip : Fin (n + 1) → Bool) : ℕ → Hart → Option Hart
  | 0, h => some h
  | k + 1, h =>
    match (progStart rom)[h.pc]? with
    | none => none
    | some ins =>
      match (alone rom i msip h ins).store with
      | none => stretch rom i msip k (alone rom i msip h ins).hart
      | some _ => none

theorem Spot.stretch {s : Sys n} {h : Hart} (k : ℕ) (bits : s.msip = msip) (others : ∀ j, j ≠ i → s.hart j = r.hart j)
    (runs_to : Boot.stretch rom i msip k (s.hart i) = some h) :
    ∃ es, (runs (Sys.step rom) s es).hart i = h ∧ (runs (Sys.step rom) s es).msip = msip ∧
      ∀ j, j ≠ i → (runs (Sys.step rom) s es).hart j = r.hart j := by
  induction k generalizing s with
  | zero => exact ⟨[], Option.some.inj runs_to, bits, others⟩
  | succ k ih =>
    simp only [Boot.stretch] at runs_to
    cases fetch : (progStart rom)[(s.hart i).pc]? with
    | none => simp [fetch] at runs_to
    | some ins =>
      simp only [fetch] at runs_to
      have spot : Spot r i (s.hart i).pc (fun _ => True) msip s := ⟨rfl, trivial, bits, others⟩
      have step := spot.step fetch
      cases store : (alone rom i msip (s.hart i) ins).store with
      | some _ => simp [store] at runs_to
      | none =>
        simp only [store] at runs_to
        obtain ⟨es, found⟩ := ih (s := s.step rom ⟨i, 0⟩) (by rw [step]; simp [Sys.after, store, bits])
          (fun j other => by rw [step]; simp [Sys.after, other, others j other])
          (by rw [step]; simpa [Sys.after] using runs_to)
        exact ⟨⟨i, 0⟩ :: es, found⟩

/-- A stretch without a store. -/
theorem leads_stretch (k : ℕ) (next : ∀ h : Hart, h.pc = pc → regs h →
    ∃ h', stretch rom i msip k h = some h' ∧ h'.pc = pc' ∧ regs' h') :
    Leads (Sys.step rom) (Spot r i pc regs msip) (Spot r i pc' regs' msip) := by
  intro s spot
  obtain ⟨h', runs_to, here, regs⟩ := next _ spot.here spot.regs
  obtain ⟨es, rfl, bits, others⟩ := Spot.stretch k spot.bits spot.others runs_to
  exact ⟨es, here, regs, bits, others⟩

/-- A store to the slot of a hart. -/
theorem leads_store {k : ℕ} {v : BitVec 32} (few : n < maxHarts) (bound : k < maxHarts) (ins : Instr)
    (fetch : (progStart rom)[pc]? = some ins) (next : ∀ h : Hart, h.pc = pc → regs h →
      (alone rom i msip h ins).store = some (slot k, v) ∧ (alone rom i msip h ins).hart.pc = pc' ∧
        regs' (alone rom i msip h ins).hart) :
    Leads (Sys.step rom) (Spot r i pc regs msip)
      (Spot r i pc' regs' fun j => if j.val = k then v.getLsbD 0 else msip j) := by
  refine Leads.step ⟨i, 0⟩ fun s spot => ?_
  obtain ⟨stored, here, regs⟩ := next _ spot.here spot.regs
  rw [spot.step fetch]
  refine ⟨?_, ?_, ?_, fun j other => ?_⟩
  · simpa [Sys.after] using here
  · simpa [Sys.after] using regs
  · simp only [Sys.after, stored, spot.bits, clintStore_slot few bound]
  · rw [← spot.others j other]
    exact if_neg other

end Spot

/-! ## The way of a hart -/

/-- From the entry to the branch of `smp_pause`. -/
theorem leads_pause (r : Sys n) (i : Fin (n + 1)) (msip : Fin (n + 1) → Bool) :
    Leads (Sys.step rom) (Spot r i 0 (fun _ => True) msip)
      (Spot r i 4 (fun h => h.reg .s1 = nonsmpHart ∧ h.reg .s2 = BitVec.ofNat 64 i) msip) := by
  apply leads_stretch 4
  rintro ⟨_, reg, mie, k⟩ rfl -
  exact ⟨_, rfl, rfl, rfl, rfl⟩

/-- Hart 0 goes on to `main`, the others to the wait. -/
theorem leads_main (r : Sys n) (msip : Fin (n + 1) → Bool) :
    Leads (Sys.step rom) (Spot r 0 0 (fun h => h.inMain = 0) msip) (Spot r 0 6 (fun h => h.inMain = 0) msip) := by
  apply leads_stretch 6
  rintro ⟨_, reg, mie, _⟩ rfl rfl
  refine ⟨_, rfl, rfl, rfl⟩

theorem leads_wait (few : n < maxHarts) (r : Sys n) {i : Fin (n + 1)} (other : i ≠ 0) (msip : Fin (n + 1) → Bool) :
    Leads (Sys.step rom) (Spot r i 0 (fun _ => True) msip) (Spot r i 13 (fun _ => True) msip) := by
  refine (leads_pause r i msip).trans (leads_stretch 1 ?_)
  rintro ⟨_, reg, mie, k⟩ rfl ⟨s1, s2⟩
  refine ⟨_, rfl, ?_, trivial⟩
  have ne : reg .s1 ≠ reg .s2 := by
    intro same
    apply other
    have zero := (hartid_eq_zero (show i.val < maxHarts by omega)).1 (s1.symm.trans (same.trans s2))
    exact Fin.ext zero
  simp [alone, exec, Hart.goto, Hart.get, ne]

/-- `main` returns if it ever does. -/
theorem leads_returned {t : ℕ} {v : Word} (before : ∀ k < t, rom.mainAt k = none) (returns : rom.mainAt t = some v)
    (r : Sys n) (msip : Fin (n + 1) → Bool) :
    Leads (Sys.step rom) (Spot r 0 6 (fun h => h.inMain = 0) msip) (Spot r 0 7 (fun _ => True) msip) := by
  have fetch : (progStart rom)[6]? = some .callMain := rfl
  have round : ∀ k, k + 1 < t + 1 → Leads (Sys.step rom) (Spot r 0 6 (fun h => h.inMain = k) msip)
      (Spot r 0 6 (fun h => h.inMain = k + 1) msip) := by
    intro k less
    have busy := before k (by omega)
    apply leads_stretch 1
    rintro ⟨_, reg, mie, inMain⟩ rfl here
    obtain rfl : inMain = k := here
    refine ⟨⟨6, reg, mie, inMain + 1⟩, ?_, rfl, rfl⟩
    simp only [stretch, fetch, alone, exec, busy]
  have last : ∀ k, k + 1 = t + 1 → Leads (Sys.step rom) (Spot r 0 6 (fun h => h.inMain = k) msip)
      (Spot r 0 7 (fun _ => True) msip) := by
    intro k same
    obtain rfl : k = t := by omega
    apply leads_stretch 1
    rintro ⟨_, reg, mie, inMain⟩ rfl here
    obtain rfl : inMain = k := here
    refine ⟨(Hart.set ⟨6, reg, mie, inMain⟩ .a0 v).next, ?_, rfl, trivial⟩
    simp only [stretch, fetch, alone, exec, returns]
  exact Leads.loop round last (Nat.succ_pos t)

/-- The branch at the end of both loops over the slots. -/
theorem leads_loop {r : Sys n} {i : Fin (n + 1)} {msip : Fin (n + 1) → Bool} {pc pc' target k : ℕ}
    {regs : Hart → Prop} (fetch : (progStart rom)[pc]? = some (.blt .s1 .s2 target)) (bound : k < maxHarts)
    (next : ∀ h : Hart, h.pc = pc → h.reg .s1 = slot (k + 1) →
      (if k + 1 < maxHarts then h.goto target else h.next).pc = pc' ∧
      regs (if k + 1 < maxHarts then h.goto target else h.next)) :
    Leads (Sys.step rom) (Spot r i pc (fun h => h.reg .s1 = slot (k + 1) ∧ h.reg .s2 = slot maxHarts) msip)
      (Spot r i pc' regs msip) := by
  apply leads_stretch 1
  intro h here ⟨s1, s2⟩
  refine ⟨_, ?_, next h here s1⟩
  simp [stretch, here, fetch, alone, exec, s1, s2, slot_slt bound]

/-- The bits up to `k` are set. -/
def raisedTo (k : ℕ) : Fin (n + 1) → Bool := fun j => decide (j.val < k)

theorem raisedTo_next (k : ℕ) :
    (fun j : Fin (n + 1) => if j.val = k then (1 : BitVec 32).getLsbD 0 else raisedTo k j) = raisedTo (k + 1) := by
  funext j
  unfold raisedTo
  by_cases same : j.val = k
  · simp [same]
  · rw [if_neg same]
    congr 1
    simp only [eq_iff_iff]
    omega

/-- One round of the loop that raises the bits, up to its branch. -/
theorem leads_raise (few : n < maxHarts) (r : Sys n) {k : ℕ} (bound : k < maxHarts) :
    Leads (Sys.step rom) (Spot r 0 8 (fun h => h.reg .s1 = slot k) (raisedTo k))
      (Spot r 0 12 (fun h => h.reg .s1 = slot (k + 1) ∧ h.reg .s2 = slot maxHarts) (raisedTo (k + 1))) := by
  have load : Leads (Sys.step rom) (Spot r 0 8 (fun h => h.reg .s1 = slot k) (raisedTo k))
      (Spot r 0 9 (fun h => h.reg .s1 = slot k ∧ h.reg .s2 = 1) (raisedTo k)) := by
    apply leads_stretch 1
    rintro ⟨_, reg, mie, k⟩ rfl s1
    exact ⟨_, rfl, rfl, s1, rfl⟩
  have store : Leads (Sys.step rom) (Spot r 0 9 (fun h => h.reg .s1 = slot k ∧ h.reg .s2 = 1) (raisedTo k))
      (Spot r 0 10 (fun h => h.reg .s1 = slot k) (raisedTo (k + 1))) := by
    rw [← raisedTo_next k]
    refine leads_store few bound (.sw .s2 0 .s1) rfl ?_
    rintro ⟨_, reg, mie, k⟩ rfl ⟨s1, s2⟩
    refine ⟨?_, rfl, s1⟩
    have s1 : reg .s1 = _ := s1
    have s2 : reg .s2 = _ := s2
    simp [alone, exec, s1, s2]
  have next : Leads (Sys.step rom) (Spot r 0 10 (fun h => h.reg .s1 = slot k) (raisedTo (k + 1)))
      (Spot r 0 12 (fun h => h.reg .s1 = slot (k + 1) ∧ h.reg .s2 = slot maxHarts) (raisedTo (k + 1))) := by
    apply leads_stretch 2
    rintro ⟨_, reg, mie, k⟩ rfl s1
    refine ⟨_, rfl, rfl, ?_, rfl⟩
    rw [← slot_next, ← s1]
    rfl
  exact (load.trans store).trans next

/-- Hart 0 raises every bit. -/
theorem leads_raised (few : n < maxHarts) (r : Sys n) :
    Leads (Sys.step rom) (Spot r 0 7 (fun _ => True) fun _ => false) (Spot r 0 13 (fun _ => True) fun _ => true) := by
  have enter : Leads (Sys.step rom) (Spot r 0 7 (fun _ => True) fun _ => false)
      (Spot r 0 8 (fun h => h.reg .s1 = slot 0) (raisedTo 0)) := by
    have none : (raisedTo 0 : Fin (n + 1) → Bool) = fun _ => false := by
      funext j
      simp [raisedTo]
    rw [none]
    apply leads_stretch 1
    rintro ⟨_, reg, mie, k⟩ rfl -
    exact ⟨_, rfl, rfl, rfl⟩
  have all : (raisedTo maxHarts : Fin (n + 1) → Bool) = fun _ => true := by
    funext j
    have := j.isLt
    simp only [raisedTo, decide_eq_true_eq]
    omega
  refine enter.trans (Leads.loop (P := fun k => Spot r 0 8 (fun h => h.reg .s1 = slot k) (raisedTo k)) ?_ ?_
    (show 0 < maxHarts by decide))
  · intro k less
    refine (leads_raise few r (by omega)).trans (leads_loop rfl (by omega) fun h _ s1 => ?_)
    rw [if_pos less]
    exact ⟨rfl, s1⟩
  · intro k same
    refine (leads_raise few r (by omega)).trans ?_
    have all : (raisedTo (k + 1) : Fin (n + 1) → Bool) = fun _ => true := same ▸ all
    rw [← all]
    refine leads_loop rfl (by omega) fun h here _ => ?_
    rw [if_neg (by omega), Hart.next_pc, here]
    exact ⟨rfl, trivial⟩

/-- A hart whose bit is set clears it. -/
theorem leads_cleared (few : n < maxHarts) (r : Sys n) {i : Fin (n + 1)} {msip : Fin (n + 1) → Bool}
    (up : msip i = true) : Leads (Sys.step rom) (Spot r i 13 (fun _ => True) msip)
      (Spot r i 22 (fun h => h.reg .s1 = slot 0) fun j => if j.val = i.val then false else msip j) := by
  have bound : i.val < maxHarts := by omega
  have seen : Leads (Sys.step rom) (Spot r i 13 (fun _ => True) msip) (Spot r i 16 (fun h => h.reg .s2 = 0x8) msip) := by
    apply leads_stretch 3
    rintro ⟨_, reg, mie, k⟩ rfl -
    refine ⟨_, rfl, rfl, ?_⟩
    show mipOf 0 (msip i) &&& 0x8 = 0x8
    rw [mipOf_and, up, if_pos rfl]
  have woken : Leads (Sys.step rom) (Spot r i 16 (fun h => h.reg .s2 = 0x8) msip) (Spot r i 17 (fun _ => True) msip) := by
    have fetch : (progStart rom)[16]? = some (.beqz .s2 13) := rfl
    apply leads_stretch 1
    intro h here s2
    refine ⟨h.next, ?_, by rw [Hart.next_pc, here], trivial⟩
    simp [stretch, here, fetch, alone, exec, s2]
  have address : Leads (Sys.step rom) (Spot r i 17 (fun _ => True) msip)
      (Spot r i 21 (fun h => h.reg .s1 = slot 0 ∧ h.reg .s2 = slot i) msip) := by
    apply leads_stretch 4
    rintro ⟨_, reg, mie, k⟩ rfl -
    exact ⟨_, rfl, rfl, rfl, slot_of_hartid bound⟩
  have store : Leads (Sys.step rom) (Spot r i 21 (fun h => h.reg .s1 = slot 0 ∧ h.reg .s2 = slot i) msip)
      (Spot r i 22 (fun h => h.reg .s1 = slot 0) fun j => if j.val = i.val then (0 : BitVec 32).getLsbD 0 else msip j) := by
    refine leads_store few bound (.sw .zero 0 .s2) rfl ?_
    rintro ⟨_, reg, mie, k⟩ rfl ⟨s1, s2⟩
    have s2 : reg .s2 = slot i := s2
    exact ⟨by simp [alone, exec, Hart.get, s2], rfl, s1⟩
  exact ((seen.trans woken).trans address).trans store

/-- With all bits clear a hart scans through to the jump. -/
theorem leads_jump (few : n < maxHarts) (r : Sys n) (i : Fin (n + 1)) :
    Leads (Sys.step rom) (Spot r i 22 (fun h => h.reg .s1 = slot 0) fun _ => false)
      (Spot r i jumpPc (fun _ => True) fun _ => false) := by
  have round : ∀ k, k < maxHarts → Leads (Sys.step rom) (Spot r i 22 (fun h => h.reg .s1 = slot k) fun _ => false)
      (Spot r i 26 (fun h => h.reg .s1 = slot (k + 1) ∧ h.reg .s2 = slot maxHarts) fun _ => false) := by
    intro k bound
    have load : Leads (Sys.step rom) (Spot r i 22 (fun h => h.reg .s1 = slot k) fun _ => false)
        (Spot r i 23 (fun h => h.reg .s1 = slot k ∧ h.reg .s2 = 0) fun _ => false) := by
      apply leads_stretch 1
      rintro ⟨_, reg, mie, m⟩ rfl s1
      have s1 : reg .s1 = slot k := s1
      refine ⟨_, rfl, rfl, s1, ?_⟩
      simpa [alone, exec, s1] using (clintLoad_slot few bound).2 fun _ _ => rfl
    have test : Leads (Sys.step rom) (Spot r i 23 (fun h => h.reg .s1 = slot k ∧ h.reg .s2 = 0) fun _ => false)
        (Spot r i 24 (fun h => h.reg .s1 = slot k) fun _ => false) := by
      have fetch : (progStart rom)[23]? = some (.bnez .s2 22) := rfl
      apply leads_stretch 1
      intro h here ⟨s1, s2⟩
      refine ⟨h.next, ?_, by rw [Hart.next_pc, here], s1⟩
      simp [stretch, here, fetch, alone, exec, s2]
    have next : Leads (Sys.step rom) (Spot r i 24 (fun h => h.reg .s1 = slot k) fun _ => false)
        (Spot r i 26 (fun h => h.reg .s1 = slot (k + 1) ∧ h.reg .s2 = slot maxHarts) fun _ => false) := by
      apply leads_stretch 2
      rintro ⟨_, reg, mie, m⟩ rfl s1
      refine ⟨_, rfl, rfl, ?_, rfl⟩
      rw [← slot_next, ← s1]
      rfl
    exact (load.trans test).trans next
  have exit : Leads (Sys.step rom) (Spot r i 27 (fun _ => True) fun _ => false)
      (Spot r i jumpPc (fun _ => True) fun _ => false) := by
    apply leads_stretch 3
    rintro ⟨_, reg, mie, k⟩ rfl -
    exact ⟨_, rfl, rfl, trivial⟩
  refine Leads.trans (Leads.loop (P := fun k => Spot r i 22 (fun h => h.reg .s1 = slot k) fun _ => false) ?_ ?_
    (show 0 < maxHarts by decide)) exit
  · intro k less
    refine (round k (by omega)).trans (leads_loop rfl (by omega) fun h _ s1 => ?_)
    rw [if_pos less]
    exact ⟨rfl, s1⟩
  · intro k same
    refine (round k (by omega)).trans (leads_loop rfl (by omega) fun h here _ => ?_)
    rw [if_neg (by omega), Hart.next_pc, here]
    exact ⟨rfl, trivial⟩

/-! ## All harts -/

/-- Hart 0 waits, and the harts from 1 up to `m` have cleared their bits; the rest have not started. -/
structure Lined (m : ℕ) (s : Sys n) : Prop where
  leader : (s.hart 0).pc = 13
  up : s.msip 0 = true
  passed : ∀ j : Fin (n + 1), j ≠ 0 → j.val < m → s.msip j = false
  behind : ∀ j : Fin (n + 1), j ≠ 0 → m ≤ j.val → s.msip j = true ∧ (s.hart j).pc = 0

/-- The next hart runs up to the clearing of its bit. -/
theorem leads_lined (few : n < maxHarts) {i : Fin (n + 1)} (other : i ≠ 0) :
    Leads (Sys.step rom) (Lined (n := n) i.val) (Lined (i.val + 1)) := by
  intro s lined
  obtain ⟨up, entry⟩ := lined.behind i other (Nat.le_refl _)
  have start : Spot s i 0 (fun _ => True) s.msip s := ⟨entry, trivial, rfl, fun _ _ => rfl⟩
  obtain ⟨es, spot⟩ := ((leads_wait few s other s.msip).trans (leads_cleared few s up)) s start
  have bit : ∀ j, (runs (Sys.step rom) s es).msip j = if j.val = i.val then false else s.msip j := congrFun spot.bits
  refine ⟨es, ?_, ?_, ?_, ?_⟩
  · rw [spot.others 0 other.symm]
    exact lined.leader
  · rw [bit, if_neg (fun same => other.symm (Fin.ext same))]
    exact lined.up
  · intro j ne less
    rw [bit]
    by_cases same : j.val = i.val
    · exact if_pos same
    · rw [if_neg same]
      exact lined.passed j ne (by omega)
  · intro j ne le
    have apart : j ≠ i := fun same => by
      rw [same] at le
      omega
    rw [bit, if_neg (by omega), spot.others j apart]
    exact lined.behind j ne (by omega)

/-- **If `main` returns, some schedule takes hart 0 to the jump.** -/
theorem reaches_jump (few : n < maxHarts) {t : ℕ} {v : Word} (before : ∀ k < t, rom.mainAt k = none)
    (returns : rom.mainAt t = some v) (reg : Fin (n + 1) → Reg → Word) :
    ∃ acts, ((runs (Sys.step rom) (Sys.start reg) acts).hart 0).pc = jumpPc := by
  have raised : Leads (Sys.step rom) (fun s : Sys n => s = Sys.start reg) (Lined 1) := by
    rintro s rfl
    have start : Spot (Sys.start reg) 0 0 (fun h => h.inMain = 0) (fun _ => false) (Sys.start reg) :=
      ⟨rfl, rfl, rfl, fun _ _ => rfl⟩
    obtain ⟨es, spot⟩ := (((leads_main (Sys.start reg) _).trans (leads_returned before returns _ _)).trans
      (leads_raised few _)) _ start
    refine ⟨es, spot.here, by rw [spot.bits], ?_, ?_⟩
    · intro j ne less
      exact absurd (Fin.ext (Nat.lt_one_iff.1 less)) ne
    · intro j ne _
      rw [spot.bits, spot.others j ne]
      exact ⟨rfl, rfl⟩
  have lined : ∀ m, m ≤ n → Leads (Sys.step rom) (fun s : Sys n => s = Sys.start reg) (Lined (m + 1)) := by
    intro m le
    induction m with
    | zero => exact raised
    | succ m ih =>
      have other : (⟨m + 1, by omega⟩ : Fin (n + 1)) ≠ 0 := by simp [Fin.ext_iff]
      exact (ih (by omega)).trans (leads_lined few other)
  have last : Leads (Sys.step rom) (Lined (n := n) (n + 1)) fun s => (s.hart 0).pc = jumpPc := by
    intro s all
    have start : Spot s 0 13 (fun _ => True) s.msip s := ⟨all.leader, trivial, rfl, fun _ _ => rfl⟩
    have clear : (fun j : Fin (n + 1) => if j.val = (0 : Fin (n + 1)).val then false else s.msip j) = fun _ => false := by
      funext j
      by_cases zero : j = 0
      · exact if_pos (congrArg Fin.val zero)
      · rw [if_neg fun same => zero (Fin.ext same)]
        exact all.passed j zero j.isLt
    have cleared : Leads (Sys.step rom) _ _ := leads_cleared few s all.up
    rw [clear] at cleared
    obtain ⟨es, spot⟩ := (cleared.trans (leads_jump few s 0)) s start
    exact ⟨es, spot.here⟩
  exact ((lined n (Nat.le_refl n)).trans last) _ rfl

end Zcu102.Boot
