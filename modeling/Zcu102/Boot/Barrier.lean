import Zcu102.Sim.Barrier
import Zcu102.Boot.Release

/-!
# The hart barrier

The harts in the ROM refine the flag barrier: each instruction of a hart is a
move of its party or none (`simulates`). `At` relates a hart's program counter
and registers to the phase of its party, `Past` relates the log. The guarantees
of `smp_resume` are read off the invariant of the abstract barrier.
-/

namespace Zcu102.Boot
set_option autoImplicit false
open Sim Sim.Barrier

variable {n : ℕ}

/-! ## The simulation relation -/

/-- Hart `i` stands for a party in the given phase. -/
inductive At (i : ℕ) (h : Hart) : Phase → Prop
  | entry : h.pc = 0 → At i h .pausing
  | enable : h.pc = 1 → At i h .pausing
  | loadLeader : h.pc = 2 → At i h .pausing
  | loadHartid : h.pc = 3 → h.reg .s1 = nonsmpHart → At i h .pausing
  | branchLeader : h.pc = 4 → h.reg .s1 = nonsmpHart → h.reg .s2 = BitVec.ofNat 64 i → At i h .pausing
  | stack : h.pc = 5 → At i h .working
  | main : h.pc = 6 → At i h .working
  | raiseInit : h.pc = 7 → At i h (.raising 0)
  | raiseOne {k : ℕ} : h.pc = 8 → k < maxHarts → h.reg .s1 = slot k → At i h (.raising k)
  | raiseStore {k : ℕ} : h.pc = 9 → k < maxHarts → h.reg .s1 = slot k → h.reg .s2 = 1 → At i h (.raising k)
  | raiseNext {k : ℕ} : h.pc = 10 → k < maxHarts → h.reg .s1 = slot k → At i h (.raising (k + 1))
  | raiseEnd {k : ℕ} : h.pc = 11 → k < maxHarts → h.reg .s1 = slot (k + 1) → At i h (.raising (k + 1))
  | raiseLoop {k : ℕ} : h.pc = 12 → k < maxHarts → h.reg .s1 = slot (k + 1) → h.reg .s2 = slot maxHarts →
      At i h (.raising (k + 1))
  | sleep : h.pc = 13 → At i h .waiting
  | pending : h.pc = 14 → At i h .waiting
  | maskNone : h.pc = 15 → h.reg .s2 &&& 0x8 = 0 → At i h .waiting
  | testNone : h.pc = 16 → h.reg .s2 = 0 → At i h .waiting
  | maskSome : h.pc = 15 → h.reg .s2 &&& 0x8 ≠ 0 → At i h .seen
  | testSome : h.pc = 16 → h.reg .s2 ≠ 0 → At i h .seen
  | clearInit : h.pc = 17 → At i h .seen
  | clearHartid : h.pc = 18 → h.reg .s1 = slot 0 → At i h .seen
  | clearShift : h.pc = 19 → h.reg .s1 = slot 0 → h.reg .s2 = BitVec.ofNat 64 i → At i h .seen
  | clearAdd : h.pc = 20 → h.reg .s1 = slot 0 → h.reg .s2 = BitVec.ofNat 64 i <<< 2 → At i h .seen
  | clearStore : h.pc = 21 → h.reg .s1 = slot 0 → h.reg .s2 = slot i → At i h .seen
  | scanLoad {k : ℕ} : h.pc = 22 → k < maxHarts → h.reg .s1 = slot k → At i h (.scanning k)
  | scanBusy {k : ℕ} : h.pc = 23 → k < maxHarts → h.reg .s1 = slot k → h.reg .s2 ≠ 0 → At i h (.scanning k)
  | scanClear {k : ℕ} : h.pc = 23 → k < maxHarts → h.reg .s1 = slot k → h.reg .s2 = 0 → At i h (.scanning (k + 1))
  | scanNext {k : ℕ} : h.pc = 24 → k < maxHarts → h.reg .s1 = slot k → At i h (.scanning (k + 1))
  | scanEnd {k : ℕ} : h.pc = 25 → k < maxHarts → h.reg .s1 = slot (k + 1) → At i h (.scanning (k + 1))
  | scanLoop {k : ℕ} : h.pc = 26 → k < maxHarts → h.reg .s1 = slot (k + 1) → h.reg .s2 = slot maxHarts →
      At i h (.scanning (k + 1))
  | resumed : h.pc = 27 → At i h .left
  | deviceTree : h.pc = 28 → At i h .left
  | target : h.pc = 29 → At i h .left
  | jump : h.pc = 30 → h.reg .s1 = BitVec.ofNat 64 payloadDest → At i h .left
  | gone : h.pc = 31 → At i h .left

/-- Hart `i` read its software interrupt as pending, and later stored 0 to its own `msip`. -/
def Acknowledged (i : ℕ) (log : List Access) : Prop :=
  ∃ pre mid post v, log = pre ++ .readMip i v :: (mid ++ .store i (slot i) 0 :: post) ∧ v &&& 0x8 ≠ 0

/-- What the log holds of a party. -/
structure Past (i : ℕ) (p : Phase) (log : List Access) : Prop where
  finished : i = 0 → p.worked = true → ∃ v, .returned 0 v ∈ log
  observed : p.woken = true → ∃ v, .readMip i v ∈ log ∧ v &&& 0x8 ≠ 0
  acknowledged : p.cleared = true → Acknowledged i log

theorem Acknowledged.append {i : ℕ} {log : List Access} (h : Acknowledged i log) (more : List Access) :
    Acknowledged i (log ++ more) := by
  obtain ⟨pre, mid, post, v, rfl, set⟩ := h
  exact ⟨pre, mid, post ++ more, v, by simp, set⟩

theorem Past.append {i : ℕ} {p : Phase} {log : List Access} (h : Past i p log) (more : List Access) :
    Past i p (log ++ more) where
  finished := by
    intro zero worked
    obtain ⟨v, member⟩ := h.finished zero worked
    exact ⟨v, List.mem_append_left _ member⟩
  observed := by
    intro woken
    obtain ⟨v, member, set⟩ := h.observed woken
    exact ⟨v, List.mem_append_left _ member, set⟩
  acknowledged := fun cleared => (h.acknowledged cleared).append more

/-- Before its bit is seen, a party has only its work in the log. -/
theorem Past.asleep {i : ℕ} {p : Phase} {log : List Access} (asleep : p.woken = false)
    (finished : i = 0 → p.worked = true → ∃ v, .returned 0 v ∈ log) : Past i p log where
  finished := finished
  observed := by simp [asleep]
  acknowledged := by
    intro cleared
    rw [Phase.woken_of_cleared cleared] at asleep
    cases asleep

/-- A move that needs nothing new in the log. -/
theorem Past.mono {i : ℕ} {p q : Phase} {log : List Access} (h : Past i p log)
    (worked : i = 0 → q.worked = true → p.worked = true) (woken : q.woken = true → p.woken = true)
    (cleared : q.cleared = true → p.cleared = true) : Past i q log :=
  ⟨fun zero done => h.finished zero (worked zero done), fun up => h.observed (woken up),
    fun done => h.acknowledged (cleared done)⟩

/-- The harts, their bits and their log stand for the parties and flags of a barrier. -/
structure Rel (s : Sys n) (b : State n) : Prop where
  at_phase : ∀ i : Fin (n + 1), At i (s.hart i) (b.phase i)
  flags : s.msip = b.flag
  past : ∀ i : Fin (n + 1), Past i (b.phase i) s.log

theorem rel_start (reg : Fin (n + 1) → Reg → Word) : Rel (Sys.start reg) (State.start n) where
  at_phase := fun _ => At.entry rfl
  flags := rfl
  past := fun _ => Past.asleep rfl (by simp [State.start, Phase.worked])

/-- An outcome of hart `i` that moves its party to `p`. -/
theorem Rel.move {s : Sys n} {b b' : State n} {i : Fin (n + 1)} {o : Outcome} (rel : Rel s b)
    (others : ∀ j, j ≠ i → b'.phase j = b.phase j) (here : At i o.hart (b'.phase i))
    (flags : (s.after i o).msip = b'.flag) (past : Past i (b'.phase i) (s.log ++ o.note)) : Rel (s.after i o) b' where
  at_phase := by
    intro j
    show At j.val (if j = i then o.hart else s.hart j) (b'.phase j)
    by_cases same : j = i
    · subst same
      rwa [if_pos rfl]
    · rw [if_neg same, others j same]
      exact rel.at_phase j
  flags := flags
  past := by
    intro j
    by_cases same : j = i
    · subst same
      exact past
    · rw [others j same]
      exact (rel.past j).append o.note

/-- An outcome that is no move. -/
theorem Rel.stutter {s : Sys n} {b : State n} {i : Fin (n + 1)} {o : Outcome} (rel : Rel s b)
    (silent : o.store = none) (here : At i o.hart (b.phase i)) : Rel (s.after i o) b := by
  apply rel.move (fun _ _ => rfl) here
  · rw [Sys.after, silent]
    exact rel.flags
  · exact (rel.past i).append o.note

/-- A move that stores nothing. -/
theorem Rel.goto {s : Sys n} {b : State n} {i : Fin (n + 1)} {o : Outcome} {p : Phase} (rel : Rel s b)
    (silent : o.store = none) (here : At i o.hart p) (past : Past i p (s.log ++ o.note)) :
    Rel (s.after i o) (b.goto i p) := by
  apply rel.move (fun j ne => State.goto_other b p ne)
  · rwa [State.goto_self]
  · rw [Sys.after, silent]
    exact rel.flags
  · rwa [State.goto_self]

/-- A move that stores to the slot of a hart. -/
theorem Rel.store {s : Sys n} {b : State n} {i : Fin (n + 1)} {o : Outcome} {p : Phase} {k : ℕ} {v : BitVec 32}
    (rel : Rel s b) (few : n < maxHarts) (bound : k < maxHarts) (stored : o.store = some (slot k, v))
    (here : At i o.hart p) (past : Past i p (s.log ++ o.note)) :
    Rel (s.after i o) ((b.setFlag k (v.getLsbD 0)).goto i p) := by
  apply rel.move (fun j ne => State.goto_other (b.setFlag k (v.getLsbD 0)) p ne)
  · rwa [State.goto_self]
  · simp only [Sys.after, stored, clintStore_slot few bound, rel.flags, State.goto_flag, State.setFlag]
  · rwa [State.goto_self]

/-! ## Every instruction is a move or none -/

section Simulation

variable {rom : Rom} {s : Sys n} {b : State n} {i : Fin (n + 1)} {pending : Word} {ins : Instr}

/-- The outcome of `ins` for hart `i`. -/
def outcome (rom : Rom) (s : Sys n) (i : Fin (n + 1)) (pending : Word) (ins : Instr) : Outcome :=
  exec rom i (mipOf pending (s.msip i)) (clintLoad s.msip) (s.hart i) ins

/-- The machine after one instruction stands for the barrier after at most one move. -/
def Simulated (rom : Rom) (s : Sys n) (b : State n) (i : Fin (n + 1)) (pending : Word) : Prop :=
  ∃ b', Relation.ReflGen (Step maxHarts) b b' ∧ Rel (s.step rom ⟨i, pending⟩) b'

theorem Rel.stays (rel : Rel s b) (fetch : (progStart rom)[(s.hart i).pc]? = some ins)
    (silent : (outcome rom s i pending ins).store = none)
    (here : At i (outcome rom s i pending ins).hart (b.phase i)) : Simulated rom s b i pending :=
  ⟨b, .refl, Sys.step_fetch (a := ⟨i, pending⟩) fetch ▸ rel.stutter silent here⟩

theorem Rel.moves {p : Phase} (rel : Rel s b) (fetch : (progStart rom)[(s.hart i).pc]? = some ins)
    (move : Step maxHarts b (b.goto i p)) (silent : (outcome rom s i pending ins).store = none)
    (here : At i (outcome rom s i pending ins).hart p)
    (past : Past i p (s.log ++ (outcome rom s i pending ins).note)) : Simulated rom s b i pending :=
  ⟨b.goto i p, .single move, Sys.step_fetch (a := ⟨i, pending⟩) fetch ▸ rel.goto silent here past⟩

/-- `smp_pause`. -/
theorem Rel.pausing (rel : Rel s b) (few : n < maxHarts) (phase : b.phase i = .pausing) :
    Simulated rom s b i pending := by
  have here := rel.at_phase i
  rw [phase] at here
  cases here with
  | entry pc =>
    have fetch : (progStart rom)[(s.hart i).pc]? = some (.li .s2 0x8) := by rw [pc]; rfl
    exact rel.stays fetch rfl (phase ▸ At.enable (by simp [outcome, exec, pc]))
  | enable pc =>
    have fetch : (progStart rom)[(s.hart i).pc]? = some (.csrwMie .s2) := by rw [pc]; rfl
    exact rel.stays fetch rfl (phase ▸ At.loadLeader (by simp [outcome, exec, pc]))
  | loadLeader pc =>
    have fetch : (progStart rom)[(s.hart i).pc]? = some (.li .s1 nonsmpHart) := by rw [pc]; rfl
    exact rel.stays fetch rfl (phase ▸ At.loadHartid (by simp [outcome, exec, pc]) (by simp [outcome, exec]))
  | loadHartid pc s1 =>
    have fetch : (progStart rom)[(s.hart i).pc]? = some (.csrrMhartid .s2) := by rw [pc]; rfl
    exact rel.stays fetch rfl (phase ▸ At.branchLeader (by simp [outcome, exec, pc]) (by simp [outcome, exec, s1])
      (by simp [outcome, exec]))
  | branchLeader pc s1 s2 =>
    have fetch : (progStart rom)[(s.hart i).pc]? = some (.bne .s1 .s2 13) := by rw [pc]; rfl
    have leads := hartid_eq_zero (show i.val < maxHarts by omega)
    by_cases zero : i = 0
    · subst zero
      have next : (outcome rom s 0 pending (.bne .s1 .s2 13)).hart = (s.hart 0).next := by
        simp [outcome, exec, s1, s2, nonsmpHart]
      refine rel.moves fetch (Step.lead phase) rfl (next ▸ At.stack (by simp [pc])) ?_
      exact Past.asleep rfl (by simp [Phase.worked])
    · have next : (outcome rom s i pending (.bne .s1 .s2 13)).hart = (s.hart i).goto 13 := by
        simp only [outcome, exec, ne_eq, reduceCtorEq, not_false_eq_true, Hart.get_of_ne, s1, s2]
        exact if_pos fun same => zero (Fin.ext (leads.1 same))
      refine rel.moves fetch (Step.follow phase zero) rfl (next ▸ At.sleep rfl) ?_
      exact Past.asleep rfl fun h => absurd (Fin.ext h) zero

/-- `main`. -/
theorem Rel.working (rel : Rel s b) (phase : b.phase i = .working) : Simulated rom s b i pending := by
  have here := rel.at_phase i
  rw [phase] at here
  cases here with
  | stack pc =>
    have fetch : (progStart rom)[(s.hart i).pc]? = some (.li .sp (BitVec.ofNat 64 (payloadDest + 0xffff000))) := by
      rw [pc]; rfl
    exact rel.stays fetch rfl (phase ▸ At.main (by simp [outcome, exec, pc]))
  | main pc =>
    have fetch : (progStart rom)[(s.hart i).pc]? = some .callMain := by rw [pc]; rfl
    cases out : rom.mainAt (s.hart i).inMain with
    | none =>
      have waits : outcome rom s i pending .callMain =
          { hart := { s.hart i with inMain := (s.hart i).inMain + 1 } } := by simp [outcome, exec, out]
      refine rel.stays fetch ?_ ?_
      · rw [waits]
      · rw [waits, phase]
        exact At.main pc
    | some v =>
      have returns : outcome rom s i pending .callMain =
          { hart := ((s.hart i).set .a0 v).next, note := [.returned i v] } := by simp [outcome, exec, out]
      refine rel.moves fetch (Step.finish phase) ?_ ?_ ?_
      · rw [returns]
      · rw [returns]
        exact At.raiseInit (by simp [pc])
      · rw [returns]
        refine Past.asleep rfl fun zero _ => ⟨v, ?_⟩
        simp [zero]

/-- The loop that raises the bits. -/
theorem Rel.raising (rel : Rel s b) (few : n < maxHarts) {k : ℕ} (phase : b.phase i = .raising k) :
    Simulated rom s b i pending := by
  have here := rel.at_phase i
  rw [phase] at here
  cases here with
  | raiseInit pc =>
    have fetch : (progStart rom)[(s.hart i).pc]? = some (.li .s1 (slot 0)) := by rw [pc]; rfl
    exact rel.stays fetch rfl (phase ▸ At.raiseOne (by simp [outcome, exec, pc]) (by decide) (by simp [outcome, exec]))
  | raiseOne pc bound s1 =>
    have fetch : (progStart rom)[(s.hart i).pc]? = some (.li .s2 1) := by rw [pc]; rfl
    exact rel.stays fetch rfl (phase ▸ At.raiseStore (by simp [outcome, exec, pc]) bound
      (by simp [outcome, exec, s1]) (by simp [outcome, exec]))
  | raiseStore pc bound s1 s2 =>
    have fetch : (progStart rom)[(s.hart i).pc]? = some (.sw .s2 0 .s1) := by rw [pc]; rfl
    have stores : outcome rom s i pending (.sw .s2 0 .s1) =
        { hart := (s.hart i).next, store := some (slot k, 1), note := [.store i (slot k) 1] } := by
      simp [outcome, exec, s1, s2]
    have past : Past i (.raising (k + 1)) (s.log ++ [.store i (slot k) 1]) :=
      Past.asleep rfl fun zero _ => ((rel.past i).append _).finished zero (by simp [phase, Phase.worked])
    refine ⟨_, .single (Step.raise phase bound), ?_⟩
    rw [Sys.step_fetch (a := ⟨i, pending⟩) fetch]
    have here : At i (s.hart i).next (.raising (k + 1)) := At.raiseNext (by simp [pc]) bound (by simp [s1])
    exact rel.store (o := outcome rom s i pending (.sw .s2 0 .s1)) few bound (by rw [stores]) (by rwa [stores])
      (by rwa [stores])
  | @raiseNext k pc bound s1 =>
    have fetch : (progStart rom)[(s.hart i).pc]? = some (.addi .s1 .s1 4) := by rw [pc]; rfl
    exact rel.stays fetch rfl (phase ▸ At.raiseEnd (by simp [outcome, exec, pc]) bound
      (by simp [outcome, exec, s1, slot_next]))
  | @raiseEnd k pc bound s1 =>
    have fetch : (progStart rom)[(s.hart i).pc]? = some (.li .s2 (slot maxHarts)) := by rw [pc]; rfl
    exact rel.stays fetch rfl (phase ▸ At.raiseLoop (by simp [outcome, exec, pc]) bound
      (by simp [outcome, exec, s1]) (by simp [outcome, exec]))
  | @raiseLoop k pc bound s1 s2 =>
    have fetch : (progStart rom)[(s.hart i).pc]? = some (.blt .s1 .s2 8) := by rw [pc]; rfl
    by_cases more : k + 1 < maxHarts
    · have loops : (outcome rom s i pending (.blt .s1 .s2 8)).hart = (s.hart i).goto 8 := by
        simp [outcome, exec, s1, s2, slot_slt bound, more]
      exact rel.stays fetch rfl (phase ▸ loops ▸ At.raiseOne rfl more (by simp [s1]))
    · have ends : (outcome rom s i pending (.blt .s1 .s2 8)).hart = (s.hart i).next := by
        simp [outcome, exec, s1, s2, slot_slt bound, more]
      have last : b.phase i = .raising maxHarts := by rw [phase, show k + 1 = maxHarts by omega]
      refine rel.moves fetch (Step.raised last) rfl (ends ▸ At.sleep (by simp [pc])) ?_
      exact Past.asleep rfl fun zero _ => ((rel.past i).append _).finished zero (by simp [phase, Phase.worked])

/-- The wait for the own bit. -/
theorem Rel.waiting (rel : Rel s b) (phase : b.phase i = .waiting) : Simulated rom s b i pending := by
  have here := rel.at_phase i
  rw [phase] at here
  cases here with
  | sleep pc =>
    have fetch : (progStart rom)[(s.hart i).pc]? = some .wfi := by rw [pc]; rfl
    exact rel.stays fetch rfl (phase ▸ At.pending (by simp [outcome, exec, pc]))
  | pending pc =>
    have fetch : (progStart rom)[(s.hart i).pc]? = some (.csrrMip .s2) := by rw [pc]; rfl
    have masked := mipOf_and pending (s.msip i)
    cases up : s.msip i with
    | false =>
      rw [up] at masked
      exact rel.stays fetch rfl (phase ▸ At.maskNone (by simp [outcome, exec, pc])
        (by simpa [outcome, exec, up] using masked))
    | true =>
      rw [up] at masked
      have set : mipOf pending true &&& 0x8 ≠ 0 := by
        rw [masked]
        decide
      refine rel.moves fetch (Step.observe phase (rel.flags ▸ up)) rfl (At.maskSome (by simp [outcome, exec, pc])
        (by simpa [outcome, exec, up] using set)) ?_
      refine ⟨fun zero _ => ?_, fun _ => ⟨mipOf pending true, by simp [outcome, exec, up], set⟩, by simp [Phase.cleared]⟩
      exact ((rel.past i).append _).finished zero (by simp [phase, Phase.worked])
  | maskNone pc s2 =>
    have fetch : (progStart rom)[(s.hart i).pc]? = some (.andi .s2 .s2 0x8) := by rw [pc]; rfl
    exact rel.stays fetch rfl (phase ▸ At.testNone (by simp [outcome, exec, pc])
      (by simpa [outcome, exec] using s2))
  | testNone pc s2 =>
    have fetch : (progStart rom)[(s.hart i).pc]? = some (.beqz .s2 13) := by rw [pc]; rfl
    have loops : (outcome rom s i pending (.beqz .s2 13)).hart = (s.hart i).goto 13 := by simp [outcome, exec, s2]
    exact rel.stays fetch rfl (phase ▸ loops ▸ At.sleep rfl)

/-- From the bit seen to its clearing. -/
theorem Rel.seen (rel : Rel s b) (few : n < maxHarts) (phase : b.phase i = .seen) :
    Simulated rom s b i pending := by
  have here := rel.at_phase i
  rw [phase] at here
  have bound : i.val < maxHarts := by omega
  cases here with
  | maskSome pc s2 =>
    have fetch : (progStart rom)[(s.hart i).pc]? = some (.andi .s2 .s2 0x8) := by rw [pc]; rfl
    exact rel.stays fetch rfl (phase ▸ At.testSome (by simp [outcome, exec, pc])
      (by simpa [outcome, exec] using s2))
  | testSome pc s2 =>
    have fetch : (progStart rom)[(s.hart i).pc]? = some (.beqz .s2 13) := by rw [pc]; rfl
    have falls : (outcome rom s i pending (.beqz .s2 13)).hart = (s.hart i).next := by
      simp only [outcome, exec, ne_eq, reduceCtorEq, not_false_eq_true, Hart.get_of_ne]
      exact if_neg s2
    exact rel.stays fetch rfl (phase ▸ falls ▸ At.clearInit (by simp [pc]))
  | clearInit pc =>
    have fetch : (progStart rom)[(s.hart i).pc]? = some (.li .s1 (slot 0)) := by rw [pc]; rfl
    exact rel.stays fetch rfl (phase ▸ At.clearHartid (by simp [outcome, exec, pc]) (by simp [outcome, exec]))
  | clearHartid pc s1 =>
    have fetch : (progStart rom)[(s.hart i).pc]? = some (.csrrMhartid .s2) := by rw [pc]; rfl
    exact rel.stays fetch rfl (phase ▸ At.clearShift (by simp [outcome, exec, pc]) (by simp [outcome, exec, s1])
      (by simp [outcome, exec]))
  | clearShift pc s1 s2 =>
    have fetch : (progStart rom)[(s.hart i).pc]? = some (.slli .s2 .s2 2) := by rw [pc]; rfl
    exact rel.stays fetch rfl (phase ▸ At.clearAdd (by simp [outcome, exec, pc]) (by simp [outcome, exec, s1])
      (by simp [outcome, exec, s2]))
  | clearAdd pc s1 s2 =>
    have fetch : (progStart rom)[(s.hart i).pc]? = some (.add .s2 .s2 .s1) := by rw [pc]; rfl
    exact rel.stays fetch rfl (phase ▸ At.clearStore (by simp [outcome, exec, pc]) (by simp [outcome, exec, s1])
      (by simp [outcome, exec, s1, s2, slot_of_hartid bound]))
  | clearStore pc s1 s2 =>
    have fetch : (progStart rom)[(s.hart i).pc]? = some (.sw .zero 0 .s2) := by rw [pc]; rfl
    have stores : outcome rom s i pending (.sw .zero 0 .s2) =
        { hart := (s.hart i).next, store := some (slot i, 0), note := [.store i (slot i) 0] } := by
      simp [outcome, exec, s2, Hart.get]
    have here : At i (s.hart i).next (.scanning 0) := At.scanLoad (by simp [pc]) (by decide) (by simp [s1])
    have past : Past i (.scanning 0) (s.log ++ [.store i (slot i) 0]) := by
      have old := rel.past i
      rw [phase] at old
      obtain ⟨v, member, set⟩ := old.observed rfl
      obtain ⟨pre, post, split⟩ := List.append_of_mem member
      refine ⟨fun zero _ => (old.append _).finished zero rfl, fun _ => (old.append _).observed rfl, fun _ => ?_⟩
      exact ⟨pre, post, [], v, by simp [split], set⟩
    refine ⟨_, .single (Step.clear phase), ?_⟩
    rw [Sys.step_fetch (a := ⟨i, pending⟩) fetch]
    exact rel.store (o := outcome rom s i pending (.sw .zero 0 .s2)) few bound (by rw [stores]) (by rwa [stores])
      (by rwa [stores])

/-- The scan of all bits. -/
theorem Rel.scanning (rel : Rel s b) (few : n < maxHarts) {k : ℕ} (phase : b.phase i = .scanning k) :
    Simulated rom s b i pending := by
  have here := rel.at_phase i
  rw [phase] at here
  cases here with
  | scanLoad pc bound s1 =>
    have fetch : (progStart rom)[(s.hart i).pc]? = some (.lw .s2 0 .s1) := by rw [pc]; rfl
    have loads : outcome rom s i pending (.lw .s2 0 .s1) =
        { hart := ((s.hart i).set .s2 ((clintLoad s.msip (slot k)).signExtend 64)).next,
          note := [.load i (slot k) (clintLoad s.msip (slot k))] } := by
      simp [outcome, exec, s1]
    by_cases low : (clintLoad s.msip (slot k)).signExtend 64 = 0
    · have clear := (clintLoad_slot few bound).1 low
      rw [rel.flags] at clear
      refine rel.moves fetch (Step.check phase clear) (by rw [loads]) ?_ ?_
      · rw [loads]
        exact At.scanClear (by simp [pc]) bound (by simp [s1]) (by simpa using low)
      · exact ((rel.past i).append _).mono (by simp [phase, Phase.worked]) (by simp [phase, Phase.woken])
          (by simp [phase, Phase.cleared])
    · refine rel.stays fetch (by rw [loads]) ?_
      rw [loads, phase]
      exact At.scanBusy (by simp [pc]) bound (by simp [s1]) (by simpa using low)
  | scanBusy pc bound s1 s2 =>
    have fetch : (progStart rom)[(s.hart i).pc]? = some (.bnez .s2 22) := by rw [pc]; rfl
    have loops : (outcome rom s i pending (.bnez .s2 22)).hart = (s.hart i).goto 22 := by
      simp only [outcome, exec, ne_eq, reduceCtorEq, not_false_eq_true, Hart.get_of_ne]
      exact if_pos s2
    exact rel.stays fetch rfl (phase ▸ loops ▸ At.scanLoad rfl bound (by simp [s1]))
  | @scanClear k pc bound s1 s2 =>
    have fetch : (progStart rom)[(s.hart i).pc]? = some (.bnez .s2 22) := by rw [pc]; rfl
    have falls : (outcome rom s i pending (.bnez .s2 22)).hart = (s.hart i).next := by simp [outcome, exec, s2]
    exact rel.stays fetch rfl (phase ▸ falls ▸ At.scanNext (by simp [pc]) bound (by simp [s1]))
  | @scanNext k pc bound s1 =>
    have fetch : (progStart rom)[(s.hart i).pc]? = some (.addi .s1 .s1 4) := by rw [pc]; rfl
    exact rel.stays fetch rfl (phase ▸ At.scanEnd (by simp [outcome, exec, pc]) bound
      (by simp [outcome, exec, s1, slot_next]))
  | @scanEnd k pc bound s1 =>
    have fetch : (progStart rom)[(s.hart i).pc]? = some (.li .s2 (slot maxHarts)) := by rw [pc]; rfl
    exact rel.stays fetch rfl (phase ▸ At.scanLoop (by simp [outcome, exec, pc]) bound
      (by simp [outcome, exec, s1]) (by simp [outcome, exec]))
  | @scanLoop k pc bound s1 s2 =>
    have fetch : (progStart rom)[(s.hart i).pc]? = some (.blt .s1 .s2 22) := by rw [pc]; rfl
    by_cases more : k + 1 < maxHarts
    · have loops : (outcome rom s i pending (.blt .s1 .s2 22)).hart = (s.hart i).goto 22 := by
        simp [outcome, exec, s1, s2, slot_slt bound, more]
      exact rel.stays fetch rfl (phase ▸ loops ▸ At.scanLoad rfl more (by simp [s1]))
    · have ends : (outcome rom s i pending (.blt .s1 .s2 22)).hart = (s.hart i).next := by
        simp [outcome, exec, s1, s2, slot_slt bound, more]
      have last : b.phase i = .scanning maxHarts := by rw [phase, show k + 1 = maxHarts by omega]
      refine rel.moves fetch (Step.leave last) rfl (ends ▸ At.resumed (by simp [pc])) ?_
      exact ((rel.past i).append _).mono (by simp [phase, Phase.worked]) (by simp [phase, Phase.woken])
        (by simp [phase, Phase.cleared])

/-- The hand-over. -/
theorem Rel.left (rel : Rel s b) (phase : b.phase i = .left) : Simulated rom s b i pending := by
  have here := rel.at_phase i
  rw [phase] at here
  cases here with
  | resumed pc =>
    have fetch : (progStart rom)[(s.hart i).pc]? = some (.csrrMhartid .a0) := by rw [pc]; rfl
    exact rel.stays fetch rfl (phase ▸ At.deviceTree (by simp [outcome, exec, pc]))
  | deviceTree pc =>
    have fetch : (progStart rom)[(s.hart i).pc]? = some (.la .a1 rom.dtb) := by rw [pc]; rfl
    exact rel.stays fetch rfl (phase ▸ At.target (by simp [outcome, exec, pc]))
  | target pc =>
    have fetch : (progStart rom)[(s.hart i).pc]? = some (.li .s1 (BitVec.ofNat 64 payloadDest)) := by rw [pc]; rfl
    exact rel.stays fetch rfl (phase ▸ At.jump (by simp [outcome, exec, pc]) (by simp [outcome, exec]))
  | jump pc s1 =>
    have fetch : (progStart rom)[(s.hart i).pc]? = some (.jr .s1) := by rw [pc]; rfl
    exact rel.stays fetch rfl (phase ▸ At.gone rfl)
  | gone pc =>
    have fetch : (progStart rom)[(s.hart i).pc]? = none := by rw [pc]; rfl
    refine ⟨b, .refl, ?_⟩
    simp only [Sys.step, fetch]
    exact rel

/-- **Each instruction of a hart is a move of the barrier or none.** -/
theorem Rel.simulates (rel : Rel s b) (few : n < maxHarts) (a : Act n) :
    ∃ b', Relation.ReflGen (Step maxHarts) b b' ∧ Rel (s.step rom a) b' := by
  cases phase : b.phase a.hart with
  | pausing => exact rel.pausing few phase
  | working => exact rel.working phase
  | raising k => exact rel.raising few phase
  | waiting => exact rel.waiting phase
  | seen => exact rel.seen few phase
  | scanning k => exact rel.scanning few phase
  | left => exact rel.left phase

end Simulation

/-! ## The guarantees of the barrier -/

/-- A hart past `smp_resume` stands for a party that has left. -/
theorem At.left_of_resumed {i : ℕ} {h : Hart} {p : Phase} (here : At i h p) (past : resumedPc ≤ h.pc) : p = .left := by
  unfold resumedPc at past
  cases here <;> first | rfl | omega

/-- Every run of the harts stands for a run of the barrier. -/
theorem runs_barrier (few : n < maxHarts) (rom : Rom) (reg : Fin (n + 1) → Reg → Word) (acts : List (Act n)) :
    ∃ b, Rel (runs (Sys.step rom) (Sys.start reg) acts) b ∧ Inv maxHarts b := by
  obtain ⟨b, reached, rel⟩ := runs_simulates (rel_start reg) (fun _ _ a rel => rel.simulates few a) acts
  exact ⟨b, rel, inv_reachable few reached⟩

/-- Past `smp_resume`, hart 0 has returned from `main`. -/
theorem Rel.returned {s : Sys n} {b : State n} (rel : Rel s b) (inv : Inv maxHarts b) {i : Fin (n + 1)}
    (past : resumedPc ≤ (s.hart i).pc) : ∃ v, .returned 0 v ∈ s.log := by
  have cleared := (inv.all_cleared ((rel.at_phase i).left_of_resumed past) 0).1
  apply (rel.past 0).finished rfl
  cases phase : b.phase 0 <;> simp_all [Phase.cleared, Phase.worked]

/-- **The hart barrier.** In every interleaving, when a hart is past
`smp_resume`, hart 0 has returned from `main`, every hart has seen its own
software interrupt and then cleared its own `msip`, and no `msip` is set. -/
theorem hart_barrier (few : n < maxHarts) (rom : Rom) (reg : Fin (n + 1) → Reg → Word) (acts : List (Act n))
    (i : Fin (n + 1)) (past : resumedPc ≤ ((runs (Sys.step rom) (Sys.start reg) acts).hart i).pc) :
    (∃ v, .returned 0 v ∈ (runs (Sys.step rom) (Sys.start reg) acts).log) ∧
    ∀ j, Acknowledged j.val (runs (Sys.step rom) (Sys.start reg) acts).log ∧
      (runs (Sys.step rom) (Sys.start reg) acts).msip j = false := by
  obtain ⟨b, rel, inv⟩ := runs_barrier few rom reg acts
  have all := inv.all_cleared ((rel.at_phase i).left_of_resumed past)
  refine ⟨rel.returned inv past, fun j => ⟨?_, ?_⟩⟩
  · exact (rel.past j).acknowledged (all j).1
  · rw [rel.flags]
    exact (all j).2

/-- Two harts do get through. -/
theorem hart_barrier_two : ∃ acts : List (Act 1),
    resumedPc ≤ ((runs (Sys.step ⟨fun _ => some 0, 0⟩) (Sys.start fun _ _ => 0) acts).hart 0).pc ∧
    (∃ v, .returned 0 v ∈ (runs (Sys.step ⟨fun _ => some 0, 0⟩) (Sys.start fun _ _ => 0) acts).log) ∧
    ∀ j, Acknowledged j.val (runs (Sys.step ⟨fun _ => some 0, 0⟩) (Sys.start fun _ _ => 0) acts).log ∧
      (runs (Sys.step ⟨fun _ => some 0, 0⟩) (Sys.start fun _ _ => 0) acts).msip j = false := by
  have few : 1 < maxHarts := by decide
  have returns : Rom.mainAt ⟨fun _ => some 0, 0⟩ 0 = some 0 := rfl
  obtain ⟨acts, jump⟩ := reaches_jump few (fun k less => absurd less (Nat.not_lt_zero k)) returns fun _ _ => 0
  have past : resumedPc ≤ ((runs (Sys.step ⟨fun _ => some 0, 0⟩) (Sys.start fun _ _ => 0) acts).hart 0).pc := by
    rw [jump]
    decide
  exact ⟨acts, past, hart_barrier few _ _ acts 0 past⟩

end Zcu102.Boot
