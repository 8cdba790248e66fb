import Mathlib.Data.Nat.Find
import Zcu102.Boot.Barrier
import Zcu102.Boot.Verdict

/-!
# The boot gate

`head.S` calls `main` and goes on to `smp_resume` without looking at the result
in `a0`. So a hart reaches the jump to the payload exactly when `main` returns,
also when it returned 1: the gate holds for the streams that are not rejected,
and for no other.
-/

namespace Zcu102.Boot
set_option autoImplicit false
open Sim Sim.Prog

variable {n : ℕ}

/-- The ROM with `sd.c`'s `main` reading the card. A step in `main` lets one more byte arrive. -/
def bootRom (fClk : ℕ) (σ : ℕ → Byte) (dtb : Word) : Rom where
  mainAt t := ((main fClk).run (received σ t)).out.map fun p => p.1.signExtend 64
  dtb := dtb

/-- In every interleaving of harts `0 .. n`, a hart is at the jump only if `main` returned 0. -/
def Gated (n fClk : ℕ) (σ : ℕ → Byte) (dtb : Word) : Prop :=
  ∀ (reg : Fin (n + 1) → Reg → Word) (acts : List (Act n)) (i : Fin (n + 1)),
    ((runs (Sys.step (bootRom fClk σ dtb)) (Sys.start reg) acts).hart i).pc = jumpPc →
      .returned 0 0 ∈ (runs (Sys.step (bootRom fClk σ dtb)) (Sys.start reg) acts).log

theorem mainAt_eq_some {fClk : ℕ} {σ : ℕ → Byte} {dtb v : Word} {t : ℕ}
    (h : (bootRom fClk σ dtb).mainAt t = some v) : ∃ r, Answers (main fClk) σ r ∧ v = r.signExtend 64 := by
  simp only [bootRom, Option.map_eq_some_iff] at h
  obtain ⟨⟨r, rest⟩, out, rfl⟩ := h
  have full : (main fClk).run (received σ t) = ⟨_, some (r, rest)⟩ := Run.ext rfl out
  exact ⟨r, ⟨_, returns_of_run full⟩, rfl⟩

/-- `main` returns at a first step if it returns. -/
theorem mainAt_of_answers {fClk : ℕ} {σ : ℕ → Byte} {r : BitVec 32} (h : Answers (main fClk) σ r) (dtb : Word) :
    ∃ t v, (∀ k < t, (bootRom fClk σ dtb).mainAt k = none) ∧ (bootRom fClk σ dtb).mainAt t = some v := by
  obtain ⟨l, m, taken⟩ := h
  have some_step : ∃ t, ((bootRom fClk σ dtb).mainAt t).isSome := by
    refine ⟨m, ?_⟩
    unfold Takes at taken
    simp [bootRom, taken]
  obtain ⟨v, returns⟩ := Option.isSome_iff_exists.1 (Nat.find_spec some_step)
  refine ⟨Nat.find some_step, v, fun k less => ?_, returns⟩
  simpa using Nat.find_min some_step less

/-- Only `call main` logs a return, with what `main` returned. -/
theorem exec_returned {rom : Rom} {i j : ℕ} {mip v : Word} {clint : Word → BitVec 32} {h : Hart} {ins : Instr}
    (member : .returned j v ∈ (exec rom i mip clint h ins).note) : ∃ t, rom.mainAt t = some v := by
  cases ins with
  | callMain =>
    cases out : rom.mainAt h.inMain with
    | none => simp [exec, out] at member
    | some w =>
      simp only [exec, out, List.mem_singleton, Access.returned.injEq] at member
      exact ⟨h.inMain, member.2 ▸ out⟩
  | _ => simp [exec] at member

theorem returned_mainAt {rom : Rom} (reg : Fin (n + 1) → Reg → Word) (acts : List (Act n)) {i : ℕ} {v : Word}
    (h : .returned i v ∈ (runs (Sys.step rom) (Sys.start reg) acts).log) : ∃ t, rom.mainAt t = some v := by
  refine runs_invariant (fun s : Sys n => .returned i v ∈ s.log → ∃ t, rom.mainAt t = some v) ?_ ?_ acts h
  · exact fun member => absurd member List.not_mem_nil
  · intro s a old member
    unfold Sys.step at member
    split at member
    · exact old member
    · rcases List.mem_append.1 member with member | member
      · exact old member
      · exact exec_returned member

/-- A rejected stream gets through: `main` returns 1 and the harts go on. -/
theorem not_gated {fClk : ℕ} {σ : ℕ → Byte} (few : n < maxHarts) (rejected : Rejected σ) (dtb : Word) :
    ¬Gated n fClk σ dtb := by
  intro gated
  have one := rejected.answers fClk
  obtain ⟨t, v, before, returns⟩ := mainAt_of_answers one dtb
  obtain ⟨acts, jump⟩ := reaches_jump few before returns fun _ _ => 0
  obtain ⟨t, zero⟩ := returned_mainAt _ acts (gated _ acts 0 jump)
  obtain ⟨r, ⟨l, answered⟩, same⟩ := mainAt_eq_some zero
  obtain ⟨l', failed⟩ := one
  obtain rfl := (answered.unique failed).1
  exact absurd same (by decide)

/-- **The boot gate** holds exactly on the streams that are not rejected. -/
theorem gated_iff (few : n < maxHarts) (fClk : ℕ) (σ : ℕ → Byte) (dtb : Word) :
    Gated n fClk σ dtb ↔ ¬Rejected σ := by
  constructor
  · exact fun gated rejected => not_gated few rejected dtb gated
  · intro fine reg acts i jump
    obtain ⟨b, rel, inv⟩ := runs_barrier few (bootRom fClk σ dtb) reg acts
    have past : resumedPc ≤ ((runs (Sys.step (bootRom fClk σ dtb)) (Sys.start reg) acts).hart i).pc := by
      rw [jump]
      decide
    obtain ⟨v, member⟩ := rel.returned inv past
    obtain ⟨t, returns⟩ := returned_mainAt reg acts member
    obtain ⟨r, ⟨l, answered⟩, rfl⟩ := mainAt_eq_some returns
    rcases returns_main answered with ⟨rfl, -⟩ | ⟨-, rejected⟩
    · exact member
    · exact absurd rejected fine

/-- Two harts and a healthy card. -/
theorem gated_blank : Gated 1 50000000 blankCard 0 :=
  (gated_iff (by decide) 50000000 blankCard 0).2 accepted_blank.not_rejected

/-- One hart and a card that answers 0 throughout: CMD0 fails, and the hart still
reaches the jump. -/
theorem zero_card_not_gated : ¬Gated 0 50000000 (fun _ => 0) 0 := by
  have failure : Failure (promptReply 0x00 ++ [0]) :=
    Failure.cmd0 ⟨_, 0, rfl, reply_prompt rfl⟩ (by decide)
  have rejected : Rejected (fun _ => 0) := ⟨9, failure⟩
  exact not_gated (by decide) rejected 0

end Zcu102.Boot
