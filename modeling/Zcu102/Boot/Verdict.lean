import Zcu102.Boot.Copy

/-!
# The verdict of the bootloader

`main` returns 0 exactly on the streams that are `Accepted`, and 1 exactly on
those that are `Rejected`; in the first case memory at `payloadDest` holds the
blocks in order. Each stage of the short-circuited condition is matched with
its stage of the protocol. In every run, also one that never returns, only the
payload window and device registers are written.
-/

namespace Zcu102.Boot
set_option autoImplicit false
open Sim Sim.Prog

/-! ## The short-circuit -/

theorem cInt_eq_zero {b : Bool} : cInt b = 0 ↔ b = false := by
  cases b <;> decide

theorem cInt_ne_zero {b : Bool} : cInt b ≠ 0 ↔ b = true := by
  cases b <;> decide

theorem reads_cOr {a b : Sd (BitVec 32)} {w : List Byte} {x : BitVec 32} : Reads (cOr a b) w x ↔
    (∃ y, y ≠ 0 ∧ Reads a w y ∧ x = 1) ∨
      ∃ u v y, w = u ++ v ∧ Reads a u 0 ∧ Reads b v y ∧ x = cInt (y != 0) := by
  unfold cOr
  rw [reads_bind]
  constructor
  · rintro ⟨u, v, y, rfl, first, second⟩
    by_cases zero : y = 0
    · subst zero
      rw [if_neg (by simp)] at second
      obtain ⟨v₁, v₂, z, rfl, third, last⟩ := reads_bind.1 second
      obtain ⟨rfl, rfl⟩ := reads_pure.1 last
      exact Or.inr ⟨u, v₁, z, by simp, first, third, rfl⟩
    · rw [if_pos zero] at second
      obtain ⟨rfl, rfl⟩ := reads_pure.1 second
      exact Or.inl ⟨y, zero, by simpa using first, rfl⟩
  · rintro (⟨y, ne, first, rfl⟩ | ⟨u, v, y, rfl, first, second, rfl⟩)
    · refine ⟨w, [], y, by simp, first, ?_⟩
      rw [if_pos ne]
      exact reads_pure.2 ⟨rfl, rfl⟩
    · refine ⟨u, v, 0, rfl, first, ?_⟩
      rw [if_neg (by simp)]
      exact reads_bind.2 ⟨v, [], y, by simp, second, reads_pure.2 ⟨rfl, rfl⟩⟩

theorem reads_cOr_zero {a b : Sd (BitVec 32)} {w : List Byte} :
    Reads (cOr a b) w 0 ↔ ∃ u v, w = u ++ v ∧ Reads a u 0 ∧ Reads b v 0 := by
  rw [reads_cOr]
  constructor
  · rintro (⟨y, _, _, absurd⟩ | ⟨u, v, y, rfl, first, second, zero⟩)
    · cases absurd
    · obtain rfl : y = 0 := by simpa using cInt_eq_zero.1 zero.symm
      exact ⟨u, v, rfl, first, second⟩
  · rintro ⟨u, v, rfl, first, second⟩
    exact Or.inr ⟨u, v, 0, rfl, first, second, rfl⟩

/-- The condition fails in its first part, or in its second after the first passed. -/
theorem reads_cOr_ne {a b : Sd (BitVec 32)} {w : List Byte} {x : BitVec 32} (h : Reads (cOr a b) w x)
    (ne : x ≠ 0) : (∃ y, y ≠ 0 ∧ Reads a w y) ∨
      ∃ u v y, w = u ++ v ∧ Reads a u 0 ∧ y ≠ 0 ∧ Reads b v y := by
  rcases reads_cOr.1 h with ⟨y, hy, first, -⟩ | ⟨u, v, y, rfl, first, second, rfl⟩
  · exact Or.inl ⟨y, hy, first⟩
  · exact Or.inr ⟨u, v, y, rfl, first, by simpa using cInt_ne_zero.1 ne, second⟩

/-! ## The handshake, stage by stage -/

theorem reads_cmd0_zero {w : List Byte} : Reads sdCmd0 w 0 ↔ Passed0 w := by
  rw [reads_sdCmd0]
  constructor
  · rintro ⟨a, closed, zero⟩
    obtain rfl : a = some 0x01 := by simpa using cInt_eq_zero.1 zero.symm
    exact closed
  · intro closed
    exact ⟨some 0x01, closed, rfl⟩

theorem reads_passed8 {w : List Byte} : Reads (cOr sdCmd0 sdCmd8) w 0 ↔ Passed8 w := by
  rw [reads_cOr_zero]
  constructor
  · rintro ⟨u, v, rfl, first, second⟩
    obtain ⟨a, voltage, pattern, cmd8, zero⟩ := reads_sdCmd8.1 second
    have ok := cInt_eq_zero.1 zero.symm
    simp only [Bool.or_eq_false_iff, bne_eq_false_iff_eq] at ok
    obtain ⟨⟨rfl, hv⟩, hp⟩ := ok
    exact ⟨u, v, voltage, pattern, rfl, reads_cmd0_zero.1 first, cmd8, hv, hp⟩
  · rintro ⟨u, v, voltage, pattern, rfl, first, cmd8, hv, rfl⟩
    refine ⟨u, v, rfl, reads_cmd0_zero.2 first, reads_sdCmd8.2 ⟨_, _, _, cmd8, ?_⟩⟩
    rw [hv]
    rfl

theorem reads_passed41 {w : List Byte} : Reads (cOr (cOr sdCmd0 sdCmd8) sdAcmd41) w 0 ↔ Passed41 w := by
  rw [reads_cOr_zero]
  constructor
  · rintro ⟨u, v, rfl, first, second⟩
    obtain ⟨a, rounds, zero⟩ := reads_sdAcmd41.1 second
    obtain rfl : a = some 0x00 := by simpa using cInt_eq_zero.1 zero.symm
    exact ⟨u, v, rfl, reads_passed8.1 first, rounds⟩
  · rintro ⟨u, v, rfl, first, rounds⟩
    exact ⟨u, v, rfl, reads_passed8.2 first, reads_sdAcmd41.2 ⟨_, rounds, rfl⟩⟩

theorem reads_passed58 {w : List Byte} :
    Reads (cOr (cOr (cOr sdCmd0 sdCmd8) sdAcmd41) sdCmd58) w 0 ↔ Passed58 w := by
  rw [reads_cOr_zero]
  constructor
  · rintro ⟨u, v, rfl, first, second⟩
    obtain ⟨a, status, cmd58, zero⟩ := reads_sdCmd58.1 second
    have ok := cInt_eq_zero.1 zero.symm
    simp only [Bool.or_eq_false_iff, bne_eq_false_iff_eq, Bool.not_eq_false'] at ok
    obtain ⟨rfl, hs⟩ := ok
    exact ⟨u, v, status, rfl, reads_passed41.1 first, cmd58, hs⟩
  · rintro ⟨u, v, status, rfl, first, cmd58, hs⟩
    refine ⟨u, v, rfl, reads_passed41.2 first, reads_sdCmd58.2 ⟨_, _, cmd58, ?_⟩⟩
    rw [hs]
    rfl

theorem reads_handshake_zero {w : List Byte} : Reads handshake w 0 ↔ Passed16 w := by
  unfold handshake
  rw [reads_cOr_zero]
  constructor
  · rintro ⟨u, v, rfl, first, second⟩
    obtain ⟨a, closed, zero⟩ := reads_sdCmd16.1 second
    obtain rfl : a = some 0x00 := by simpa using cInt_eq_zero.1 zero.symm
    exact ⟨u, v, rfl, reads_passed58.1 first, closed⟩
  · rintro ⟨u, v, rfl, first, closed⟩
    exact ⟨u, v, rfl, reads_passed58.2 first, reads_sdCmd16.2 ⟨_, closed, rfl⟩⟩

/-- A handshake that fails has a first failing stage. -/
theorem failure_of_handshake {w : List Byte} {x : BitVec 32} (h : Reads handshake w x) (ne : x ≠ 0) :
    Failure w := by
  rcases reads_cOr_ne h ne with ⟨x, ne, h⟩ | ⟨u, v, y, rfl, passed, ny, last⟩
  · rcases reads_cOr_ne h ne with ⟨x, ne, h⟩ | ⟨u, v, y, rfl, passed, ny, last⟩
    · rcases reads_cOr_ne h ne with ⟨x, ne, h⟩ | ⟨u, v, y, rfl, passed, ny, last⟩
      · rcases reads_cOr_ne h ne with ⟨x, ne, h⟩ | ⟨u, v, y, rfl, passed, ny, last⟩
        · obtain ⟨a, closed, rfl⟩ := reads_sdCmd0.1 h
          exact Failure.cmd0 closed (by simpa using cInt_ne_zero.1 ne)
        · obtain ⟨a, voltage, pattern, cmd8, rfl⟩ := reads_sdCmd8.1 last
          refine Failure.cmd8 (reads_cmd0_zero.1 passed) cmd8 ?_
          rintro ⟨rfl, hv, rfl⟩
          rw [hv] at ny
          exact ny rfl
      · obtain ⟨a, rounds, rfl⟩ := reads_sdAcmd41.1 last
        exact Failure.acmd41 (reads_passed8.1 passed) rounds (by simpa using cInt_ne_zero.1 ny)
    · obtain ⟨a, status, cmd58, rfl⟩ := reads_sdCmd58.1 last
      refine Failure.cmd58 (reads_passed41.1 passed) cmd58 ?_
      rintro ⟨rfl, hs⟩
      rw [hs] at ny
      exact ny rfl
  · obtain ⟨a, closed, rfl⟩ := reads_sdCmd16.1 last
    exact Failure.cmd16 (reads_passed58.1 passed) closed (by simpa using cInt_ne_zero.1 ny)

/-- A failure in the first part of a condition, and the result of its second. -/
theorem takes_cOr_fails {w : List Byte} {y : BitVec 32} {a : Sd (BitVec 32)} {l : List Event}
    (h : Takes a w y l) (ne : y ≠ 0) (b : Sd (BitVec 32)) : Takes (cOr a b) w 1 l := by
  refine takes_bind.2 ⟨w, [], y, l, [], by simp, by simp, h, ?_⟩
  rw [if_pos ne]
  exact takes_pure.2 ⟨rfl, rfl, rfl⟩

theorem takes_cOr_passes {u v : List Byte} {y : BitVec 32} {a b : Sd (BitVec 32)} {l l' : List Event}
    (h : Takes a u 0 l) (h' : Takes b v y l') : Takes (cOr a b) (u ++ v) (cInt (y != 0)) (l ++ l') := by
  refine takes_bind.2 ⟨u, v, 0, l, l', rfl, rfl, h, ?_⟩
  rw [if_neg (by simp)]
  exact takes_bind.2 ⟨v, [], y, l', [], by simp, by simp, h', takes_pure.2 ⟨rfl, rfl, rfl⟩⟩

theorem cOr_fails {w : List Byte} {y : BitVec 32} {a : Sd (BitVec 32)} (h : Reads a w y) (ne : y ≠ 0)
    (b : Sd (BitVec 32)) : Reads (cOr a b) w 1 := by
  obtain ⟨l, taken⟩ := h
  exact ⟨l, takes_cOr_fails taken ne b⟩

theorem cOr_passes_fails {u v : List Byte} {y : BitVec 32} {a b : Sd (BitVec 32)} (passed : Reads a u 0)
    (h : Reads b v y) (ne : y ≠ 0) : Reads (cOr a b) (u ++ v) 1 := by
  obtain ⟨l, first⟩ := passed
  obtain ⟨l', second⟩ := h
  have taken := takes_cOr_passes first second
  rw [bne_iff_ne.2 ne] at taken
  exact ⟨l ++ l', taken⟩

/-! ## The copy -/

/-- The first part of a program logs device effects only. -/
theorem takes_device_bind {α γ : Type} {m : Sd α} {f : α → Sd γ} (device : Emits m Device) {w : List Byte}
    {c : γ} {l : List Event} (h : Takes (m >>= f) w c l) : ∃ w₁ w₂ a l₁ l₂, w = w₁ ++ w₂ ∧
      stores l = stores l₂ ∧ Takes m w₁ a l₁ ∧ Takes (f a) w₂ c l₂ := by
  obtain ⟨w₁, w₂, a, l₁, l₂, hw, rfl, first, second⟩ := takes_bind.1 h
  refine ⟨w₁, w₂, a, l₁, l₂, hw, ?_, first, second⟩
  rw [stores_append, Emits.no_stores device first]
  rfl

theorem takes_copy {fClk : ℕ} {w : List Byte} {rc : BitVec 32} {l : List Event}
    (taken : Takes (copy fClk) w rc l) :
    (∃ u x a, w = u ++ [x] ∧ Reply u a ∧ a ≠ some 0x00 ∧ rc = 1) ∨
      ∃ u v t bytes, w = u ++ v ++ t ∧ Reply u (some 0x00) ∧ Copied payloadSize v rc bytes ∧
        stores l = storesAt payloadDest bytes := by
  obtain ⟨_, w, _, l₁, _, rfl, hl, silent, h⟩ := takes_device_bind (device_copyStart fClk) taken
  obtain rfl := reads_copyStart.1 ⟨l₁, silent⟩
  obtain ⟨u, w, r, l₁, l₅, rfl, hl₅, first, h⟩ := takes_device_bind (device_sdCmd _ _ _) h
  have reply := reads_sdCmd ⟨l₁, first⟩
  simp only [List.nil_append]
  by_cases zero : r = 0x00
  · rw [if_neg (by simpa using zero)] at h
    obtain ⟨v, t, rc', l₂, l₆, rfl, rfl, sectors, h⟩ := takes_bind.1 h
    obtain ⟨_, t, _, l₃, _, rfl, hl₆, -, h⟩ := takes_device_bind device_sdCmdEnd h
    obtain ⟨_, t, _, l₃, _, rfl, hl₇, -, h⟩ := takes_device_bind (device_sdCmd _ _ _) h
    obtain ⟨_, t, _, l₃, _, rfl, hl₈, -, h⟩ := takes_device_bind device_sdCmdEnd h
    obtain ⟨_, t, _, l₃, l₉, rfl, hl₉, -, h⟩ := takes_device_bind (device_putChars _) h
    obtain ⟨rfl, rfl, rfl⟩ := takes_pure.1 h
    obtain ⟨bytes, copied, stored⟩ := takes_copySectors sectors
    rw [(r1_eq_some (by rfl)).2 zero] at reply
    refine Or.inr ⟨u, v, _, bytes, (List.append_assoc _ _ _).symm, reply, copied, ?_⟩
    rw [hl, hl₅, stores_append, hl₆, hl₇, hl₈, hl₉, stored]
    simp [stores]
  · rw [if_pos zero] at h
    obtain ⟨v, _, _, l₂, _, rfl, -, tail, h⟩ := takes_device_bind device_sdCmdEnd h
    obtain ⟨rfl, rfl, rfl⟩ := takes_pure.1 h
    obtain ⟨x, rfl⟩ := reads_sdCmdEnd.1 ⟨l₂, tail⟩
    refine Or.inl ⟨u, x, r1 r, by simp, reply, ?_, rfl⟩
    rwa [Ne, r1_eq_some (by rfl)]

/-! Programs that return on every stream. -/

theorem total_putChars (cs : List Char) : Total (putChars cs) := by
  induction cs with
  | nil => exact total_pure ()
  | cons c cs ih => exact (total_emit _).bind fun _ => ih

theorem total_spiXfer (d : Byte) : Total (spiXfer d) := (total_emit _).bind fun _ => total_read _

theorem total_sdPoll (n : ℕ) : Total (sdPoll n) := by
  induction n with
  | zero =>
    refine (total_spiXfer _).bind fun r => ?_
    split
    · exact total_pure r
    · exact (total_putChars _).bind fun _ => total_pure r
  | succ n ih =>
    refine (total_spiXfer _).bind fun r => ?_
    split
    · exact total_pure r
    · exact ih

theorem total_sdCmd (cmd : Byte) (arg : BitVec 32) (crc : Byte) : Total (sdCmd cmd arg crc) := by
  have frame : Total (sdFrame cmd arg crc) :=
    (total_emit _).bind fun _ => (total_spiXfer _).bind fun _ => (total_spiXfer _).bind fun _ =>
      (total_spiXfer _).bind fun _ => (total_spiXfer _).bind fun _ => (total_spiXfer _).bind fun _ =>
        (total_spiXfer _).bind fun _ => (total_spiXfer _).bind fun _ => total_pure ()
  exact frame.bind fun _ => total_sdPoll _

theorem total_sdCmdEnd : Total sdCmdEnd := (total_spiXfer _).bind fun _ => total_emit _

/-- After CMD18 was accepted, the copy ends as its sectors do. -/
theorem copy_answers {fClk n : ℕ} {σ : ℕ → Byte} {u v bytes : List Byte} {rc : BitVec 32}
    (split : received σ n = u ++ v) (reply : Reply u (some 0x00)) (copied : Copied payloadSize v rc bytes) :
    Answers (copy fClk) σ rc := by
  obtain ⟨r, same, first⟩ := reply.reads 0x52 0xE1 bblPartitionStartSector
  obtain rfl : r = 0x00 := (r1_eq_some (by rfl)).1 same
  refine Reads.answers_nil (a := ()) (reads_copyStart.2 rfl) ?_
  refine first.answers split ?_
  rw [if_neg (by simp)]
  have rest : received (after σ u.length) v.length = v ++ [] := by
    rw [List.append_nil]
    exact (received_split split).2.symm
  refine (copied.reads payloadDest).answers rest ?_
  refine total_sdCmdEnd.answers (fun _ => ?_) _
  refine (total_sdCmd _ _ _).answers fun _ => ?_
  refine total_sdCmdEnd.answers fun _ σ => ?_
  exact Reads.answers_nil (a := ()) (reads_kputs.2 rfl) (answers_pure σ rc)

/-- A refused CMD18 ends the copy. -/
theorem copy_refused {fClk n : ℕ} {σ : ℕ → Byte} {u rest : List Byte} {a : Option Byte}
    (split : received σ n = u ++ rest) (reply : Reply u a) (ne : a ≠ some 0x00) : Answers (copy fClk) σ 1 := by
  obtain ⟨r, rfl, first⟩ := reply.reads 0x52 0xE1 bblPartitionStartSector
  refine Reads.answers_nil (a := ()) (reads_copyStart.2 rfl) ?_
  refine first.answers split ?_
  rw [Ne, r1_eq_some (by rfl)] at ne
  rw [if_pos ne]
  exact total_sdCmdEnd.answers (fun _ σ => answers_pure σ 1) _

/-! ## `main` -/

theorem device_handshake : Emits handshake Device :=
  emits_cOr (emits_cOr (emits_cOr (emits_cOr device_sdCmd0 device_sdCmd8) device_sdAcmd41) device_sdCmd58)
    device_sdCmd16

/-- The condition of `main` is false on words that pass and deliver the blocks,
which are then stored, and true on words that fail. -/
theorem takes_bootCondition {fClk : ℕ} {w : List Byte} {x : BitVec 32} {l : List Event}
    (taken : Takes (bootCondition fClk) w x l) :
    (x = 0 ∧ ∃ u v t blocks, w = u ++ v ++ t ∧ Passed18 u ∧ Sectors v blocks ∧
      blocks.length = payloadSize ∧ stores l = storesAt payloadDest blocks.flatten) ∨
    (x ≠ 0 ∧ ∃ u t, w = u ++ t ∧ Failure u) := by
  obtain ⟨u, w, y, l₁, l₂, rfl, hl, first, h⟩ := takes_device_bind device_handshake taken
  by_cases zero : y = 0
  · subst zero
    rw [if_neg (by simp)] at h
    have passed := reads_handshake_zero.1 ⟨l₁, first⟩
    obtain ⟨v, _, rc, l₃, _, rfl, rfl, copying, h⟩ := takes_bind.1 h
    obtain ⟨rfl, rfl, rfl⟩ := takes_pure.1 h
    rcases takes_copy copying with ⟨v, b, a, rfl, reply, ne, rfl⟩ | ⟨v, v', t, bytes, rfl, reply, copied, stored⟩
    · exact Or.inr ⟨by decide, u ++ v, [b], by simp, Failure.cmd18 passed reply ne⟩
    · have passed18 : Passed18 (u ++ v) := ⟨u, v, rfl, passed, reply⟩
      cases copied with
      | @whole _ blocks sectors count =>
        refine Or.inl ⟨rfl, u ++ v, v', t, blocks, by simp, passed18, sectors, count, ?_⟩
        rw [hl, List.append_nil, stored]
      | broken sectors count bad differ =>
        exact Or.inr ⟨by decide, _, t, by simp, Failure.sector passed18 sectors count bad differ⟩
  · rw [if_pos zero] at h
    obtain ⟨rfl, rfl, rfl⟩ := takes_pure.1 h
    exact Or.inr ⟨by decide, u, [], rfl, failure_of_handshake ⟨l₁, first⟩ zero⟩

/-- `main` returns 0 or 1 as its condition comes out; the console adds nothing. -/
theorem takes_main {fClk : ℕ} {w : List Byte} {r : BitVec 32} {l : List Event}
    (taken : Takes (main fClk) w r l) :
    (r = 0 ∧ ∃ s u v t blocks, w = s ++ (u ++ v ++ t) ∧ s.length = powerOnBytes ∧ Passed18 u ∧
      Sectors v blocks ∧ blocks.length = payloadSize ∧ stores l = storesAt payloadDest blocks.flatten) ∨
    (r = 1 ∧ ∃ s u t, w = s ++ (u ++ t) ∧ s.length = powerOnBytes ∧ Failure u) := by
  obtain ⟨s, w, _, l₁, l₂, rfl, hl, start, h⟩ := takes_device_bind (device_mainStart fClk) taken
  have len := reads_mainStart.1 ⟨l₁, start⟩
  obtain ⟨w₁, w₂, x, l₃, l₄, rfl, rfl, condition, ends⟩ := takes_bind.1 h
  rcases takes_bootCondition condition with ⟨rfl, u, v, t, blocks, rfl, passed, sectors, count, stored⟩ |
    ⟨ne, u, t, rfl, failure⟩
  · rw [if_neg (by simp)] at ends
    obtain ⟨_, _, _, l₅, _, -, hl₄, -, last⟩ := takes_device_bind (device_putChars _) ends
    obtain ⟨_, _, _, l₆, l₇, -, rfl, fence, last⟩ := takes_bind.1 last
    obtain ⟨-, rfl, rfl⟩ := takes_pure.1 last
    obtain ⟨-, rfl⟩ := takes_emit.1 fence
    refine Or.inl ⟨rfl, s, u, v, t ++ w₂, blocks, by simp only [List.append_assoc], len, passed, sectors, count, ?_⟩
    rw [hl, stores_append, stored, hl₄]
    simp [stores]
  · rw [if_pos ne] at ends
    obtain ⟨_, _, _, _, _, -, -, -, last⟩ := takes_bind.1 ends
    obtain ⟨-, rfl, -⟩ := takes_pure.1 last
    exact Or.inr ⟨rfl, s, u, t ++ w₂, by simp only [List.append_assoc], len, failure⟩

/-- A run that returns 0 ends with `fence.i`. -/
theorem fence_last {fClk : ℕ} {σ : ℕ → Byte} {l : List Event} (returned : Returns (main fClk) σ 0 l) :
    ∃ before, l = before ++ [.fenceI] := by
  obtain ⟨n, taken⟩ := returned
  obtain ⟨_, _, _, l₁, l₂, -, rfl, -, rest⟩ := takes_bind.1 taken
  obtain ⟨_, _, failed, l₃, l₄, -, rfl, -, rest⟩ := takes_bind.1 rest
  by_cases zero : failed = 0
  · rw [if_neg (not_not_intro zero)] at rest
    obtain ⟨_, _, _, l₅, l₆, -, rfl, -, rest⟩ := takes_bind.1 rest
    obtain ⟨_, _, _, l₇, l₈, -, rfl, fence, last⟩ := takes_bind.1 rest
    obtain ⟨-, rfl⟩ := takes_emit.1 fence
    obtain ⟨-, -, rfl⟩ := takes_pure.1 last
    exact ⟨l₁ ++ (l₃ ++ l₅), by simp⟩
  · rw [if_pos zero] at rest
    obtain ⟨_, _, _, _, _, -, -, -, last⟩ := takes_bind.1 rest
    obtain ⟨-, one, -⟩ := takes_pure.1 last
    cases one

/-- A returning run is on a stream that is accepted or rejected, as its result says. -/
theorem returns_main {fClk : ℕ} {σ : ℕ → Byte} {r : BitVec 32} {l : List Event}
    (returned : Returns (main fClk) σ r l) :
    (r = 0 ∧ ∃ blocks, Accepted σ blocks ∧ stores l = storesAt payloadDest blocks.flatten) ∨
    (r = 1 ∧ Rejected σ) := by
  obtain ⟨n, taken⟩ := returned
  rcases takes_main taken with ⟨rfl, s, u, v, t, blocks, split, len, passed, sectors, count, stored⟩ |
    ⟨rfl, s, u, t, split, len, failure⟩
  · have tail := (received_split split).2
    rw [len] at tail
    obtain ⟨whole, -⟩ := received_split tail.symm
    exact Or.inl ⟨rfl, blocks, ⟨count, _, u, v, whole.symm, passed, sectors⟩, stored⟩
  · have tail := (received_split split).2
    rw [len] at tail
    obtain ⟨whole, -⟩ := received_split tail.symm
    exact Or.inr ⟨rfl, u.length, whole ▸ failure⟩

/-- `main` returns as its condition does, past the power-on. -/
theorem main_answers {fClk : ℕ} {σ : ℕ → Byte} {x : BitVec 32}
    (condition : Answers (bootCondition fClk) (after σ powerOnBytes) x) :
    Answers (main fClk) σ (cInt (x != 0)) := by
  have start : Reads (mainStart fClk) (received σ powerOnBytes) () := reads_mainStart.2 (by simp)
  have split : received σ powerOnBytes = received σ powerOnBytes ++ [] := (List.append_nil _).symm
  refine start.answers split ?_
  rw [received_length]
  refine condition.bind fun σ => ?_
  by_cases zero : x = 0
  · subst zero
    refine Reads.answers_nil (a := ()) (reads_kputs.2 rfl) ?_
    exact Reads.answers_nil (a := ()) (reads_emit.2 rfl) (answers_pure σ 0)
  · rw [if_pos zero, bne_iff_ne.2 zero]
    exact Reads.answers_nil (a := ()) (reads_kputs.2 rfl) (answers_pure σ 1)

/-- After the handshake, the condition is the result of the copy. -/
theorem bootCondition_answers {fClk n : ℕ} {σ : ℕ → Byte} {u v : List Byte} {rc : BitVec 32}
    (split : received σ n = u ++ v) (passed : Passed16 u)
    (copied : Answers (copy fClk) (after σ u.length) rc) :
    Answers (bootCondition fClk) σ (cInt (rc != 0)) := by
  refine (reads_handshake_zero.2 passed).answers split ?_
  rw [if_neg (by simp)]
  exact copied.bind fun σ => answers_pure σ _

/-- A failed handshake settles the condition. -/
theorem bootCondition_fails {fClk n : ℕ} {σ : ℕ → Byte} {w : List Byte} {y : BitVec 32}
    (split : received σ n = w) (h : Reads handshake w y) (ne : y ≠ 0) :
    Answers (bootCondition fClk) σ 1 := by
  rw [← List.append_nil w] at split
  refine h.answers split ?_
  rw [if_pos ne]
  exact answers_pure _ 1

/-- **An accepted stream boots.** -/
theorem Accepted.answers {σ : ℕ → Byte} {blocks : List (List Byte)} (accepted : Accepted σ blocks) (fClk : ℕ) :
    Answers (main fClk) σ 0 := by
  obtain ⟨count, n, _, v, split, ⟨u, u', rfl, passed, reply⟩, sectors⟩ := accepted
  rw [List.append_assoc] at split
  have copied : Answers (copy fClk) (after (after σ powerOnBytes) u.length) 0 :=
    copy_answers (received_split split).2.symm reply (Copied.whole sectors count)
  exact main_answers (bootCondition_answers split passed copied)

/-- A failure is one of the handshake, or one of the copy after it. -/
theorem Failure.stage {w : List Byte} (failure : Failure w) :
    (∃ y, y ≠ 0 ∧ Reads handshake w y) ∨ ∃ u v, w = u ++ v ∧ Passed16 u ∧
      ((∃ a, Reply v a ∧ a ≠ some 0x00) ∨
        ∃ v₁ v₂ bytes, v = v₁ ++ v₂ ∧ Reply v₁ (some 0x00) ∧ Copied payloadSize v₂ 1 bytes) := by
  have one : (1 : BitVec 32) ≠ 0 := by decide
  cases failure with
  | cmd0 closed ne =>
    have fails := cOr_fails (reads_sdCmd0.2 ⟨_, closed, rfl⟩) (cInt_ne_zero.2 (by simpa using ne)) sdCmd8
    exact Or.inl ⟨1, one, cOr_fails (cOr_fails (cOr_fails fails one _) one _) one _⟩
  | @cmd8 u v a voltage pattern passed cmd8 bad =>
    have fault : (a != some 0x01 || voltage &&& 0xF != 0x1 || pattern != 0xAA) = true := by
      by_contra fine
      simp only [Bool.not_eq_true, Bool.or_eq_false_iff, bne_eq_false_iff_eq] at fine
      exact bad ⟨fine.1.1, fine.1.2, fine.2⟩
    have fails := cOr_passes_fails (reads_cmd0_zero.2 passed) (reads_sdCmd8.2 ⟨_, _, _, cmd8, rfl⟩)
      (cInt_ne_zero.2 fault)
    exact Or.inl ⟨1, one, cOr_fails (cOr_fails (cOr_fails fails one _) one _) one _⟩
  | acmd41 passed rounds ne =>
    have fails := cOr_passes_fails (reads_passed8.2 passed) (reads_sdAcmd41.2 ⟨_, rounds, rfl⟩)
      (cInt_ne_zero.2 (by simpa using ne))
    exact Or.inl ⟨1, one, cOr_fails (cOr_fails fails one _) one _⟩
  | @cmd58 u v a status passed cmd58 bad =>
    have fault : (a != some 0x00 || !status.msb) = true := by
      by_contra fine
      simp only [Bool.not_eq_true, Bool.or_eq_false_iff, bne_eq_false_iff_eq, Bool.not_eq_false'] at fine
      exact bad fine
    have fails := cOr_passes_fails (reads_passed41.2 passed) (reads_sdCmd58.2 ⟨_, _, cmd58, rfl⟩)
      (cInt_ne_zero.2 fault)
    exact Or.inl ⟨1, one, cOr_fails fails one _⟩
  | cmd16 passed closed ne =>
    exact Or.inl ⟨1, one, cOr_passes_fails (reads_passed58.2 passed) (reads_sdCmd16.2 ⟨_, closed, rfl⟩)
      (cInt_ne_zero.2 (by simpa using ne))⟩
  | cmd18 passed reply ne => exact Or.inr ⟨_, _, rfl, passed, Or.inl ⟨_, reply, ne⟩⟩
  | sector passed sectors count bad differ =>
    obtain ⟨u, u', rfl, passed, reply⟩ := passed
    exact Or.inr ⟨u, _, by simp only [List.append_assoc], passed,
      Or.inr ⟨u', _, _, rfl, reply, Copied.broken sectors count bad differ⟩⟩

/-- **A rejected stream makes `main` return 1.** -/
theorem Rejected.answers {σ : ℕ → Byte} (rejected : Rejected σ) (fClk : ℕ) : Answers (main fClk) σ 1 := by
  obtain ⟨n, failure⟩ := rejected
  suffices h : Answers (bootCondition fClk) (after σ powerOnBytes) 1 from main_answers h
  rcases failure.stage with ⟨y, ne, reads⟩ | ⟨u, v, split, passed, h⟩
  · exact bootCondition_fails rfl reads ne
  · have rest := (received_split split).2.symm
    have copied : Answers (copy fClk) (after (after σ powerOnBytes) u.length) 1 := by
      rcases h with ⟨a, reply, ne⟩ | ⟨v₁, v₂, bytes, rfl, reply, copied⟩
      · exact copy_refused (rest.trans (List.append_nil v).symm) reply ne
      · exact copy_answers rest reply copied
    exact bootCondition_answers split passed copied

/-- No stream is both. -/
theorem Accepted.not_rejected {σ : ℕ → Byte} {blocks : List (List Byte)} (accepted : Accepted σ blocks) :
    ¬Rejected σ := by
  intro rejected
  obtain ⟨l, zero⟩ := accepted.answers 0
  obtain ⟨l', one⟩ := rejected.answers 0
  exact absurd (zero.unique one).1 (by decide)

/-! ## One parse

The blocks of an accepted stream are determined by it. -/

theorem Sector.unique {w w' data data' t t' : List Byte} {crc crc' : BitVec 16} (h : Sector w data crc)
    (h' : Sector w' data' crc') (same : w ++ t = w' ++ t') : data = data' ∧ crc = crc' ∧ t = t' := by
  obtain ⟨filler, hi, lo, rfl, clear, len, rfl⟩ := h
  obtain ⟨filler', hi', lo', rfl, clear', len', rfl⟩ := h'
  obtain ⟨l, taken⟩ := reads_waitToken.2 ⟨filler, rfl, clear, rfl⟩
  obtain ⟨l', taken'⟩ := reads_waitToken.2 ⟨filler', rfl, clear', rfl⟩
  have same : filler ++ [0xFE] ++ (data ++ [hi, lo] ++ t) = filler' ++ [0xFE] ++ (data' ++ [hi', lo'] ++ t') := by
    simpa using same
  obtain ⟨token, -⟩ := taken.unique taken' same
  rw [token, List.append_assoc data, List.append_assoc data'] at same
  obtain ⟨rfl, tail⟩ := List.append_inj (List.append_cancel_left same) (len.trans len'.symm)
  obtain ⟨bytes, rest⟩ := List.append_inj tail rfl
  cases bytes
  exact ⟨rfl, rfl, rest⟩

theorem Sectors.unique {w w' t t' : List Byte} {blocks blocks' : List (List Byte)} (h : Sectors w blocks)
    (h' : Sectors w' blocks') (same : w ++ t = w' ++ t') (count : blocks.length = blocks'.length) :
    blocks = blocks' := by
  induction h generalizing w' blocks' with
  | nil => exact (List.length_eq_zero_iff.1 count.symm).symm
  | cons sector _ ih =>
    cases h' with
    | nil => cases count
    | cons sector' sectors' =>
      rw [List.append_assoc, List.append_assoc] at same
      obtain ⟨rfl, -, same⟩ := sector.unique sector' same
      rw [ih sectors' same (Nat.succ.inj count)]

theorem Passed16.unique {w w' t t' : List Byte} (h : Passed16 w) (h' : Passed16 w') (same : w ++ t = w' ++ t') :
    w = w' := by
  obtain ⟨l, taken⟩ := reads_handshake_zero.2 h
  obtain ⟨l', taken'⟩ := reads_handshake_zero.2 h'
  exact (taken.unique taken' same).1

theorem Reply.unique {w w' t t' : List Byte} {a a' : Option Byte} (h : Reply w a) (h' : Reply w' a')
    (same : w ++ t = w' ++ t') : w = w' ∧ a = a' := by
  obtain ⟨r, answer, l, taken⟩ := h.reads 0x52 0xE1 bblPartitionStartSector
  obtain ⟨r', answer', l', taken'⟩ := h'.reads 0x52 0xE1 bblPartitionStartSector
  obtain ⟨word, result, -⟩ := taken.unique taken' same
  exact ⟨word, by rw [← answer, ← answer', result]⟩

theorem Passed18.unique {w w' t t' : List Byte} (h : Passed18 w) (h' : Passed18 w') (same : w ++ t = w' ++ t') :
    w = w' := by
  obtain ⟨u, v, rfl, passed, reply⟩ := h
  obtain ⟨u', v', rfl, passed', reply'⟩ := h'
  rw [List.append_assoc, List.append_assoc] at same
  obtain rfl := passed.unique passed' same
  rw [(reply.unique reply' (List.append_cancel_left same)).1]

/-- The blocks of a stream are determined. -/
theorem Accepted.unique {σ : ℕ → Byte} {blocks blocks' : List (List Byte)} (h : Accepted σ blocks)
    (h' : Accepted σ blocks') : blocks = blocks' := by
  obtain ⟨count, n, u, v, split, passed, sectors⟩ := h
  obtain ⟨count', n', u', v', split', passed', sectors'⟩ := h'
  have same : u ++ (v ++ received (after (after σ powerOnBytes) n) n') =
      u' ++ (v' ++ received (after (after σ powerOnBytes) n') n) := by
    rw [← List.append_assoc, ← List.append_assoc, ← split, ← split', received_common]
  obtain rfl := passed.unique passed' same
  exact sectors.unique sectors' (List.append_cancel_left same) (count.trans count'.symm)

theorem Accepted.flatten_length {σ : ℕ → Byte} {blocks : List (List Byte)} (h : Accepted σ blocks) :
    blocks.flatten.length = payloadSizeB := by
  obtain ⟨count, n, u, v, -, -, sectors⟩ := h
  rw [sectors.flatten_length, count]
  decide

/-! ## The window -/

theorem within_copy (fClk : ℕ) : Emits (copy fClk) (Within payloadDest (payloadDest + payloadSizeB)) := by
  refine (Emits.within (device_copyStart fClk) _ _).bind fun _ => ?_
  refine (Emits.within (device_sdCmd _ _ _) _ _).bind fun r => ?_
  split
  · exact (Emits.within device_sdCmdEnd _ _).bind fun _ => emits_pure _ _
  · refine (within_copySectors payloadSize payloadDest).bind fun rc => ?_
    refine (Emits.within device_sdCmdEnd _ _).bind fun _ => ?_
    refine (Emits.within (device_sdCmd _ _ _) _ _).bind fun _ => ?_
    refine (Emits.within device_sdCmdEnd _ _).bind fun _ => ?_
    exact (Emits.within (device_putChars _) _ _).bind fun _ => emits_pure _ _

theorem within_main (fClk : ℕ) : Emits (main fClk) (Within payloadDest (payloadDest + payloadSizeB)) := by
  refine (Emits.within (device_mainStart fClk) _ _).bind fun _ => ?_
  refine (emits_cOr (Emits.within device_handshake _ _) (within_copy fClk)).bind fun failed => ?_
  split
  · exact (Emits.within (device_putChars _) _ _).bind fun _ => emits_pure _ _
  · refine (Emits.within (device_putChars _) _ _).bind fun _ => ?_
    have fence : Device .fenceI := ⟨fun _ _ => Event.noConfusion, fun _ => False.elim⟩
    exact (Emits.within (emits_emit fence) _ _).bind fun _ => emits_pure _ _

/-! ## The verdict -/

/-- **The verdict and the effect of the bootloader.** `main` returns 0 exactly
when the stream is accepted; memory then holds the blocks in order, and a
`fence.i` has followed the last store; and every run, whether it returns or not,
writes only the payload window and device registers. -/
theorem main_verdict (fClk : ℕ) (σ : ℕ → Byte) :
    (∀ r l, Returns (main fClk) σ r l →
      (r = 0 ↔ ∃ blocks, Accepted σ blocks) ∧ (r = 0 → ∃ before, l = before ++ [.fenceI]) ∧
      ∀ blocks, Accepted σ blocks → blocks.flatten.length = payloadSizeB ∧
        ∀ mem i, i < payloadSizeB → some (memAfter mem l (payloadDest + i)) = blocks.flatten[i]?) ∧
    (∀ blocks, Accepted σ blocks → Answers (main fClk) σ 0) ∧
    ∀ n e a, e ∈ ((main fClk).run (received σ n)).log → e.Writes a →
      (payloadDest ≤ a ∧ a < payloadDest + payloadSizeB) ∨ DeviceAddr a := by
  refine ⟨fun r l returned => ⟨⟨?_, ?_⟩, ?_, ?_⟩, fun _ accepted => accepted.answers fClk, ?_⟩
  · rintro rfl
    rcases returns_main returned with ⟨-, blocks, accepted, -⟩ | ⟨absurd, -⟩
    · exact ⟨blocks, accepted⟩
    · cases absurd
  · rintro ⟨blocks, accepted⟩
    obtain ⟨l', zero⟩ := accepted.answers fClk
    exact (returned.unique zero).1
  · rintro rfl
    exact fence_last returned
  · intro blocks accepted
    obtain ⟨l', zero⟩ := accepted.answers fClk
    obtain ⟨rfl, rfl⟩ := returned.unique zero
    have len := accepted.flatten_length
    refine ⟨len, fun mem i bound => ?_⟩
    rcases returns_main returned with ⟨-, blocks', accepted', stored⟩ | ⟨absurd, -⟩
    · obtain rfl := accepted.unique accepted'
      rw [memAfter_storesAt mem stored (len ▸ bound), List.getElem?_eq_getElem]
    · cases absurd
  · intro n e a member writes
    rcases within_main fClk _ e member with device | ⟨p, v, rfl, lo, hi⟩
    · exact Or.inr (device.2 a writes)
    · obtain rfl : a = p := writes
      exact Or.inl ⟨lo, hi⟩

/-- A card with a payload of zeros boots, and overwrites the window with it. -/
theorem main_verdict_blank : Answers (main 50000000) blankCard 0 ∧
    ∀ l, Returns (main 50000000) blankCard 0 l →
      some (memAfter (fun _ => 0xFF) l payloadDest) = (List.replicate payloadSize blankBlock).flatten[0]? := by
  obtain ⟨verdict, boots, -⟩ := main_verdict 50000000 blankCard
  refine ⟨boots _ accepted_blank, fun l returned => ?_⟩
  exact ((verdict 0 l returned).2.2 _ accepted_blank).2 _ 0 (by decide)

end Zcu102.Boot
