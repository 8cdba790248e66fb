import Zcu102.Boot.Protocol

/-!
# What each function of the loader reads

One lemma a function: the words it reads, with its result for each, in the
terms of `Protocol`. A poll that times out returns a byte with bit 7 set, which
no caller takes for an answer; `r1` forgets which.
-/

namespace Zcu102.Boot
set_option autoImplicit false
open Sim Sim.Prog

/-! ## Console and transfers -/

@[simp] theorem reads_storeReg32 {p i : ℕ} {v : BitVec 32} {w : List Byte} {u : Unit} :
    Reads (storeReg32 p i v) w u ↔ w = [] := reads_emit

@[simp] theorem reads_putChars {cs : List Char} {w : List Byte} {u : Unit} :
    Reads (putChars cs) w u ↔ w = [] := by
  induction cs generalizing w with
  | nil => simp [putChars]
  | cons c cs ih => simp [putChars, kputc, reads_bind, ih]

@[simp] theorem reads_kputs {s : String} {w : List Byte} {u : Unit} :
    Reads (kputs s) w u ↔ w = [] := reads_putChars

@[simp] theorem reads_dputs {s : String} {w : List Byte} {u : Unit} :
    Reads (dputs s) w u ↔ w = [] := reads_putChars

@[simp] theorem reads_kprintf {s : String} {vl : List VaArg} {w : List Byte} {u : Unit} :
    Reads (kprintf s vl) w u ↔ w = [] := reads_putChars

@[simp] theorem reads_spiXfer {d b : Byte} {w : List Byte} : Reads (spiXfer d) w b ↔ w = [b] := by
  simp [spiXfer, reads_bind]

@[simp] theorem reads_sdDummy {b : Byte} {w : List Byte} : Reads sdDummy w b ↔ w = [b] := reads_spiXfer

@[simp] theorem reads_sdCmdEnd {w : List Byte} {u : Unit} : Reads sdCmdEnd w u ↔ ∃ x, w = [x] := by
  simp [sdCmdEnd, reads_bind]

theorem reads_sdDummies {n : ℕ} {w : List Byte} {u : Unit} : Reads (sdDummies n) w u ↔ w.length = n := by
  induction n generalizing w with
  | zero => simp [sdDummies]
  | succ n ih =>
    simp only [sdDummies, reads_bind, reads_sdDummy, ih]
    constructor
    · rintro ⟨w₁, w₂, b, rfl, rfl, len⟩
      simp [len]
    · intro len
      cases w with
      | nil => cases len
      | cons b w => exact ⟨[b], w, b, rfl, rfl, by simpa using len⟩

theorem reads_sdPoweron {fClk : ℕ} {w : List Byte} {u : Unit} :
    Reads (sdPoweron fClk) w u ↔ w.length = powerOnBytes := by
  simp [sdPoweron, reads_bind, reads_sdDummies, powerOnBytes]

theorem reads_copyStart {fClk : ℕ} {w : List Byte} {u : Unit} : Reads (copyStart fClk) w u ↔ w = [] := by
  simp [copyStart, reads_bind]

theorem reads_mainStart {fClk : ℕ} {w : List Byte} {u : Unit} :
    Reads (mainStart fClk) w u ↔ w.length = powerOnBytes := by
  simp [mainStart, reads_bind, reads_sdPoweron]

/-! ## Commands -/

theorem bit7_clear (r : Byte) : r &&& 0x80 = 0 ↔ r.msb = false := by
  revert r
  decide

/-- `if (!(r & 0x80))` -/
theorem clear_branch {α : Type} (r : Byte) (yes no : Sd α) :
    (if r &&& 0x80 = 0 then yes else no) = if r.msb then no else yes := by
  cases bit : r.msb with
  | true =>
    have busy : ¬ r &&& 0x80 = 0 := by
      rw [bit7_clear, bit]
      exact Bool.noConfusion
    rw [if_neg busy, if_pos rfl]
  | false =>
    rw [if_pos ((bit7_clear r).2 bit)]
    rfl

theorem reads_sdFrame {cmd crc : Byte} {arg : BitVec 32} {w : List Byte} {u : Unit} :
    Reads (sdFrame cmd arg crc) w u ↔ w.length = 7 := by
  simp only [sdFrame, sdSend, reads_bind, reads_storeReg32, reads_sdDummy, reads_spiXfer, reads_pure]
  constructor
  · rintro ⟨_, _, _, rfl, rfl, _, _, b₀, rfl, rfl, _, _, b₁, rfl, rfl, _, _, b₂, rfl, rfl,
      _, _, b₃, rfl, rfl, _, _, b₄, rfl, rfl, _, _, b₅, rfl, rfl, _, _, b₆, rfl, rfl, rfl, -⟩
    rfl
  · intro len
    obtain ⟨b₀, w, rfl⟩ := List.exists_cons_of_length_eq_add_one len
    obtain ⟨b₁, w, rfl⟩ := List.exists_cons_of_length_eq_add_one (Nat.succ.inj len)
    obtain ⟨b₂, w, rfl⟩ := List.exists_cons_of_length_eq_add_one (Nat.succ.inj (Nat.succ.inj len))
    have four : w.length = 4 := by simpa using len
    obtain ⟨b₃, w, rfl⟩ := List.exists_cons_of_length_eq_add_one four
    obtain ⟨b₄, w, rfl⟩ := List.exists_cons_of_length_eq_add_one (Nat.succ.inj four)
    have two : w.length = 2 := by simpa using four
    obtain ⟨b₅, b₆, rfl⟩ := List.length_eq_two.1 two
    exact ⟨[], _, (), rfl, rfl, [b₀], _, b₀, rfl, rfl, [b₁], _, b₁, rfl, rfl, [b₂], _, b₂, rfl, rfl,
      [b₃], _, b₃, rfl, rfl, [b₄], _, b₄, rfl, rfl, [b₅], _, b₅, rfl, rfl, [b₆], [], b₆, rfl, rfl, rfl, trivial⟩

/-- The R1 a poll stands for. -/
def r1 (r : Byte) : Option Byte := if r.msb then none else some r

theorem r1_eq_some {r c : Byte} (h : c.msb = false) : r1 r = some c ↔ r = c := by
  unfold r1
  cases bit : r.msb with
  | true =>
    simp only [if_true, reduceCtorEq, false_iff]
    rintro rfl
    rw [bit] at h
    cases h
  | false => simp

/-- One polled byte: the poll is over when its bit 7 is clear. -/
theorem reads_poll_byte {next : Byte → Sd Byte} {w : List Byte} {r : Byte} :
    Reads (sdDummy >>= fun b => if b &&& 0x80 = 0 then pure b else next b) w r ↔
      w = [r] ∧ r.msb = false ∨ ∃ b w', w = b :: w' ∧ b.msb = true ∧ Reads (next b) w' r := by
  simp only [reads_bind, reads_sdDummy, clear_branch]
  constructor
  · rintro ⟨w₁, w₂, b, rfl, rfl, rest⟩
    cases bit : b.msb with
    | true =>
      rw [bit, if_pos rfl] at rest
      exact Or.inr ⟨b, w₂, rfl, bit, rest⟩
    | false =>
      simp only [bit, Bool.false_eq_true, if_false, reads_pure] at rest
      obtain ⟨rfl, rfl⟩ := rest
      exact Or.inl ⟨rfl, bit⟩
  · rintro (⟨rfl, clear⟩ | ⟨b, w', rfl, busy, rest⟩)
    · exact ⟨[r], [], r, rfl, rfl, by simp [clear]⟩
    · exact ⟨[b], w', b, rfl, rfl, by rwa [busy, if_pos rfl]⟩

/-- A poll ends at the first byte with bit 7 clear, or after `n + 1` bytes. -/
theorem reads_sdPoll {n : ℕ} {w : List Byte} {r : Byte} : Reads (sdPoll n) w r ↔
    ∃ busy, w = busy ++ [r] ∧ (∀ b ∈ busy, b.msb = true) ∧
      (busy.length ≤ n ∧ r.msb = false ∨ busy.length = n ∧ r.msb = true) := by
  induction n generalizing w with
  | zero =>
    rw [sdPoll, reads_poll_byte]
    constructor
    · rintro (⟨rfl, clear⟩ | ⟨b, w', rfl, bit, rest⟩)
      · exact ⟨[], rfl, by simp, Or.inl ⟨Nat.le_refl 0, clear⟩⟩
      · simp only [reads_bind, reads_kputs, reads_pure] at rest
        obtain ⟨_, _, _, rfl, rfl, rfl, rfl⟩ := rest
        exact ⟨[], rfl, by simp, Or.inr ⟨rfl, bit⟩⟩
    · rintro ⟨busy, rfl, -, outcome⟩
      have empty : busy = [] := by
        apply List.eq_nil_of_length_eq_zero
        omega
      subst empty
      obtain ⟨-, clear⟩ | ⟨-, bit⟩ := outcome
      · exact Or.inl ⟨rfl, clear⟩
      · exact Or.inr ⟨r, [], rfl, bit, by simp [reads_bind]⟩
  | succ n ih =>
    rw [sdPoll, reads_poll_byte]
    simp only [ih]
    constructor
    · rintro (⟨rfl, clear⟩ | ⟨b, _, rfl, bit, busy, rfl, all, outcome⟩)
      · exact ⟨[], rfl, by simp, Or.inl ⟨Nat.zero_le _, clear⟩⟩
      · refine ⟨b :: busy, rfl, List.forall_mem_cons.mpr ⟨bit, all⟩, ?_⟩
        simpa only [List.length_cons, Nat.succ_le_succ_iff, Nat.succ_inj] using outcome
    · rintro ⟨busy, rfl, all, outcome⟩
      cases busy with
      | nil =>
        obtain ⟨-, clear⟩ | ⟨full, -⟩ := outcome
        · exact Or.inl ⟨rfl, clear⟩
        · cases full
      | cons b busy =>
        obtain ⟨bit, all⟩ := List.forall_mem_cons.mp all
        refine Or.inr ⟨b, busy ++ [r], rfl, bit, busy, rfl, all, ?_⟩
        simpa only [List.length_cons, Nat.succ_le_succ_iff, Nat.succ_inj] using outcome

/-- What a command reads: a reply, and its R1. -/
theorem reads_sdCmd {cmd crc : Byte} {arg : BitVec 32} {w : List Byte} {r : Byte}
    (h : Reads (sdCmd cmd arg crc) w r) : Reply w (r1 r) := by
  obtain ⟨frame, poll, _, rfl, sent, polled⟩ := reads_bind.1 h
  obtain ⟨busy, rfl, all, outcome⟩ := reads_sdPoll.1 polled
  have len := reads_sdFrame.1 sent
  rcases outcome with ⟨few, clear⟩ | ⟨full, set⟩
  · rw [r1, clear]
    exact Reply.answer len (by omega) all clear
  · rw [r1, set]
    refine Reply.silent len (by simp [full]) ?_
    intro b member
    rcases List.mem_append.1 member with member | member
    · exact all b member
    · rw [List.mem_singleton.1 member, set]

/-- Every reply is read, as its R1. -/
theorem Reply.reads {w : List Byte} {a : Option Byte} (h : Reply w a) (cmd crc : Byte) (arg : BitVec 32) :
    ∃ r, r1 r = a ∧ Reads (sdCmd cmd arg crc) w r := by
  cases h with
  | @answer frame busy r len few all clear =>
    refine ⟨r, by simp [r1, clear], ?_⟩
    exact reads_bind.2 ⟨frame, busy ++ [r], (), rfl, reads_sdFrame.2 len,
      reads_sdPoll.2 ⟨busy, rfl, all, Or.inl ⟨by omega, clear⟩⟩⟩
  | @silent frame busy len full all =>
    obtain ⟨front, r, rfl⟩ : ∃ front r, busy = front ++ [r] := by
      refine ⟨busy.dropLast, busy.getLast (by rintro rfl; cases full), ?_⟩
      exact (List.dropLast_append_getLast _).symm
    have set : r.msb = true := all r (by simp)
    simp only [List.length_append, List.length_singleton] at full
    refine ⟨r, by simp [r1, set], ?_⟩
    exact reads_bind.2 ⟨frame, front ++ [r], (), rfl, reads_sdFrame.2 len,
      reads_sdPoll.2 ⟨front, rfl, fun b member => all b (by simp [member]), Or.inr ⟨by omega, set⟩⟩⟩

/-- A command followed by a program that only looks at its R1. -/
theorem reads_sdCmd_bind {α : Type} {cmd crc : Byte} {arg : BitVec 32} {f : Byte → Sd α} {w : List Byte}
    {c : α} (g : Option Byte → List Byte → Prop) (h : ∀ r v, Reads (f r) v c ↔ g (r1 r) v) :
    Reads (sdCmd cmd arg crc >>= f) w c ↔ ∃ u v a, w = u ++ v ∧ Reply u a ∧ g a v := by
  rw [reads_bind]
  constructor
  · rintro ⟨u, v, r, rfl, first, second⟩
    exact ⟨u, v, r1 r, rfl, reads_sdCmd first, (h r v).1 second⟩
  · rintro ⟨u, v, a, rfl, reply, second⟩
    obtain ⟨r, rfl, first⟩ := reply.reads cmd crc arg
    exact ⟨u, v, r, rfl, first, (h r v).2 second⟩

/-- Console output before a program reads nothing. -/
@[simp] theorem reads_dputs_bind {α : Type} {s : String} {f : Unit → Sd α} {w : List Byte} {c : α} :
    Reads (dputs s >>= f) w c ↔ Reads (f ()) w c := by
  rw [reads_bind]
  constructor
  · rintro ⟨w₁, w₂, _, rfl, first, second⟩
    rw [reads_dputs] at first
    subst first
    exact second
  · intro h
    exact ⟨[], w, (), rfl, reads_dputs.2 rfl, h⟩

/-- Comparing an R1 with a code is comparing the byte. -/
theorem r1_bne (r : Byte) {c : Byte} (h : c.msb = false) : (r != c) = (r1 r != some c) := by
  rw [Bool.eq_iff_iff, bne_iff_ne, bne_iff_ne, Ne, Ne, r1_eq_some h]

/-- A command that only checks its R1 against `code`. -/
theorem reads_checked {cmd crc code : Byte} {arg : BitVec 32} {w : List Byte} {rc : BitVec 32}
    (h : code.msb = false) :
    Reads (do let r ← sdCmd cmd arg crc; sdCmdEnd; pure (cInt (r != code))) w rc ↔
      ∃ a, Closed w a ∧ rc = cInt (a != some code) := by
  rw [reads_sdCmd_bind (fun a v => ∃ x, v = [x] ∧ rc = cInt (a != some code))]
  · constructor
    · rintro ⟨u, v, a, rfl, reply, x, rfl, rfl⟩
      exact ⟨a, ⟨u, x, rfl, reply⟩, rfl⟩
    · rintro ⟨a, ⟨u, x, rfl, reply⟩, rfl⟩
      exact ⟨u, [x], a, rfl, reply, x, rfl, rfl⟩
  · intro r v
    rw [r1_bne r h]
    simp [reads_bind]

theorem reads_sdCmd0 {w : List Byte} {rc : BitVec 32} :
    Reads sdCmd0 w rc ↔ ∃ a, Closed w a ∧ rc = cInt (a != some 0x01) :=
  reads_dputs_bind.trans (reads_checked rfl)

theorem reads_sdCmd16 {w : List Byte} {rc : BitVec 32} :
    Reads sdCmd16 w rc ↔ ∃ a, Closed w a ∧ rc = cInt (a != some 0x00) :=
  reads_dputs_bind.trans (reads_checked rfl)

theorem reads_sdCmd55 {w : List Byte} {u : Unit} : Reads sdCmd55 w u ↔ ∃ a, Closed w a := by
  rw [sdCmd55, reads_sdCmd_bind (fun _ v => ∃ x, v = [x])]
  · constructor
    · rintro ⟨u, v, a, rfl, reply, x, rfl⟩
      exact ⟨a, u, x, rfl, reply⟩
    · rintro ⟨a, u, x, rfl, reply⟩
      exact ⟨u, [x], a, rfl, reply, x, rfl⟩
  · intro r v
    exact reads_sdCmdEnd

theorem cInt_or (p q : Bool) : cInt p ||| cInt q = cInt (p || q) := by
  cases p <;> cases q <;> rfl

theorem reads_sdCmd8 {w : List Byte} {rc : BitVec 32} : Reads sdCmd8 w rc ↔
    ∃ a voltage pattern, Cmd8 w a voltage pattern ∧
      rc = cInt (a != some 0x01 || voltage &&& 0xF != 0x1 || pattern != 0xAA) := by
  rw [sdCmd8, reads_dputs_bind, reads_sdCmd_bind (fun a v => ∃ y z voltage pattern x,
    v = [y, z, voltage, pattern, x] ∧ rc = cInt (a != some 0x01 || voltage &&& 0xF != 0x1 || pattern != 0xAA))]
  · constructor
    · rintro ⟨u, v, a, rfl, reply, y, z, voltage, pattern, x, rfl, rfl⟩
      exact ⟨a, voltage, pattern, ⟨u, y, z, x, rfl, reply⟩, rfl⟩
    · rintro ⟨a, voltage, pattern, ⟨u, y, z, x, rfl, reply⟩, rfl⟩
      exact ⟨u, _, a, rfl, reply, y, z, voltage, pattern, x, rfl, rfl⟩
  · intro r v
    rw [r1_bne r rfl]
    simp only [cInt_or, reads_bind, reads_sdDummy, reads_sdCmdEnd, reads_pure]
    constructor
    · rintro ⟨_, _, y, rfl, rfl, _, _, z, rfl, rfl, _, _, voltage, rfl, rfl, _, _, pattern, rfl, rfl,
        _, _, _, rfl, ⟨x, rfl⟩, rfl, rfl⟩
      exact ⟨y, z, voltage, pattern, x, rfl, rfl⟩
    · rintro ⟨y, z, voltage, pattern, x, rfl, rfl⟩
      exact ⟨[y], _, y, rfl, rfl, [z], _, z, rfl, rfl, [voltage], _, voltage, rfl, rfl,
        [pattern], _, pattern, rfl, rfl, [x], [], (), rfl, ⟨x, rfl⟩, rfl, rfl⟩

theorem status_bit (s : Byte) : (s &&& 0x80 != 0x80) = !s.msb := by
  revert s
  decide

theorem reads_sdCmd58 {w : List Byte} {rc : BitVec 32} : Reads sdCmd58 w rc ↔
    ∃ a status, Cmd58 w a status ∧ rc = cInt (a != some 0x00 || !status.msb) := by
  rw [sdCmd58, reads_dputs_bind, reads_sdCmd_bind (fun a v => ∃ status x y z t,
    v = [status, x, y, z, t] ∧ rc = cInt (a != some 0x00 || !status.msb))]
  · constructor
    · rintro ⟨u, v, a, rfl, reply, status, x, y, z, t, rfl, rfl⟩
      exact ⟨a, status, ⟨u, x, y, z, t, rfl, reply⟩, rfl⟩
    · rintro ⟨a, status, ⟨u, x, y, z, t, rfl, reply⟩, rfl⟩
      exact ⟨u, _, a, rfl, reply, status, x, y, z, t, rfl, rfl⟩
  · intro r v
    rw [r1_bne r rfl]
    simp only [cInt_or, status_bit, reads_bind, reads_sdDummy, reads_sdCmdEnd, reads_pure]
    constructor
    · rintro ⟨_, _, status, rfl, rfl, _, _, x, rfl, rfl, _, _, y, rfl, rfl, _, _, z, rfl, rfl,
        _, _, _, rfl, ⟨t, rfl⟩, rfl, rfl⟩
      exact ⟨status, x, y, z, t, rfl, rfl⟩
    · rintro ⟨status, x, y, z, t, rfl, rfl⟩
      exact ⟨[status], _, status, rfl, rfl, [x], _, x, rfl, rfl, [y], _, y, rfl, rfl,
        [z], _, z, rfl, rfl, [t], [], (), rfl, ⟨t, rfl⟩, rfl, rfl⟩

/-! ## The ACMD41 loop -/

theorem reads_sdAcmd41Round {w : List Byte} {r : Byte} (h : Reads sdAcmd41Round w r) :
    ∃ u v c, w = u ++ v ∧ Closed u c ∧ Reply v (r1 r) := by
  obtain ⟨u, v, _, rfl, first, second⟩ := reads_bind.1 h
  obtain ⟨c, closed⟩ := reads_sdCmd55.1 first
  exact ⟨u, v, c, rfl, closed, reads_sdCmd second⟩

theorem acmd41_round {u v : List Byte} {c a : Option Byte} (closed : Closed u c) (reply : Reply v a) :
    ∃ r, r1 r = a ∧ Reads sdAcmd41Round (u ++ v) r := by
  obtain ⟨r, same, read⟩ := reply.reads 0x69 0x77 0x40000000
  exact ⟨r, same, reads_bind.2 ⟨u, v, (), rfl, reads_sdCmd55.2 ⟨c, closed⟩, read⟩⟩

/-- The rounds of the loop are the rounds of the protocol. -/
theorem Acmd41.of_rounds {w : List Byte} {r : Byte} {l : List Event}
    (h : Rounds sdAcmd41Round (fun r => r == 0x01) w r l) : Acmd41 w (r1 r) := by
  induction h with
  | @last w r l taken stop =>
    obtain ⟨u, v, c, rfl, closed, reply⟩ := reads_sdAcmd41Round ⟨l, taken⟩
    refine Acmd41.last closed reply ?_
    rw [Ne, r1_eq_some rfl]
    simpa using stop
  | @more w r l w' r' l' taken go _ ih =>
    obtain ⟨u, v, c, rfl, closed, reply⟩ := reads_sdAcmd41Round ⟨l, taken⟩
    obtain rfl : r = 0x01 := by simpa using go
    exact Acmd41.again closed reply ih

theorem Acmd41.rounds {w : List Byte} {a : Option Byte} (h : Acmd41 w a) :
    ∃ r l, r1 r = a ∧ Rounds sdAcmd41Round (fun r => r == 0x01) w r l := by
  induction h with
  | @last u v c a closed reply ne =>
    obtain ⟨r, rfl, l, taken⟩ := acmd41_round closed reply
    refine ⟨r, l, rfl, Rounds.last taken ?_⟩
    rw [Ne, r1_eq_some rfl] at ne
    simpa using ne
  | @again u v w c a closed reply _ ih =>
    obtain ⟨r, same, l, taken⟩ := acmd41_round closed reply
    obtain ⟨r', l', hr', rest⟩ := ih
    rw [r1_eq_some rfl] at same
    exact ⟨r', l ++ l', hr', Rounds.more taken (by simp [same]) rest⟩

theorem reads_sdAcmd41 {w : List Byte} {rc : BitVec 32} :
    Reads sdAcmd41 w rc ↔ ∃ a, Acmd41 w a ∧ rc = cInt (a != some 0x00) := by
  rw [sdAcmd41, reads_dputs_bind, reads_bind]
  constructor
  · rintro ⟨u, v, r, rfl, ⟨l, taken⟩, second⟩
    rw [reads_pure] at second
    obtain ⟨rfl, rfl⟩ := second
    rw [List.append_nil]
    exact ⟨r1 r, Acmd41.of_rounds ((takes_doWhile _).1 taken), by rw [r1_bne r rfl]⟩
  · rintro ⟨a, rounds, rfl⟩
    obtain ⟨r, l, rfl, looped⟩ := rounds.rounds
    refine ⟨w, [], r, by simp, ⟨l, looped.takes _⟩, ?_⟩
    rw [reads_pure, r1_bne r rfl]
    exact ⟨rfl, rfl⟩

end Zcu102.Boot
