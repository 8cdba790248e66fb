import Mathlib.Data.List.Induction
import Zcu102.Boot.Verdict

/-!
# Chip select between commands

Every call of `sd_cmd` starts by setting CSMODE to HOLD, and nothing else does;
`sd_cmd_end` clocks one dummy byte and sets CSMODE to AUTO. The discipline asks
for such an end between any two frames, and for AUTO when `main` returns. A
monitor over the log tracks it. `sd_acmd41` leaves its frame open, so the
discipline holds exactly on the streams that fail CMD0 or CMD8.
-/

namespace Zcu102.Boot
set_option autoImplicit false
open Sim Sim.Prog

def csmodeAddr : ℕ := reg32 spiCtrlAddr spiRegCsmode

/-- The store that opens a command frame. -/
def holdEvent : Event := .store32 csmodeAddr spiCsmodeHold

/-- The store that deselects the card. -/
def autoEvent : Event := .store32 csmodeAddr spiCsmodeAuto

/-- The store that sends a dummy byte. -/
def dummyEvent : Event := .store32 (reg32 spiCtrlAddr spiRegTxfifo) 0xFF

/-- The mode after an effect. -/
def modeAfter (mode : BitVec 32) : Event → BitVec 32
  | .store32 a v => if a = csmodeAddr then v else mode
  | _ => mode

/-- CSMODE after a log. Its reset value is AUTO. -/
def csmode (l : List Event) : BitVec 32 := l.foldl modeAfter spiCsmodeAuto

/-- Two consecutive frames have an `sd_cmd_end` between them. -/
def Separated (l : List Event) : Prop :=
  ∀ pre mid post, l = pre ++ holdEvent :: (mid ++ holdEvent :: post) → holdEvent ∉ mid →
    ∃ m₁ b m₂, mid = m₁ ++ dummyEvent :: .rx b :: autoEvent :: m₂

/-- The chip-select discipline of all runs on a stream. -/
structure Disciplined (fClk : ℕ) (σ : ℕ → Byte) : Prop where
  separated : ∀ n, Separated ((main fClk).run (received σ n)).log
  returned : ∀ r l, Returns (main fClk) σ r l → csmode l = spiCsmodeAuto

/-! ## The monitor -/

/-- How far a frame is from its end. -/
inductive Phase where
  | closed
  | opened
  | dummySent
  | dummyDone
  | clash
  deriving DecidableEq, Repr

def Phase.next : Phase → Event → Phase
  | .clash, _ => .clash
  | .closed, e => if e = holdEvent then .opened else .closed
  | .opened, e => if e = holdEvent then .clash else if e = dummyEvent then .dummySent else .opened
  | .dummySent, e =>
    if e = holdEvent then .clash else if e = dummyEvent then .dummySent else
      match e with
      | .rx _ => .dummyDone
      | _ => .opened
  | .dummyDone, e =>
    if e = holdEvent then .clash else if e = autoEvent then .closed else
      if e = dummyEvent then .dummySent else .opened

/-- A frame may start only when the previous one is closed. -/
theorem Phase.next_hold {p : Phase} (h : p.next holdEvent ≠ .clash) : p = .closed := by
  cases p <;> simp_all [Phase.next]

theorem Phase.next_sent {p : Phase} {e : Event} (h : p.next e = .dummySent) : e = dummyEvent := by
  cases p <;> simp only [Phase.next] at h <;> grind

theorem Phase.next_done {p : Phase} {e : Event} (h : p.next e = .dummyDone) :
    p = .dummySent ∧ ∃ b, e = .rx b := by
  cases p <;> simp only [Phase.next] at h <;> grind

theorem Phase.next_closed {p : Phase} {e : Event} (h : p.next e = .closed) :
    p = .closed ∨ p = .dummyDone ∧ e = autoEvent := by
  cases p <;> simp only [Phase.next] at h <;> grind

theorem Phase.next_clash {p : Phase} {e : Event} (h : p.next e = .clash) : p = .clash ∨ e = holdEvent := by
  cases p <;> simp only [Phase.next] at h <;> grind

/-- What the monitor saw last, from the start of a frame on. -/
structure Seen (p : Phase) (mid : List Event) : Prop where
  sent : p = .dummySent → ∃ m, mid = m ++ [dummyEvent]
  done : p = .dummyDone → ∃ m b, mid = m ++ [dummyEvent, .rx b]
  closed : p = .closed → ∃ m₁ b m₂, mid = m₁ ++ dummyEvent :: .rx b :: autoEvent :: m₂

theorem Seen.next {p : Phase} {mid : List Event} (h : Seen p mid) (e : Event) :
    Seen (p.next e) (mid ++ [e]) where
  sent := by
    intro last
    exact ⟨mid, by rw [Phase.next_sent last]⟩
  done := by
    intro last
    obtain ⟨before, b, rfl⟩ := Phase.next_done last
    obtain ⟨m, rfl⟩ := h.sent before
    exact ⟨m, b, by simp⟩
  closed := by
    intro last
    rcases Phase.next_closed last with before | ⟨before, rfl⟩
    · obtain ⟨m₁, b, m₂, rfl⟩ := h.closed before
      exact ⟨m₁, b, m₂ ++ [e], by simp⟩
    · obtain ⟨m, b, rfl⟩ := h.done before
      exact ⟨m, b, [], by simp⟩

theorem seen_opened (mid : List Event) : Seen (mid.foldl Phase.next .opened) mid := by
  induction mid using List.reverseRecOn with
  | nil => exact ⟨nofun, nofun, nofun⟩
  | append_singleton mid e ih =>
    rw [List.foldl_append]
    exact ih.next e

/-- A log on which the monitor never sees a clash is separated. -/
theorem separated_of_monitor {l : List Event}
    (safe : ∀ p, p <+: l → p.foldl Phase.next .closed ≠ .clash) : Separated l := by
  intro pre mid post split _
  have first : pre.foldl Phase.next .closed = .closed := by
    apply Phase.next_hold
    have := safe (pre ++ [holdEvent]) ⟨mid ++ holdEvent :: post, by simp [split]⟩
    rwa [List.foldl_append] at this
  have second : mid.foldl Phase.next .opened = .closed := by
    apply Phase.next_hold
    have := safe (pre ++ holdEvent :: mid ++ [holdEvent]) ⟨post, by simp [split]⟩
    rw [List.foldl_append, List.foldl_append, first] at this
    exact this
  exact (seen_opened mid).closed second

/-! ## Frames under the monitor -/

/-- The phase and the mode together. -/
structure Bus where
  phase : Phase
  mode : BitVec 32

def Bus.next (b : Bus) (e : Event) : Bus := ⟨b.phase.next e, modeAfter b.mode e⟩

theorem foldl_bus (l : List Event) (b : Bus) :
    l.foldl Bus.next b = ⟨l.foldl Phase.next b.phase, l.foldl modeAfter b.mode⟩ := by
  induction l generalizing b with
  | nil => rfl
  | cons e l ih => exact ih (b.next e)

def Bus.Ok (b : Bus) : Prop := b.phase ≠ .clash

/-- Between commands. -/
def Bus.Rest (b : Bus) : Prop := b.phase = .closed ∧ b.mode = spiCsmodeAuto

/-- Inside a frame. -/
def Bus.Open (b : Bus) : Prop := b.phase ≠ .closed ∧ b.phase ≠ .clash

/-- The effect leaves CSMODE alone. -/
def Quiet (e : Event) : Prop := ∀ v, e ≠ .store32 csmodeAddr v

theorem modeAfter_quiet {mode : BitVec 32} {e : Event} (h : Quiet e) : modeAfter mode e = mode := by
  cases e with
  | store32 a v =>
    have ne : a ≠ csmodeAddr := by
      rintro rfl
      exact h v rfl
    exact if_neg ne
  | store8 a v => rfl
  | rx b => rfl
  | putc c => rfl
  | fenceI => rfl

theorem Bus.Rest.next {b : Bus} {e : Event} (h : b.Rest) (quiet : Quiet e) : (b.next e).Rest := by
  obtain ⟨closed, auto⟩ := h
  refine ⟨?_, ?_⟩
  · show b.phase.next e = .closed
    rw [closed]
    exact if_neg (quiet _)
  · show modeAfter b.mode e = spiCsmodeAuto
    rw [modeAfter_quiet quiet, auto]

theorem Bus.Open.next {b : Bus} {e : Event} (h : b.Open) (quiet : Quiet e) : (b.next e).Open := by
  obtain ⟨opened, fine⟩ := h
  refine ⟨fun closed => ?_, fun clash => ?_⟩
  · rcases Phase.next_closed closed with closed | ⟨-, rfl⟩
    · exact opened closed
    · exact quiet _ rfl
  · rcases Phase.next_clash clash with clash | rfl
    · exact fine clash
    · exact quiet _ rfl

theorem Bus.ok_of_phase {b : Bus} {p : Phase} (h : b.phase = p) (fine : p ≠ .clash) : b.Ok := by
  unfold Bus.Ok
  rwa [h]

theorem Bus.Rest.ok {b : Bus} (h : b.Rest) : b.Ok := Bus.ok_of_phase h.1 (by decide)

theorem Emits.rest {α : Type} {m : Sd α} (quiet : Emits m Quiet) {s : Bus} (h : s.Rest) (bs : List Byte) :
    Follows Bus.next Bus.Ok s m bs fun _ _ t => t.Rest :=
  quiet.follows h (fun _ _ => Bus.Rest.next) fun _ => Bus.Rest.ok

theorem Emits.stays_open {α : Type} {m : Sd α} (quiet : Emits m Quiet) {s : Bus} (h : s.Open) (bs : List Byte) :
    Follows Bus.next Bus.Ok s m bs fun _ _ t => t.Open :=
  quiet.follows h (fun _ _ => Bus.Open.next) fun _ opened => opened.2

theorem quiet_storeReg32 {p i : ℕ} (ne : reg32 p i ≠ csmodeAddr) (v : BitVec 32) :
    Emits (storeReg32 p i v) Quiet :=
  emits_emit fun _ same => ne (Event.store32.inj same).1

theorem quiet_putChars (cs : List Char) : Emits (putChars cs) Quiet := by
  induction cs with
  | nil => exact emits_pure () Quiet
  | cons c cs ih => exact (emits_emit fun _ => Event.noConfusion).bind fun _ => ih

theorem quiet_spiXfer (d : Byte) : Emits (spiXfer d) Quiet :=
  (quiet_storeReg32 (by decide) _).bind fun _ => emits_read fun _ _ => Event.noConfusion

theorem quiet_sdPoll (n : ℕ) : Emits (sdPoll n) Quiet := by
  induction n with
  | zero =>
    refine (quiet_spiXfer _).bind fun r => ?_
    split
    · exact emits_pure r Quiet
    · exact (quiet_putChars _).bind fun _ => emits_pure r Quiet
  | succ n ih =>
    refine (quiet_spiXfer _).bind fun r => ?_
    split
    · exact emits_pure r Quiet
    · exact ih

theorem quiet_sdDummies (n : ℕ) : Emits (sdDummies n) Quiet := by
  induction n with
  | zero => exact emits_pure () Quiet
  | succ n ih => exact (quiet_spiXfer _).bind fun _ => ih

theorem quiet_sdSend (cmd : Byte) (arg : BitVec 32) (crc : Byte) : Emits (sdSend cmd arg crc) Quiet :=
  (quiet_spiXfer _).bind fun _ => (quiet_spiXfer _).bind fun _ => (quiet_spiXfer _).bind fun _ =>
    (quiet_spiXfer _).bind fun _ => (quiet_spiXfer _).bind fun _ => (quiet_spiXfer _).bind fun _ =>
      (quiet_spiXfer _).bind fun _ => emits_pure () Quiet

/-- A command opens a frame. -/
theorem follows_sdCmd {s : Bus} (h : s.Rest) (cmd : Byte) (arg : BitVec 32) (crc : Byte) (bs : List Byte) :
    Follows Bus.next Bus.Ok s (sdCmd cmd arg crc) bs fun _ _ t => t.Open := by
  have opened : (s.next holdEvent).Open := by
    have phase : (s.next holdEvent).phase = .opened := by
      show s.phase.next holdEvent = .opened
      rw [h.1]
      decide
    exact ⟨by simp [phase], by simp [phase]⟩
  have select : Follows Bus.next Bus.Ok s (storeReg32 spiCtrlAddr spiRegCsmode spiCsmodeHold) bs
      fun _ _ t => t.Open := follows_emit h.ok opened.2 opened
  have frame := select.bind fun _ rest t inside => Emits.stays_open (quiet_sdSend cmd arg crc) inside rest
  exact frame.bind fun _ rest t inside => Emits.stays_open (quiet_sdPoll 999) inside rest

/-- An end closes it. -/
theorem follows_sdCmdEnd {s : Bus} (h : s.Open) (bs : List Byte) :
    Follows Bus.next Bus.Ok s sdCmdEnd bs fun _ _ t => t.Rest := by
  have sent : (s.next dummyEvent).phase = .dummySent := by
    obtain ⟨opened, fine⟩ := h
    show s.phase.next dummyEvent = .dummySent
    cases phase : s.phase with
    | closed => exact absurd phase opened
    | clash => exact absurd phase fine
    | opened => decide
    | dummySent => decide
    | dummyDone => decide
  have send : Follows Bus.next Bus.Ok s (storeReg32 spiCtrlAddr spiRegTxfifo 0xFF) bs
      fun _ _ t => t.phase = .dummySent :=
    follows_emit h.2 (Bus.ok_of_phase sent (by decide)) sent
  have dummy : Follows Bus.next Bus.Ok s sdDummy bs fun _ _ t => t.phase = .dummyDone := by
    refine send.bind fun _ rest t sent => follows_read (Bus.ok_of_phase sent (by decide)) fun b rest _ => ?_
    have done : (t.next (.rx b)).phase = .dummyDone := by
      show t.phase.next (.rx b) = .dummyDone
      rw [sent]
      simp [Phase.next, holdEvent, dummyEvent]
    exact ⟨Bus.ok_of_phase done (by decide), done⟩
  refine dummy.bind fun _ rest t done => ?_
  have closed : (t.next autoEvent).Rest := by
    refine ⟨?_, rfl⟩
    show t.phase.next autoEvent = .closed
    rw [done]
    decide
  exact follows_emit (Bus.ok_of_phase done (by decide)) closed.ok closed

/-! ## While ACMD41 is not reached -/

theorem follows_mainStart (fClk : ℕ) (bs : List Byte) :
    Follows Bus.next Bus.Ok ⟨.closed, spiCsmodeAuto⟩ (mainStart fClk) bs fun _ _ t => t.Rest := by
  have rest : Bus.Rest ⟨.closed, spiCsmodeAuto⟩ := ⟨rfl, rfl⟩
  refine (Emits.rest (quiet_storeReg32 (by decide) _) rest bs).bind fun _ bs t rest => ?_
  refine (Emits.rest (quiet_putChars _) rest bs).bind fun _ bs t rest => ?_
  refine (Emits.rest (quiet_storeReg32 (by decide) _) rest bs).bind fun _ bs t rest => ?_
  -- with the mode at OFF only the phase is kept
  have off : Follows Bus.next Bus.Ok t (storeReg32 spiCtrlAddr spiRegCsmode spiCsmodeOff) bs
      fun _ _ t => t.phase = .closed := by
    have closed : (t.next (.store32 csmodeAddr spiCsmodeOff)).phase = .closed := by
      show t.phase.next _ = .closed
      rw [rest.1]
      decide
    exact follows_emit rest.ok (Bus.ok_of_phase closed (by decide)) closed
  refine off.bind fun _ bs t closed => ?_
  have dummies : Follows Bus.next Bus.Ok t (sdDummies 10) bs fun _ _ t => t.phase = .closed := by
    refine (quiet_sdDummies 10).follows closed (fun t e closed quiet => ?_) fun t closed =>
      Bus.ok_of_phase closed (by decide)
    show t.phase.next e = .closed
    rw [closed]
    exact if_neg (quiet _)
  refine dummies.bind fun _ bs t closed => ?_
  have auto : (t.next autoEvent).Rest := by
    refine ⟨?_, rfl⟩
    show t.phase.next autoEvent = .closed
    rw [closed]
    decide
  exact follows_emit (Bus.ok_of_phase closed (by decide)) auto.ok auto

theorem follows_sdCmd0 {s : Bus} (rest : s.Rest) (bs : List Byte) :
    Follows Bus.next Bus.Ok s sdCmd0 bs fun _ _ t => t.Rest := by
  refine (Emits.rest (quiet_putChars _) rest bs).bind fun _ bs t rest => ?_
  refine (follows_sdCmd rest _ _ _ bs).bind fun r bs t inside => ?_
  exact (follows_sdCmdEnd inside bs).bind fun _ bs t rest => follows_pure rest.ok rest

theorem follows_sdCmd8 {s : Bus} (rest : s.Rest) (bs : List Byte) :
    Follows Bus.next Bus.Ok s sdCmd8 bs fun _ _ t => t.Rest := by
  refine (Emits.rest (quiet_putChars _) rest bs).bind fun _ bs t rest => ?_
  refine (follows_sdCmd rest _ _ _ bs).bind fun r bs t inside => ?_
  refine (Emits.stays_open (quiet_spiXfer _) inside bs).bind fun _ bs t inside => ?_
  refine (Emits.stays_open (quiet_spiXfer _) inside bs).bind fun _ bs t inside => ?_
  refine (Emits.stays_open (quiet_spiXfer _) inside bs).bind fun _ bs t inside => ?_
  refine (Emits.stays_open (quiet_spiXfer _) inside bs).bind fun _ bs t inside => ?_
  exact (follows_sdCmdEnd inside bs).bind fun _ bs t rest => follows_pure rest.ok rest

/-- A condition that fails in its first part does not run its second. -/
theorem follows_cOr_fails {s : Bus} {a : Sd (BitVec 32)} {bs : List Byte}
    (h : Follows Bus.next Bus.Ok s a bs fun x _ t => x ≠ 0 ∧ t.Rest) (b : Sd (BitVec 32)) :
    Follows Bus.next Bus.Ok s (cOr a b) bs fun x _ t => x ≠ 0 ∧ t.Rest := by
  refine h.bind fun x bs t ⟨ne, rest⟩ => ?_
  rw [if_pos ne]
  exact follows_pure rest.ok ⟨by decide, rest⟩

theorem follows_cmd0_cmd8 {s : Bus} (rest : s.Rest) (bs : List Byte) :
    Follows Bus.next Bus.Ok s (cOr sdCmd0 sdCmd8) bs fun _ _ t => t.Rest := by
  refine (follows_sdCmd0 rest bs).bind fun x bs t rest => ?_
  split
  · exact follows_pure rest.ok rest
  · exact (follows_sdCmd8 rest bs).bind fun y bs t rest => follows_pure rest.ok rest

/-- On a stream that fails CMD0 or CMD8 every run rests between its frames. -/
theorem follows_main (fClk : ℕ) {σ : ℕ → Byte}
    (fails : ∀ n, ¬Passed8 (received (after σ powerOnBytes) n)) (n : ℕ) :
    Follows Bus.next Bus.Ok ⟨.closed, spiCsmodeAuto⟩ (main fClk) (received σ n) fun _ _ t => t.Rest := by
  refine (follows_mainStart fClk (received σ n)).reads.bind fun _ bs t ⟨rest, w, split, start⟩ => ?_
  have len := reads_mainStart.1 start
  have first : Follows Bus.next Bus.Ok t (cOr sdCmd0 sdCmd8) bs fun x _ t => x ≠ 0 ∧ t.Rest := by
    refine (follows_cmd0_cmd8 rest bs).reads.mono fun x tail t ⟨rest, v, split', reads⟩ => ⟨?_, rest⟩
    rintro rfl
    have received := (received_split split).2
    rw [len, split'] at received
    exact fails v.length ((received_split received.symm).1 ▸ reads_passed8.1 reads)
  have condition := follows_cOr_fails (follows_cOr_fails (follows_cOr_fails (follows_cOr_fails first sdAcmd41)
    sdCmd58) sdCmd16) (copy fClk)
  refine condition.bind fun x bs t ⟨ne, rest⟩ => ?_
  rw [if_pos ne]
  exact (Emits.rest (quiet_putChars _) rest bs).bind fun _ bs t rest => follows_pure rest.ok rest

theorem disciplined_of_fails {fClk : ℕ} {σ : ℕ → Byte}
    (fails : ∀ n, ¬Passed8 (received (after σ powerOnBytes) n)) : Disciplined fClk σ where
  separated := by
    intro n
    apply separated_of_monitor
    intro p inside
    have ok := (follows_main fClk fails n).safe p inside
    rw [foldl_bus] at ok
    exact ok
  returned := by
    rintro r l ⟨n, taken⟩
    have out : ((main fClk).run (received σ n)).out = some (r, []) := by rw [taken]
    have rest := (follows_main fClk fails n).post out
    rw [taken, foldl_bus] at rest
    exact rest.2

/-! ## Once ACMD41 is reached -/

/-- A command logs its HOLD and leaves CSMODE alone after it. -/
theorem takes_sdCmd_log {cmd crc r : Byte} {arg : BitVec 32} {w : List Byte} {l : List Event}
    (h : Takes (sdCmd cmd arg crc) w r l) : ∃ mid, l = holdEvent :: mid ∧ ∀ e ∈ mid, Quiet e := by
  obtain ⟨_, _, _, _, l₂, -, rfl, framed, polled⟩ := takes_bind.1 h
  obtain ⟨_, _, _, _, l₁, -, rfl, select, sent⟩ := takes_bind.1 framed
  obtain ⟨-, rfl⟩ := takes_emit.1 select
  refine ⟨l₁ ++ l₂, rfl, fun e member => ?_⟩
  rcases List.mem_append.1 member with member | member
  · exact (quiet_sdSend _ _ _).takes sent e member
  · exact (quiet_sdPoll _).takes polled e member

/-- A command shows its HOLD before it reads. -/
theorem shows_sdCmd (cmd : Byte) (arg : BitVec 32) (crc : Byte) (σ : ℕ → Byte) :
    Shows (sdCmd cmd arg crc) σ [holdEvent] :=
  ((shows_emit holdEvent σ).bind _).bind _

/-- The log of a frame left open. -/
def LeftOpen (l : List Event) : Prop := ∃ pre mid, l = pre ++ holdEvent :: mid ∧ ∀ e ∈ mid, Quiet e

theorem LeftOpen.before {l : List Event} (h : LeftOpen l) (l' : List Event) : LeftOpen (l' ++ l) := by
  obtain ⟨pre, mid, rfl, quiet⟩ := h
  exact ⟨l' ++ pre, mid, by simp, quiet⟩

theorem LeftOpen.quiet {l l' : List Event} (h : LeftOpen l) (quiet' : ∀ e ∈ l', Quiet e) : LeftOpen (l ++ l') := by
  obtain ⟨pre, mid, rfl, quiet⟩ := h
  refine ⟨pre, mid ++ l', by simp, fun e member => ?_⟩
  rcases List.mem_append.1 member with member | member
  · exact quiet e member
  · exact quiet' e member

theorem LeftOpen.not_separated {l l' : List Event} (h : LeftOpen l) (shown : l ++ [holdEvent] <+: l') :
    ¬Separated l' := by
  obtain ⟨pre, mid, rfl, quiet⟩ := h
  obtain ⟨t, rfl⟩ := shown
  intro separated
  obtain ⟨m₁, b, m₂, split⟩ := separated pre mid t (by simp) fun member => quiet _ member _ rfl
  exact quiet autoEvent (by simp [split]) _ rfl

theorem foldl_modeAfter_quiet {l : List Event} (quiet : ∀ e ∈ l, Quiet e) (mode : BitVec 32) :
    l.foldl modeAfter mode = mode := by
  induction l with
  | nil => rfl
  | cons e l ih =>
    rw [List.foldl_cons, modeAfter_quiet (quiet e List.mem_cons_self)]
    exact ih fun e' mem => quiet e' (List.mem_cons_of_mem _ mem)

theorem LeftOpen.csmode {l : List Event} (h : LeftOpen l) : csmode l = spiCsmodeHold := by
  obtain ⟨pre, mid, rfl, quiet⟩ := h
  rw [Boot.csmode, List.foldl_append, List.foldl_cons, foldl_modeAfter_quiet quiet]
  rfl

/-- A round of the ACMD41 loop returns on every stream, with its frame open. -/
theorem round_leftOpen (σ : ℕ → Byte) : ∃ n r l, Takes sdAcmd41Round (received σ n) r l ∧ LeftOpen l := by
  have total : Total sdAcmd41Round :=
    ((total_sdCmd _ _ _).bind fun _ => total_sdCmdEnd).bind fun _ => total_sdCmd _ _ _
  obtain ⟨r, l, n, taken⟩ := total σ
  refine ⟨n, r, l, taken, ?_⟩
  obtain ⟨_, _, _, l₁, _, -, rfl, -, last⟩ := takes_bind.1 taken
  obtain ⟨mid, rfl, quiet⟩ := takes_sdCmd_log last
  exact ⟨l₁, mid, rfl, quiet⟩

theorem takes_dputs (s : String) : ∃ l, Takes (dputs s) [] () l ∧ ∀ e ∈ l, Quiet e := by
  obtain ⟨l, taken⟩ := (reads_dputs (s := s) (u := ())).2 rfl
  exact ⟨l, taken, (quiet_putChars _).takes taken⟩

/-- `sd_acmd41` starts a second frame inside its first, or returns with its frame open. -/
theorem acmd41_leaves_open (σ : ℕ → Byte) :
    (∃ l, LeftOpen l ∧ Shows sdAcmd41 σ (l ++ [holdEvent])) ∨
      ∃ n x l, Takes sdAcmd41 (received σ n) x l ∧ LeftOpen l := by
  obtain ⟨n, r, l, round, opened⟩ := round_leftOpen σ
  obtain ⟨l₀, message, -⟩ := takes_dputs "ACMD41"
  have message : Takes (dputs "ACMD41") (received σ 0) () l₀ := message
  by_cases busy : r = 0x01
  · left
    refine ⟨l₀ ++ l, opened.before l₀, ?_⟩
    have again : Shows (doWhile sdAcmd41Round productive_sdAcmd41Round fun r => r == 0x01) (after σ n)
        [holdEvent] := shows_doWhile ((((shows_sdCmd _ _ _ _).bind _).bind _).bind _)
    have loop : Shows (doWhile sdAcmd41Round productive_sdAcmd41Round fun r => r == 0x01) σ
        (l ++ [holdEvent]) := by
      refine shows_doWhile (round.shows ?_)
      rw [if_pos (by simp [busy])]
      exact again
    rw [List.append_assoc]
    refine message.shows ?_
    rw [after_zero]
    exact loop.bind _
  · right
    have loop : Takes (doWhile sdAcmd41Round productive_sdAcmd41Round fun r => r == 0x01) (received σ n) r l :=
      (takes_doWhile _).2 (Rounds.last round (by simpa using busy))
    refine ⟨n, cInt (r != 0x00), l₀ ++ l, ?_, opened.before l₀⟩
    refine takes_bind.2 ⟨[], received σ n, (), l₀, l, rfl, rfl, message, ?_⟩
    exact takes_bind.2 ⟨received σ n, [], r, l, [], by simp, by simp, loop, takes_pure.2 ⟨rfl, rfl, rfl⟩⟩

/-- So the condition shows two frames without an end, or fails with a frame open. -/
theorem condition_leaves_open (fClk : ℕ) {σ : ℕ → Byte} {n : ℕ} (passed : Passed8 (received σ n)) :
    (∃ l, LeftOpen l ∧ Shows (bootCondition fClk) σ (l ++ [holdEvent])) ∨
      ∃ k l, Takes (bootCondition fClk) (received σ k) 1 l ∧ LeftOpen l := by
  obtain ⟨l₈, cmd8⟩ := reads_passed8.2 passed
  rcases acmd41_leaves_open (after σ n) with ⟨l, opened, shown⟩ | ⟨k, x, l, acmd41, opened⟩
  · left
    refine ⟨l₈ ++ l, opened.before l₈, ?_⟩
    rw [List.append_assoc]
    have stage : Shows (cOr (cOr sdCmd0 sdCmd8) sdAcmd41) σ (l₈ ++ (l ++ [holdEvent])) := cmd8.shows (shown.bind _)
    exact ((stage.bind _).bind _).bind _
  · have stage := takes_cOr_passes cmd8 acmd41
    rw [← received_add] at stage
    have opened := opened.before l₈
    by_cases zero : x = 0
    · -- CMD58 follows at once
      left
      subst zero
      obtain ⟨l', message, quiet⟩ := takes_dputs "CMD58"
      have message : Takes (dputs "CMD58") (received (after σ (n + k)) 0) () l' := message
      have cmd58 : Shows sdCmd58 (after σ (n + k)) (l' ++ [holdEvent]) := message.shows ((shows_sdCmd _ _ _ _).bind _)
      refine ⟨l₈ ++ l ++ l', opened.quiet quiet, ?_⟩
      rw [List.append_assoc (l₈ ++ l)]
      have next : Shows (cOr (cOr (cOr sdCmd0 sdCmd8) sdAcmd41) sdCmd58) σ (l₈ ++ l ++ (l' ++ [holdEvent])) :=
        stage.shows (cmd58.bind _)
      exact (next.bind _).bind _
    · right
      have ne : cInt (x != 0) ≠ 0 := cInt_ne_zero.2 (bne_iff_ne.2 zero)
      have one : (1 : BitVec 32) ≠ 0 := by decide
      exact ⟨n + k, _, takes_cOr_fails (takes_cOr_fails (takes_cOr_fails stage ne _) one _) one _, opened⟩

/-- A card that passes CMD8 sees the discipline broken. -/
theorem not_disciplined {fClk n : ℕ} {σ : ℕ → Byte} (passed : Passed8 (received (after σ powerOnBytes) n)) :
    ¬Disciplined fClk σ := by
  intro disciplined
  obtain ⟨l₀, start⟩ : Reads (mainStart fClk) (received σ powerOnBytes) () := reads_mainStart.2 (by simp)
  rcases condition_leaves_open fClk passed with ⟨l, opened, shown⟩ | ⟨k, l, failed, opened⟩
  · obtain ⟨k, before⟩ : Shows (main fClk) σ (l₀ ++ (l ++ [holdEvent])) := start.shows (shown.bind _)
    rw [← List.append_assoc] at before
    exact (opened.before l₀).not_separated before (disciplined.separated k)
  · obtain ⟨l', message, quiet⟩ := takes_dputs "ERROR"
    have ends : Takes (main fClk) (received σ (powerOnBytes + k)) 1 (l₀ ++ (l ++ l')) := by
      rw [received_add]
      refine takes_bind.2 ⟨_, _, (), l₀, _, rfl, rfl, start, ?_⟩
      refine takes_bind.2 ⟨_, [], 1, l, l', by simp, rfl, failed, ?_⟩
      exact takes_bind.2 ⟨[], [], (), l', [], rfl, by simp, message, takes_pure.2 ⟨rfl, rfl, rfl⟩⟩
    have auto := disciplined.returned 1 _ ⟨_, ends⟩
    rw [((opened.quiet quiet).before l₀).csmode] at auto
    cases auto

/-- **The chip-select discipline** holds exactly on the streams that fail CMD0
or CMD8, where ACMD41 is never sent. -/
theorem disciplined_iff (fClk : ℕ) (σ : ℕ → Byte) :
    Disciplined fClk σ ↔ ¬∃ n, Passed8 (received (after σ powerOnBytes) n) := by
  constructor
  · rintro disciplined ⟨n, passed⟩
    exact not_disciplined passed disciplined
  · intro fails
    exact disciplined_of_fails fun n passed => fails ⟨n, passed⟩

/-- A healthy card: CMD58 is sent with the frame of ACMD41 still open. -/
theorem blank_card_not_disciplined : ¬Disciplined 50000000 blankCard := by
  obtain ⟨n, passed⟩ := passed8_blankCard
  exact not_disciplined passed

end Zcu102.Boot
