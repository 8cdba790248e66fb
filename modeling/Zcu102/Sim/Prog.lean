import Mathlib.Data.List.Basic

/-!
# Programs that read a stream and log their effects

A program is run on the symbols received so far. It logs its effects in order
and either returns, with the symbols it has not read, or blocks for want of
input. Every program carries the proof that it is `Causal`: a run that returned
does not depend on the input it did not read, and a blocked run only ever
extends its log when more input arrives. Loops are bounded by the input, so the
programs are total functions, and a run on an infinite stream is the family of
its runs on the finite prefixes (`received`).

`Takes m w a l` says that `m` reads exactly the word `w`, returns `a` and logs
`l`; the rules `takes_*` compute it over the constructors.
-/

namespace Zcu102.Sim
set_option autoImplicit false

/-- What a run did: its log, and its result with the unread input unless it is
blocked. -/
@[ext] structure Run (β ε α : Type) where
  log : List ε
  out : Option (α × List β)

/-- The run does not look ahead of what it read. -/
structure Causal {β ε α : Type} (run : List β → Run β ε α) : Prop where
  done : ∀ {bs a rest}, (run bs).out = some (a, rest) →
    ∃ w, bs = w ++ rest ∧ ∀ tail, run (w ++ tail) = ⟨(run bs).log, some (a, tail)⟩
  blocked : ∀ {bs}, (run bs).out = none → ∀ tail, (run bs).log <+: (run (bs ++ tail)).log

/-- A causal program over input `β`, effects `ε` and result `α`. -/
structure Prog (β ε α : Type) where
  run : List β → Run β ε α
  causal : Causal run

namespace Prog

variable {β ε α γ : Type}

/-- Sequencing of two runs: the second starts on what the first left. -/
def andThen (r : Run β ε α) (f : α → List β → Run β ε γ) : Run β ε γ :=
  match r.out with
  | none => ⟨r.log, none⟩
  | some (a, rest) => ⟨r.log ++ (f a rest).log, (f a rest).out⟩

theorem causal_pure (a : α) : Causal (fun bs : List β => (⟨[], some (a, bs)⟩ : Run β ε α)) where
  done := by
    rintro bs a' rest h
    obtain ⟨rfl, rfl⟩ : a = a' ∧ bs = rest := by simpa using h
    exact ⟨[], rfl, fun tail => rfl⟩
  blocked := by intro bs h; cases h

theorem causal_emit (e : ε) : Causal (fun bs : List β => (⟨[e], some ((), bs)⟩ : Run β ε Unit)) where
  done := by
    rintro bs a' rest h
    obtain rfl : bs = rest := by simpa using h
    exact ⟨[], rfl, fun tail => rfl⟩
  blocked := by intro bs h; cases h

/-- Read one symbol, logging `f` of it. -/
def readRun (f : β → ε) : List β → Run β ε β
  | [] => ⟨[], none⟩
  | b :: bs => ⟨[f b], some (b, bs)⟩

theorem causal_read (f : β → ε) : Causal (readRun f) where
  done := by
    rintro (_ | ⟨b, bs⟩) a rest h
    · cases h
    · obtain ⟨rfl, rfl⟩ : b = a ∧ bs = rest := by simpa [readRun] using h
      exact ⟨[b], rfl, fun tail => rfl⟩
  blocked := by
    rintro (_ | ⟨b, bs⟩) h tail
    · exact List.nil_prefix
    · cases h

theorem causal_andThen (m : Prog β ε α) (f : α → Prog β ε γ) :
    Causal (fun bs => andThen (m.run bs) (fun a => (f a).run)) where
  done := by
    intro bs c rest h
    cases hm : (m.run bs).out with
    | none => simp [andThen, hm] at h
    | some p =>
      obtain ⟨a, mid⟩ := p
      simp only [andThen, hm] at h
      obtain ⟨w, rfl, first⟩ := m.causal.done hm
      obtain ⟨v, rfl, second⟩ := (f a).causal.done h
      generalize (m.run (w ++ (v ++ rest))).log = l at first
      generalize ((f a).run (v ++ rest)).log = l' at second
      refine ⟨w ++ v, by simp, fun tail => ?_⟩
      simp only [andThen, List.append_assoc, first, second]
  blocked := by
    intro bs h tail
    cases hm : (m.run bs).out with
    | none =>
      have grow := m.causal.blocked hm tail
      simp only [andThen, hm]
      cases hx : (m.run (bs ++ tail)).out with
      | none => exact grow
      | some p => exact grow.trans (List.prefix_append _ _)
    | some p =>
      obtain ⟨a, mid⟩ := p
      simp only [andThen, hm] at h
      obtain ⟨w, rfl, first⟩ := m.causal.done hm
      have grow := (f a).causal.blocked h tail
      generalize (m.run (w ++ mid)).log = l at first
      simp only [andThen, List.append_assoc, first]
      exact (List.prefix_append_right_inj _).2 grow

instance : Monad (Prog β ε) where
  pure a := ⟨fun bs => ⟨[], some (a, bs)⟩, causal_pure a⟩
  bind m f := ⟨fun bs => andThen (m.run bs) (fun a => (f a).run), causal_andThen m f⟩

/-- Log one effect. -/
def emit (e : ε) : Prog β ε Unit := ⟨fun bs => ⟨[e], some ((), bs)⟩, causal_emit e⟩

/-- Read one symbol, logging `f` of it; blocks on the empty input. -/
def read (f : β → ε) : Prog β ε β := ⟨readRun f, causal_read f⟩

@[simp] theorem run_pure (a : α) (bs : List β) :
    (pure a : Prog β ε α).run bs = ⟨[], some (a, bs)⟩ := rfl

@[simp] theorem run_emit (e : ε) (bs : List β) :
    (emit e : Prog β ε Unit).run bs = ⟨[e], some ((), bs)⟩ := rfl

@[simp] theorem run_read_nil (f : β → ε) : (read f).run [] = ⟨[], none⟩ := rfl

@[simp] theorem run_read_cons (f : β → ε) (b : β) (bs : List β) :
    (read f).run (b :: bs) = ⟨[f b], some (b, bs)⟩ := rfl

theorem run_bind (m : Prog β ε α) (f : α → Prog β ε γ) (bs : List β) :
    (m >>= f).run bs = andThen (m.run bs) (fun a => (f a).run) := rfl

theorem run_bind_none {m : Prog β ε α} {bs : List β} (h : (m.run bs).out = none)
    (f : α → Prog β ε γ) : (m >>= f).run bs = ⟨(m.run bs).log, none⟩ := by
  rw [run_bind, andThen, h]

theorem run_bind_some {m : Prog β ε α} {bs rest : List β} {a : α}
    (h : (m.run bs).out = some (a, rest)) (f : α → Prog β ε γ) :
    (m >>= f).run bs = ⟨(m.run bs).log ++ ((f a).run rest).log, ((f a).run rest).out⟩ := by
  rw [run_bind, andThen, h]

/-! ## Words taken -/

/-- `m` reads exactly `w`, returns `a` and logs `l`. -/
def Takes (m : Prog β ε α) (w : List β) (a : α) (l : List ε) : Prop :=
  m.run w = ⟨l, some (a, [])⟩

/-- A program that took a word does the same before any further input. -/
theorem Takes.run {m : Prog β ε α} {w : List β} {a : α} {l : List ε} (h : Takes m w a l)
    (tail : List β) : m.run (w ++ tail) = ⟨l, some (a, tail)⟩ := by
  obtain ⟨v, split, same⟩ := m.causal.done (show (m.run w).out = some (a, []) by rw [h])
  rw [List.append_nil] at split
  subst split
  rw [same tail, h]

/-- A run that returned took a prefix of its input. -/
theorem takes_of_run {m : Prog β ε α} {bs rest : List β} {a : α} {l : List ε}
    (h : m.run bs = ⟨l, some (a, rest)⟩) : ∃ w, bs = w ++ rest ∧ Takes m w a l := by
  obtain ⟨w, split, same⟩ := m.causal.done (show (m.run bs).out = some (a, rest) by rw [h])
  refine ⟨w, split, ?_⟩
  have := same []
  rwa [List.append_nil, h] at this

/-- At most one prefix of an input is taken, with one result and one log. -/
theorem Takes.unique {m : Prog β ε α} {w w' x x' : List β} {a a' : α} {l l' : List ε}
    (h : Takes m w a l) (h' : Takes m w' a' l') (same : w ++ x = w' ++ x') :
    w = w' ∧ a = a' ∧ l = l' := by
  have run := h.run x
  rw [same, h'.run x'] at run
  simp only [Run.mk.injEq, Option.some.injEq, Prod.mk.injEq] at run
  obtain ⟨rfl, rfl, rfl⟩ := run
  exact ⟨List.append_cancel_right same, rfl, rfl⟩

@[simp] theorem takes_pure {a b : α} {w : List β} {l : List ε} :
    Takes (pure a) w b l ↔ w = [] ∧ b = a ∧ l = [] := by
  simp only [Takes, run_pure, Run.mk.injEq, Option.some.injEq, Prod.mk.injEq]
  constructor
  · rintro ⟨rfl, rfl, rfl⟩; exact ⟨rfl, rfl, rfl⟩
  · rintro ⟨rfl, rfl, rfl⟩; exact ⟨rfl, rfl, rfl⟩

@[simp] theorem takes_emit {e : ε} {u : Unit} {w : List β} {l : List ε} :
    Takes (emit e) w u l ↔ w = [] ∧ l = [e] := by
  simp only [Takes, run_emit, Run.mk.injEq, Option.some.injEq, Prod.mk.injEq, true_and]
  constructor
  · rintro ⟨rfl, rfl⟩; exact ⟨rfl, rfl⟩
  · rintro ⟨rfl, rfl⟩; exact ⟨rfl, rfl⟩

@[simp] theorem takes_read {f : β → ε} {b : β} {w : List β} {l : List ε} :
    Takes (read f) w b l ↔ w = [b] ∧ l = [f b] := by
  cases w with
  | nil => simp [Takes]
  | cons c w =>
    simp only [Takes, run_read_cons, Run.mk.injEq, Option.some.injEq, Prod.mk.injEq, List.cons.injEq]
    constructor
    · rintro ⟨rfl, rfl, rfl⟩; exact ⟨⟨rfl, rfl⟩, rfl⟩
    · rintro ⟨⟨rfl, rfl⟩, rfl⟩; exact ⟨rfl, rfl, rfl⟩

theorem takes_bind {m : Prog β ε α} {f : α → Prog β ε γ} {w : List β} {c : γ} {l : List ε} :
    Takes (m >>= f) w c l ↔ ∃ w₁ w₂ a l₁ l₂, w = w₁ ++ w₂ ∧ l = l₁ ++ l₂ ∧
      Takes m w₁ a l₁ ∧ Takes (f a) w₂ c l₂ := by
  constructor
  · intro h
    unfold Takes at h
    rw [run_bind] at h
    cases hm : (m.run w).out with
    | none => simp [andThen, hm] at h
    | some p =>
      obtain ⟨a, mid⟩ := p
      simp only [andThen, hm, Run.mk.injEq] at h
      have full : m.run w = ⟨(m.run w).log, some (a, mid)⟩ := Run.ext rfl hm
      obtain ⟨w₁, rfl, first⟩ := takes_of_run full
      exact ⟨w₁, mid, a, _, _, rfl, h.1.symm, first, Run.ext rfl h.2⟩
  · rintro ⟨w₁, w₂, a, l₁, l₂, rfl, rfl, first, second⟩
    unfold Takes at second ⊢
    rw [run_bind, first.run w₂]
    simp only [andThen, second]

/-- The result of a word, whatever it logs. -/
def Reads (m : Prog β ε α) (w : List β) (a : α) : Prop := ∃ l, Takes m w a l

@[simp] theorem reads_pure {a b : α} {w : List β} :
    Reads (pure a : Prog β ε α) w b ↔ w = [] ∧ b = a := by
  simp only [Reads, takes_pure]
  constructor
  · rintro ⟨l, h⟩; exact ⟨h.1, h.2.1⟩
  · rintro ⟨hw, hb⟩; exact ⟨[], hw, hb, rfl⟩

@[simp] theorem reads_emit {e : ε} {u : Unit} {w : List β} : Reads (emit e) w u ↔ w = [] := by
  simp [Reads]

@[simp] theorem reads_read {f : β → ε} {b : β} {w : List β} : Reads (read f) w b ↔ w = [b] := by
  simp [Reads]

theorem reads_bind {m : Prog β ε α} {f : α → Prog β ε γ} {w : List β} {c : γ} :
    Reads (m >>= f) w c ↔ ∃ w₁ w₂ a, w = w₁ ++ w₂ ∧ Reads m w₁ a ∧ Reads (f a) w₂ c := by
  constructor
  · rintro ⟨l, h⟩
    obtain ⟨w₁, w₂, a, l₁, l₂, hw, -, first, second⟩ := takes_bind.1 h
    exact ⟨w₁, w₂, a, hw, ⟨l₁, first⟩, ⟨l₂, second⟩⟩
  · rintro ⟨w₁, w₂, a, hw, ⟨l₁, first⟩, ⟨l₂, second⟩⟩
    exact ⟨l₁ ++ l₂, takes_bind.2 ⟨w₁, w₂, a, l₁, l₂, hw, rfl, first, second⟩⟩

/-! ## Loops -/

theorem causal_block : Causal (fun _ : List β => (⟨[], none⟩ : Run β ε α)) where
  done := by intro bs a rest h; cases h
  blocked := by intro bs _ tail; exact List.nil_prefix

/-- Wait for input for ever. -/
def block : Prog β ε α := ⟨fun _ => ⟨[], none⟩, causal_block⟩

/-- `n` unrollings of `do body while again`. -/
def unroll (body : Prog β ε α) (again : α → Bool) : ℕ → Prog β ε α
  | 0 => block
  | n + 1 => body >>= fun a => if again a then unroll body again n else pure a

/-- The program reads at least one symbol before it returns. -/
def Productive (m : Prog β ε α) : Prop := ∀ w a l, Takes m w a l → w ≠ []

theorem Productive.shorter {m : Prog β ε α} (h : Productive m) {bs rest : List β} {a : α}
    (run : (m.run bs).out = some (a, rest)) : rest.length < bs.length := by
  have full : m.run bs = ⟨(m.run bs).log, some (a, rest)⟩ := Run.ext rfl run
  obtain ⟨w, rfl, taken⟩ := takes_of_run full
  have := List.length_pos_of_ne_nil (h _ _ _ taken)
  simp only [List.length_append]
  omega

theorem productive_read (f : β → ε) : Productive (read f) := by
  intro w a l taken
  rw [(takes_read.1 taken).1]
  exact List.cons_ne_nil _ _

theorem Productive.bind_left {m : Prog β ε α} (h : Productive m) (f : α → Prog β ε γ) :
    Productive (m >>= f) := by
  intro w c l taken
  obtain ⟨w₁, w₂, a, l₁, l₂, rfl, -, first, -⟩ := takes_bind.1 taken
  exact fun empty => h _ _ _ first (List.append_eq_nil_iff.1 empty).1

theorem Productive.bind_right (m : Prog β ε α) {f : α → Prog β ε γ} (h : ∀ a, Productive (f a)) :
    Productive (m >>= f) := by
  intro w c l taken
  obtain ⟨w₁, w₂, a, l₁, l₂, rfl, -, -, second⟩ := takes_bind.1 taken
  exact fun empty => h a _ _ _ second (List.append_eq_nil_iff.1 empty).2

/-- More unrollings than symbols make no difference. -/
theorem unroll_enough {body : Prog β ε α} (again : α → Bool) (h : Productive body) :
    ∀ (n m : ℕ) (bs : List β), bs.length < n → bs.length < m →
      (unroll body again n).run bs = (unroll body again m).run bs := by
  intro n
  induction n with
  | zero => intro m bs hn; omega
  | succ n ih =>
    intro m bs hn hm
    obtain ⟨m, rfl⟩ : ∃ k, m = k + 1 := ⟨m - 1, by omega⟩
    simp only [unroll]
    cases out : (body.run bs).out with
    | none => rw [run_bind_none out, run_bind_none out]
    | some p =>
      obtain ⟨a, rest⟩ := p
      have less := h.shorter out
      rw [run_bind_some out, run_bind_some out]
      cases go : again a with
      | false => rfl
      | true => simp only [if_true, ih m rest (by omega) (by omega)]

/-- A further unrolling only changes a blocked run, and only extends its log. -/
theorem unroll_grow (body : Prog β ε α) (again : α → Bool) :
    ∀ (n k : ℕ) (bs : List β), (unroll body again (n + k)).run bs = (unroll body again n).run bs ∨
      ((unroll body again n).run bs).out = none ∧
        ((unroll body again n).run bs).log <+: ((unroll body again (n + k)).run bs).log := by
  intro n
  induction n with
  | zero => intro k bs; exact Or.inr ⟨rfl, List.nil_prefix⟩
  | succ n ih =>
    intro k bs
    rw [Nat.succ_add]
    simp only [unroll]
    cases out : (body.run bs).out with
    | none => exact Or.inl (by rw [run_bind_none out, run_bind_none out])
    | some p =>
      obtain ⟨a, rest⟩ := p
      rw [run_bind_some out, run_bind_some out]
      cases go : again a with
      | false => exact Or.inl rfl
      | true =>
        simp only [if_true]
        rcases ih k rest with same | ⟨stuck, grow⟩
        · exact Or.inl (by rw [same])
        · exact Or.inr ⟨stuck, (List.prefix_append_right_inj _).2 grow⟩

theorem causal_doWhile {body : Prog β ε α} (again : α → Bool) (h : Productive body) :
    Causal (fun bs => (unroll body again (bs.length + 1)).run bs) where
  done := by
    intro bs a rest out
    obtain ⟨w, split, same⟩ := (unroll body again (bs.length + 1)).causal.done out
    refine ⟨w, split, fun tail => ?_⟩
    rw [← same tail]
    rcases Nat.le_total (w ++ tail).length bs.length with le | le
    · exact unroll_enough again h _ _ _ (by omega) (by omega)
    · rcases unroll_grow body again (bs.length + 1) ((w ++ tail).length - bs.length) (w ++ tail)
        with eq | ⟨stuck, -⟩
      · rw [← eq]
        congr 2
        omega
      · rw [same tail] at stuck
        cases stuck
  blocked := by
    intro bs out tail
    have first := (unroll body again (bs.length + 1)).causal.blocked out tail
    have more : (bs ++ tail).length + 1 = bs.length + 1 + tail.length := by
      simp only [List.length_append]; omega
    rw [more]
    rcases unroll_grow body again (bs.length + 1) tail.length (bs ++ tail) with eq | ⟨-, grow⟩
    · rw [eq]; exact first
    · exact first.trans grow

/-- `do body while again`. Each round reads input, so the input bounds the rounds. -/
def doWhile (body : Prog β ε α) (h : Productive body) (again : α → Bool) : Prog β ε α :=
  ⟨fun bs => (unroll body again (bs.length + 1)).run bs, causal_doWhile again h⟩

/-- One round of a loop, then the loop again. -/
theorem run_doWhile (body : Prog β ε α) (h : Productive body) (again : α → Bool) (bs : List β) :
    (doWhile body h again).run bs =
      (body >>= fun a => if again a then doWhile body h again else pure a).run bs := by
  change (unroll body again (bs.length + 1)).run bs = _
  simp only [unroll]
  cases out : (body.run bs).out with
  | none => rw [run_bind_none out, run_bind_none out]
  | some p =>
    obtain ⟨a, rest⟩ := p
    have less := h.shorter out
    have same : (unroll body again bs.length).run rest = (doWhile body h again).run rest :=
      unroll_enough again h bs.length (rest.length + 1) rest less (by omega)
    rw [run_bind_some out, run_bind_some out]
    cases go : again a with
    | false => rfl
    | true => simp only [if_true, same]

/-- The words of a loop: rounds that go on, then one that does not. -/
inductive Rounds (body : Prog β ε α) (again : α → Bool) : List β → α → List ε → Prop
  | last {w a l} : Takes body w a l → again a = false → Rounds body again w a l
  | more {w a l w' a' l'} : Takes body w a l → again a = true → Rounds body again w' a' l' →
      Rounds body again (w ++ w') a' (l ++ l')

theorem Rounds.takes {body : Prog β ε α} {again : α → Bool} {w : List β} {a : α} {l : List ε}
    (h : Productive body) (rounds : Rounds body again w a l) : Takes (doWhile body h again) w a l := by
  induction rounds with
  | @last w a l taken stop =>
    unfold Takes
    rw [run_doWhile]
    exact takes_bind.2 ⟨w, [], a, l, [], by simp, by simp, taken, by simp [stop]⟩
  | @more w a l w' a' l' taken go _ ih =>
    unfold Takes
    rw [run_doWhile]
    exact takes_bind.2 ⟨w, w', a, l, l', rfl, rfl, taken, by simpa [go] using ih⟩

theorem takes_doWhile {body : Prog β ε α} (h : Productive body) {again : α → Bool} {w : List β}
    {a : α} {l : List ε} : Takes (doWhile body h again) w a l ↔ Rounds body again w a l := by
  refine ⟨?_, Rounds.takes h⟩
  generalize len : w.length = n
  induction n using Nat.strongRecOn generalizing w l with
  | ind n ih =>
    intro taken
    unfold Takes at taken
    rw [run_doWhile] at taken
    obtain ⟨w₁, w₂, b, l₁, l₂, rfl, rfl, first, second⟩ := takes_bind.1 taken
    have pos := List.length_pos_of_ne_nil (h _ _ _ first)
    cases go : again b with
    | false =>
      simp only [go, Bool.false_eq_true, if_false, takes_pure] at second
      obtain ⟨rfl, rfl, rfl⟩ := second
      simpa using Rounds.last first go
    | true =>
      simp only [go, if_true] at second
      refine Rounds.more first go (ih w₂.length ?_ rfl second)
      simp only [List.length_append] at len
      omega

end Prog

end Zcu102.Sim
