import Mathlib.Data.List.Induction
import Mathlib.Data.Nat.Notation
import Mathlib.Logic.Relation

/-!
# Runs of a step function

A machine is a step function over events; a run folds it over a list of them.
Two rules carry every result about whole runs: an invariant kept by each step
holds along the run, and a relation to an abstract machine that each step keeps,
the abstract one moving or standing still, relates the whole run.
-/

namespace Zcu102.Sim
set_option autoImplicit false

variable {S E A : Type}

/-- The state after a list of events. -/
def runs (step : S → E → S) (s : S) (es : List E) : S := es.foldl step s

@[simp] theorem runs_nil (step : S → E → S) (s : S) : runs step s [] = s := rfl

@[simp] theorem runs_cons (step : S → E → S) (s : S) (e : E) (es : List E) :
    runs step s (e :: es) = runs step (step s e) es := rfl

theorem runs_append (step : S → E → S) (s : S) (es es' : List E) :
    runs step s (es ++ es') = runs step (runs step s es) es' := List.foldl_append

/-- **Invariant rule.** -/
theorem runs_invariant {step : S → E → S} (inv : S → Prop) {s : S} (start : inv s)
    (kept : ∀ s e, inv s → inv (step s e)) (es : List E) : inv (runs step s es) := by
  induction es generalizing s with
  | nil => exact start
  | cons e es ih => exact ih (kept s e start)

/-- **Counting rule**: an invariant indexed by how often one event has happened. -/
theorem runs_counted [DecidableEq E] {step : S → E → S} (tick : E) (allowed : E → Prop) (inv : ℕ → S → Prop)
    (ticked : ∀ c s, inv c s → inv (c + 1) (step s tick))
    (kept : ∀ c s e, allowed e → e ≠ tick → inv c s → inv c (step s e))
    {es : List E} (fair : ∀ e ∈ es, allowed e) {c : ℕ} {s : S} (start : inv c s) :
    inv (c + es.count tick) (runs step s es) := by
  induction es generalizing c s with
  | nil => exact start
  | cons e es ih =>
    have rest : ∀ e ∈ es, allowed e := fun x mem => fair x (List.mem_cons_of_mem e mem)
    by_cases here : e = tick
    · subst here
      have next := ih rest (ticked c s start)
      rwa [Nat.add_assoc, Nat.add_comm 1, ← List.count_cons_self] at next
    · rw [List.count_cons_of_ne here]
      exact ih rest (kept c s e (fair e List.mem_cons_self) here start)

/-- A part of the state that moves by itself, whatever the rest does. -/
theorem runs_part {step : S → E → S} {move : A → E → A} {part : S → A}
    (follows : ∀ s e, part (step s e) = move (part s) e) (s : S) (es : List E) :
    part (runs step s es) = runs move (part s) es := by
  induction es generalizing s with
  | nil => rfl
  | cons e es ih => rw [runs_cons, runs_cons, ih, follows]

/-- **Simulation rule**, with stuttering. -/
theorem runs_simulates {step : S → E → S} {next : A → A → Prop} {rel : S → A → Prop} {s : S} {a : A}
    (start : rel s a) (simulates : ∀ s a e, rel s a → ∃ a', Relation.ReflGen next a a' ∧ rel (step s e) a')
    (es : List E) : ∃ a', Relation.ReflTransGen next a a' ∧ rel (runs step s es) a' := by
  induction es generalizing s a with
  | nil => exact ⟨a, Relation.ReflTransGen.refl, start⟩
  | cons e es ih =>
    obtain ⟨a₁, first, related⟩ := simulates s a e start
    obtain ⟨a₂, rest, related⟩ := ih related
    exact ⟨a₂, first.to_reflTransGen.trans rest, related⟩

/-! ## Along a run -/

/-- A property of every step of a run. -/
def Throughout (step : S → E → S) (P : S → E → Prop) (s : S) : List E → Prop
  | [] => True
  | e :: es => P s e ∧ Throughout step P (step s e) es

instance Throughout.decidable (step : S → E → S) (P : S → E → Prop) [∀ s e, Decidable (P s e)] :
    (s : S) → (es : List E) → Decidable (Throughout step P s es)
  | _, [] => .isTrue trivial
  | s, e :: es => @instDecidableAnd _ _ _ (decidable step P (step s e) es)

theorem Throughout.mono {step : S → E → S} {P Q : S → E → Prop} (weaker : ∀ s e, P s e → Q s e) {s : S} {es : List E}
    (all : Throughout step P s es) : Throughout step Q s es := by
  induction es generalizing s with
  | nil => trivial
  | cons e es ih => exact ⟨weaker s e all.1, ih all.2⟩

theorem Throughout.of_mem {step : S → E → S} {P : S → E → Prop} (allowed : E → Prop) (all : ∀ s e, allowed e → P s e)
    (s : S) {es : List E} (fair : ∀ e ∈ es, allowed e) : Throughout step P s es := by
  induction es generalizing s with
  | nil => trivial
  | cons e es ih =>
    exact ⟨all s e (fair e List.mem_cons_self), ih (step s e) fun x mem => fair x (List.mem_cons_of_mem e mem)⟩

theorem Throughout.of_forall {step : S → E → S} {P : S → E → Prop} (all : ∀ s e, P s e) (s : S) (es : List E) :
    Throughout step P s es := by
  induction es generalizing s with
  | nil => trivial
  | cons e es ih => exact ⟨all s e, ih (step s e)⟩

/-- The steps of the first part of a run are steps of the run. -/
theorem Throughout.part {step : S → E → S} {P : S → E → Prop} {s : S} {es now : List E} (part : now <+: es)
    (all : Throughout step P s es) : Throughout step P s now := by
  induction now generalizing s es with
  | nil => trivial
  | cons e now ih =>
    obtain ⟨rest, split⟩ := part
    subst split
    exact ⟨all.1, ih (List.prefix_append now rest) all.2⟩

/-- **Invariant rule**, along a run of events that are allowed. -/
theorem Throughout.of_invariant {step : S → E → S} {P : S → E → Prop} (inv : S → Prop) (allowed : E → Prop)
    (kept : ∀ s e, allowed e → inv s → inv (step s e)) (holds : ∀ s e, inv s → P s e) {s : S} (start : inv s)
    {es : List E} (fair : ∀ e ∈ es, allowed e) : Throughout step P s es := by
  induction es generalizing s with
  | nil => trivial
  | cons e es ih =>
    exact ⟨holds s e start, ih (kept s e (fair e List.mem_cons_self) start) fun x mem => fair x (List.mem_cons_of_mem e mem)⟩

/-- **Ranking rule**: a rank that falls with every step until the goal is reached bounds the steps it takes. -/
theorem runs_reaches {step : S → E → S} (inv goal : S → Prop) (allowed : E → Prop) (rank : S → ℕ)
    (kept : ∀ s e, allowed e → inv s → ¬ goal s → inv (step s e))
    (falls : ∀ s e, allowed e → inv s → ¬ goal s → rank (step s e) < rank s) {s : S} (start : inv s) {es : List E}
    (fair : ∀ e ∈ es, allowed e) (long : rank s < es.length) :
    ∃ now later, es = now ++ later ∧ now.length ≤ rank s ∧ inv (runs step s now) ∧ goal (runs step s now) := by
  induction es generalizing s with
  | nil => cases long
  | cons e es ih =>
    by_cases here : goal s
    · exact ⟨[], e :: es, rfl, Nat.zero_le _, start, here⟩
    · have allowed_e := fair e List.mem_cons_self
      have less := falls s e allowed_e start here
      rw [List.length_cons] at long
      obtain ⟨now, later, rfl, short, reached⟩ :=
        ih (kept s e allowed_e start here) (fun x mem => fair x (List.mem_cons_of_mem e mem)) (by omega)
      refine ⟨e :: now, later, rfl, ?_, reached⟩
      rw [List.length_cons]
      omega

/-- What the steps of a run put out, in order. -/
def outputs (step : S → E → S) (out : S → E → List A) (s : S) : List E → List A
  | [] => []
  | e :: es => out s e ++ outputs step out (step s e) es

theorem outputs_append (step : S → E → S) (out : S → E → List A) (s : S) (es es' : List E) :
    outputs step out s (es ++ es') = outputs step out s es ++ outputs step out (runs step s es) es' := by
  induction es generalizing s with
  | nil => rfl
  | cons e es ih => rw [List.cons_append, outputs, outputs, ih, runs_cons, List.append_assoc]

theorem outputs_congr {step : S → E → S} {out out' : S → E → List A} {s : S} {es : List E}
    (same : Throughout step (fun s e => out s e = out' s e) s es) : outputs step out s es = outputs step out' s es := by
  induction es generalizing s with
  | nil => rfl
  | cons e es ih => rw [outputs, outputs, same.1, ih same.2]

theorem outputs_map {B : Type} (f : A → B) (step : S → E → S) (out : S → E → List A) (s : S) (es : List E) :
    outputs step (fun s e => (out s e).map f) s es = (outputs step out s es).map f := by
  induction es generalizing s with
  | nil => rfl
  | cons e es ih => rw [outputs, outputs, ih, List.map_append]

theorem outputs_sublist {step : S → E → S} {out out' : S → E → List A} (each : ∀ s e, (out s e).Sublist (out' s e)) (s : S)
    (es : List E) : (outputs step out s es).Sublist (outputs step out' s es) := by
  induction es generalizing s with
  | nil => exact List.Sublist.refl []
  | cons e es ih => exact (each s e).append (ih (step s e))

/-- **Conservation rule**: if each step keeps what is held, plus what goes in, equal to what comes out plus what is
held afterwards, then so does the run. -/
theorem outputs_conserved {step : S → E → S} {goesIn comesOut : S → E → List A} {held : S → List A} {s : S}
    {es : List E} (each : Throughout step (fun s e => held s ++ goesIn s e = comesOut s e ++ held (step s e)) s es) :
    held s ++ outputs step goesIn s es = outputs step comesOut s es ++ held (runs step s es) := by
  induction es generalizing s with
  | nil => rw [outputs, outputs, runs_nil, List.append_nil, List.nil_append]
  | cons e es ih =>
    obtain ⟨here, rest⟩ := each
    rw [outputs, outputs, runs_cons, ← List.append_assoc, here, List.append_assoc, ih rest, List.append_assoc]

/-! ## Since a signal fell -/

def Falls (step : S → E → S) (signal : S → Bool) (s : S) (e : E) : Prop :=
  signal s = true ∧ signal (step s e) = false

/-- In the run `es` from `s` the signal last fell just before `post`, and has been low since. -/
def LowSince (step : S → E → S) (signal : S → Bool) (s : S) (es post : List E) : Prop :=
  ∃ pre e, es = pre ++ e :: post ∧ Falls step signal (runs step s pre) e ∧
    ∀ now, now <+: post → signal (runs step s (pre ++ e :: now)) = false

theorem LowSince.fell {step : S → E → S} {signal : S → Bool} {s : S} {es : List E} {e : E}
    (falls : Falls step signal (runs step s es) e) : LowSince step signal s (es ++ [e]) [] := by
  refine ⟨es, e, rfl, falls, fun now part => ?_⟩
  rw [List.prefix_nil.mp part, runs_append]
  exact falls.2

theorem LowSince.stays {step : S → E → S} {signal : S → Bool} {s : S} {es post : List E} {e : E}
    (since : LowSince step signal s es post) (low : signal (runs step s (es ++ [e])) = false) :
    LowSince step signal s (es ++ [e]) (post ++ [e]) := by
  obtain ⟨pre, f, split, falls, quiet⟩ := since
  have longer : es ++ [e] = pre ++ f :: (post ++ [e]) := by rw [split, List.append_assoc, List.cons_append]
  refine ⟨pre, f, longer, falls, fun now part => ?_⟩
  rcases List.prefix_concat_iff.mp part with whole | earlier
  · rw [whole, ← longer]
    exact low
  · exact quiet now earlier

theorem LowSince.low {step : S → E → S} {signal : S → Bool} {s : S} {es post : List E}
    (since : LowSince step signal s es post) : signal (runs step s es) = false := by
  obtain ⟨pre, e, split, -, quiet⟩ := since
  rw [split]
  exact quiet post (List.prefix_refl post)

theorem LowSince.same {step : S → E → S} {signal : S → Bool} {s : S} {pre pre' c post post' : List E} {e e' : E}
    (falls : Falls step signal (runs step s pre) e)
    (quiet : ∀ now, now <+: post' → signal (runs step s (pre' ++ e' :: now)) = false)
    (later : pre = pre' ++ c) (split : e' :: post' = c ++ e :: post) : post = post' := by
  cases c with
  | nil => exact (List.cons.inj split).2.symm
  | cons x c =>
    obtain ⟨rfl, rfl⟩ := List.cons.inj split
    have low := quiet c (List.prefix_append c (e :: post))
    rw [← later, falls.1] at low
    cases low

/-- There is one last fall. -/
theorem LowSince.unique {step : S → E → S} {signal : S → Bool} {s : S} {es post post' : List E}
    (since : LowSince step signal s es post) (since' : LowSince step signal s es post') : post = post' := by
  obtain ⟨pre, e, split, falls, quiet⟩ := since
  obtain ⟨pre', e', split', falls', quiet'⟩ := since'
  rcases List.append_eq_append_iff.mp (split.symm.trans split') with ⟨c, later, rest⟩ | ⟨c, later, rest⟩
  · exact (LowSince.same falls' quiet later rest).symm
  · exact LowSince.same falls quiet' later rest

/-- A signal of a part that moves by itself. -/
theorem lowSince_part {step : S → E → S} {move : A → E → A} {part : S → A} {signal : A → Bool}
    (follows : ∀ s e, part (step s e) = move (part s) e) {s : S} {es post : List E} :
    LowSince step (fun s => signal (part s)) s es post ↔ LowSince move signal (part s) es post := by
  simp only [LowSince, Falls, follows, runs_part follows]

/-- The machine is idle while the signal is high; otherwise `count` holds of the ticks since it fell. -/
def Tracked [DecidableEq E] (step : S → E → S) (signal : S → Bool) (tick : E) (idle : S → Prop) (count : ℕ → S → Prop)
    (s : S) (es : List E) : Prop :=
  if signal (runs step s es) then idle (runs step s es)
  else ∃ post, LowSince step signal s es post ∧ count (post.count tick) (runs step s es)

/-- **Tracking rule.** -/
theorem runs_tracked [DecidableEq E] {step : S → E → S} {signal : S → Bool} {tick : E} {idle : S → Prop}
    {count : ℕ → S → Prop} {s : S} (high : signal s = true) (start : idle s)
    (raised : ∀ s e, (signal s = true → idle s) → signal (step s e) = true → idle (step s e))
    (fell : ∀ s e, signal s = true → idle s → signal (step s e) = false → count 0 (step s e))
    (counted : ∀ c s e, signal s = false → count c s → signal (step s e) = false →
      count (c + [e].count tick) (step s e)) (es : List E) :
    Tracked step signal tick idle count s es := by
  induction es using List.reverseRecOn with
  | nil =>
    rw [Tracked, runs_nil, if_pos high]
    exact start
  | append_singleton es e ih =>
    have next : runs step s (es ++ [e]) = step (runs step s es) e := runs_append step s es [e]
    unfold Tracked at ih ⊢
    rw [next]
    cases now : signal (step (runs step s es) e) with
    | true => exact raised _ e (fun before => by rwa [before, if_pos rfl] at ih) now
    | false =>
      rw [if_neg Bool.false_ne_true]
      cases before : signal (runs step s es) with
      | true =>
        rw [before, if_pos rfl] at ih
        exact ⟨[], LowSince.fell ⟨before, now⟩, fell _ e before ih now⟩
      | false =>
        rw [before, if_neg Bool.false_ne_true] at ih
        obtain ⟨post, since, counts⟩ := ih
        refine ⟨post ++ [e], since.stays (by rw [next]; exact now), ?_⟩
        rw [List.count_append]
        exact counted _ _ e before counts now

section
variable [DecidableEq E] {step : S → E → S} {signal : S → Bool} {tick : E} {idle : S → Prop} {count : ℕ → S → Prop}
  {s : S} {es : List E}

theorem Tracked.held (tracked : Tracked step signal tick idle count s es) (high : signal (runs step s es) = true) :
    idle (runs step s es) := by
  rwa [Tracked, if_pos high] at tracked

theorem Tracked.since (tracked : Tracked step signal tick idle count s es) (low : signal (runs step s es) = false) :
    ∃ post, LowSince step signal s es post ∧ count (post.count tick) (runs step s es) := by
  rwa [Tracked, low, if_neg Bool.false_ne_true] at tracked

end

/-! ## Reaching a state -/

/-- From every state in `P` some events lead into `Q`. -/
def Leads (step : S → E → S) (P Q : S → Prop) : Prop := ∀ s, P s → ∃ es, Q (runs step s es)

theorem Leads.step {step : S → E → S} {P Q : S → Prop} (e : E) (h : ∀ s, P s → Q (step s e)) : Leads step P Q :=
  fun s start => ⟨[e], h s start⟩

theorem Leads.trans {step : S → E → S} {P Q R : S → Prop} (first : Leads step P Q) (second : Leads step Q R) :
    Leads step P R := by
  intro s start
  obtain ⟨es, middle⟩ := first s start
  obtain ⟨es', last⟩ := second _ middle
  exact ⟨es ++ es', by rwa [runs_append]⟩

/-- Round after round, up to the last. -/
theorem Leads.loop {step : S → E → S} {P : ℕ → S → Prop} {Q : S → Prop} {m : ℕ}
    (round : ∀ k, k + 1 < m → Leads step (P k) (P (k + 1))) (last : ∀ k, k + 1 = m → Leads step (P k) Q)
    {k : ℕ} (less : k < m) : Leads step (P k) Q := by
  obtain ⟨d, split⟩ : ∃ d, k + 1 + d = m := ⟨m - (k + 1), by omega⟩
  induction d generalizing k with
  | zero => exact last k split
  | succ d ih => exact (round k (by omega)).trans (ih (by omega) (by omega))

end Zcu102.Sim
