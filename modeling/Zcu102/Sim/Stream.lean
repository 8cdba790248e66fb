import Zcu102.Sim.Prog

/-!
# Runs on an infinite stream

`Returns m σ a l`: reading the infinite stream `σ`, `m` returns `a` with log
`l`. A run that never returns is the family of its blocked runs on
`received σ n`. `Emits` and `Follows` say what the effects of all of them
satisfy, one by one and under a monitor; `Shows` says that an effect is seen.
-/

namespace Zcu102.Sim
set_option autoImplicit false

variable {β ε α γ S : Type}

/-- The first `n` symbols of a stream. -/
def received (σ : ℕ → β) (n : ℕ) : List β := (List.range n).map σ

/-- The stream after its first `n` symbols. -/
def after (σ : ℕ → β) (n : ℕ) : ℕ → β := fun k => σ (n + k)

@[simp] theorem received_zero (σ : ℕ → β) : received σ 0 = [] := rfl

@[simp] theorem after_zero (σ : ℕ → β) : after σ 0 = σ := by
  funext k
  simp [after]

@[simp] theorem received_length (σ : ℕ → β) (n : ℕ) : (received σ n).length = n := by
  simp [received]

@[simp] theorem received_getElem (σ : ℕ → β) (n i : ℕ) (h : i < (received σ n).length) :
    (received σ n)[i] = σ i := by
  simp [received]

theorem received_add (σ : ℕ → β) (n k : ℕ) :
    received σ (n + k) = received σ n ++ received (after σ n) k := by
  simp [received, after, List.range_add, Function.comp_def]

/-- Two prefixes of a stream go on to a common one. -/
theorem received_common (σ : ℕ → β) (n k : ℕ) :
    received σ n ++ received (after σ n) k = received σ k ++ received (after σ k) n := by
  rw [← received_add, ← received_add, Nat.add_comm]

/-- A split of a prefix splits the stream. -/
theorem received_split {σ : ℕ → β} {n : ℕ} {w₁ w₂ : List β} (h : received σ n = w₁ ++ w₂) :
    w₁ = received σ w₁.length ∧ w₂ = received (after σ w₁.length) w₂.length := by
  have total : n = w₁.length + w₂.length := by
    have := congrArg List.length h
    simpa using this
  rw [total, received_add] at h
  have := List.append_inj h (by simp)
  exact ⟨this.1.symm, this.2.symm⟩

/-- A word, and a stream after it. -/
def follow (w : List β) (τ : ℕ → β) : ℕ → β := fun k => w.getD k (τ (k - w.length))

theorem received_follow (w : List β) (τ : ℕ → β) : received (follow w τ) w.length = w := by
  apply List.ext_getElem
  · simp
  · intro i _ inside
    simp [follow, inside]

/-- The stream that goes on with `b` after a word. -/
def streamOf (w : List β) (b : β) : ℕ → β := fun k => w.getD k b

theorem received_streamOf (w : List β) (b : β) : received (streamOf w b) w.length = w :=
  received_follow w fun _ => b

namespace Prog

/-- On the stream `σ` the program returns `a` with log `l`. -/
def Returns (m : Prog β ε α) (σ : ℕ → β) (a : α) (l : List ε) : Prop :=
  ∃ n, Takes m (received σ n) a l

/-- A returned prefix run is a return on the stream. -/
theorem returns_of_run {m : Prog β ε α} {σ : ℕ → β} {n : ℕ} {a : α} {rest : List β} {l : List ε}
    (h : m.run (received σ n) = ⟨l, some (a, rest)⟩) : Returns m σ a l := by
  obtain ⟨w, split, taken⟩ := takes_of_run h
  exact ⟨w.length, (received_split split).1 ▸ taken⟩

/-- Past the return, the run on every longer prefix is the same. -/
theorem Takes.run_received {m : Prog β ε α} {σ : ℕ → β} {k n : ℕ} {a : α} {l : List ε}
    (h : Takes m (received σ k) a l) (le : k ≤ n) :
    m.run (received σ n) = ⟨l, some (a, received (after σ k) (n - k))⟩ := by
  obtain ⟨d, rfl⟩ := Nat.exists_eq_add_of_le le
  rw [received_add, h.run, Nat.add_sub_cancel_left]

theorem Returns.unique {m : Prog β ε α} {σ : ℕ → β} {a a' : α} {l l' : List ε}
    (h : Returns m σ a l) (h' : Returns m σ a' l') : a = a' ∧ l = l' := by
  obtain ⟨n, taken⟩ := h
  obtain ⟨n', taken'⟩ := h'
  have run := taken.run_received (Nat.le_max_left n n')
  rw [taken'.run_received (Nat.le_max_right n n')] at run
  simp only [Run.mk.injEq, Option.some.injEq, Prod.mk.injEq] at run
  exact ⟨run.2.1.symm, run.1.symm⟩

theorem returns_bind {m : Prog β ε α} {f : α → Prog β ε γ} {σ : ℕ → β} {c : γ} {l : List ε} :
    Returns (m >>= f) σ c l ↔ ∃ n a l₁ l₂, l = l₁ ++ l₂ ∧ Takes m (received σ n) a l₁ ∧
      Returns (f a) (after σ n) c l₂ := by
  constructor
  · rintro ⟨n, h⟩
    obtain ⟨w₁, w₂, a, l₁, l₂, split, hl, first, second⟩ := takes_bind.1 h
    obtain ⟨e₁, e₂⟩ := received_split split
    exact ⟨w₁.length, a, l₁, l₂, hl, e₁ ▸ first, w₂.length, e₂ ▸ second⟩
  · rintro ⟨n, a, l₁, l₂, hl, first, k, second⟩
    exact ⟨n + k, takes_bind.2 ⟨_, _, a, l₁, l₂, received_add σ n k, hl, first, second⟩⟩

/-- The program returns on every stream. -/
def Total (m : Prog β ε α) : Prop := ∀ σ : ℕ → β, ∃ a l, Returns m σ a l

theorem total_pure (a : α) : Total (pure a : Prog β ε α) :=
  fun σ => ⟨a, [], 0, by simp [received]⟩

theorem total_emit (e : ε) : Total (emit e : Prog β ε Unit) :=
  fun σ => ⟨(), [e], 0, by simp [received]⟩

theorem total_read (f : β → ε) : Total (read f) :=
  fun σ => ⟨σ 0, [f (σ 0)], 1, by simp [received]⟩

theorem Total.bind {m : Prog β ε α} {f : α → Prog β ε γ} (h : Total m) (h' : ∀ a, Total (f a)) :
    Total (m >>= f) := by
  intro σ
  obtain ⟨a, l, n, first⟩ := h σ
  obtain ⟨c, l', second⟩ := h' a (after σ n)
  exact ⟨c, l ++ l', returns_bind.2 ⟨n, a, l, l', rfl, first, second⟩⟩

/-- On the stream `σ` the program returns `a`. -/
def Answers (m : Prog β ε α) (σ : ℕ → β) (a : α) : Prop := ∃ l, Returns m σ a l

theorem answers_pure (σ : ℕ → β) (a : α) : Answers (pure a : Prog β ε α) σ a :=
  ⟨[], 0, by simp [received]⟩

/-- The second program answers alike wherever the first leaves the stream. -/
theorem Answers.bind {m : Prog β ε α} {f : α → Prog β ε γ} {σ : ℕ → β} {a : α} {c : γ} (h : Answers m σ a)
    (next : ∀ σ, Answers (f a) σ c) : Answers (m >>= f) σ c := by
  obtain ⟨l, n, taken⟩ := h
  obtain ⟨l', more⟩ := next (after σ n)
  exact ⟨l ++ l', returns_bind.2 ⟨n, a, l, l', rfl, taken, more⟩⟩

/-- Read a word at the head of the stream, then go on after it. -/
theorem Reads.answers {m : Prog β ε α} {f : α → Prog β ε γ} {σ : ℕ → β} {n : ℕ} {w rest : List β} {a : α}
    {c : γ} (h : Reads m w a) (split : received σ n = w ++ rest)
    (next : Answers (f a) (after σ w.length) c) : Answers (m >>= f) σ c := by
  obtain ⟨l, taken⟩ := h
  obtain ⟨l', more⟩ := next
  exact ⟨l ++ l', returns_bind.2 ⟨w.length, a, l, l', rfl, (received_split split).1 ▸ taken, more⟩⟩

/-- A program that reads nothing. -/
theorem Reads.answers_nil {m : Prog β ε α} {f : α → Prog β ε γ} {σ : ℕ → β} {a : α} {c : γ}
    (h : Reads m [] a) (next : Answers (f a) σ c) : Answers (m >>= f) σ c := by
  have split : received σ 0 = [] ++ [] := rfl
  refine h.answers split ?_
  rwa [List.length_nil, after_zero]

/-- A program that returns on every stream, and whose result does not matter. -/
theorem Total.answers {m : Prog β ε α} {f : α → Prog β ε γ} {c : γ} (h : Total m)
    (next : ∀ a σ, Answers (f a) σ c) (σ : ℕ → β) : Answers (m >>= f) σ c := by
  obtain ⟨a, l, returned⟩ := h σ
  have answered : Answers m σ a := ⟨l, returned⟩
  exact answered.bind (next a)

/-! ## What a run can log -/

/-- Every effect of every run satisfies `P`. -/
def Emits (m : Prog β ε α) (P : ε → Prop) : Prop := ∀ bs, ∀ e ∈ (m.run bs).log, P e

theorem Emits.mono {m : Prog β ε α} {P Q : ε → Prop} (h : Emits m P) (le : ∀ e, P e → Q e) : Emits m Q :=
  fun bs e member => le e (h bs e member)

/-- The log of a word taken is the log of a run. -/
theorem Emits.takes {m : Prog β ε α} {P : ε → Prop} (h : Emits m P) {w : List β} {a : α} {l : List ε}
    (taken : Takes m w a l) : ∀ e ∈ l, P e := by
  have all := h w
  unfold Takes at taken
  rwa [taken] at all

theorem emits_pure (a : α) (P : ε → Prop) : Emits (pure a : Prog β ε α) P := by
  intro bs e member
  cases member

theorem emits_emit {e : ε} {P : ε → Prop} (h : P e) : Emits (emit e : Prog β ε Unit) P := by
  intro bs e' member
  rw [run_emit, List.mem_singleton] at member
  exact member ▸ h

theorem emits_read {f : β → ε} {P : ε → Prop} (h : ∀ b, P (f b)) : Emits (read f) P := by
  rintro (_ | ⟨b, bs⟩) e member
  · cases member
  · rw [run_read_cons, List.mem_singleton] at member
    exact member ▸ h b

/-- The second program only matters on the results the first returns. -/
theorem Emits.bind_takes {m : Prog β ε α} {f : α → Prog β ε γ} {P : ε → Prop} (h : Emits m P)
    (h' : ∀ w a l, Takes m w a l → Emits (f a) P) : Emits (m >>= f) P := by
  intro bs e member
  cases out : (m.run bs).out with
  | none =>
    rw [run_bind_none out] at member
    exact h bs e member
  | some p =>
    obtain ⟨a, rest⟩ := p
    rw [run_bind_some out, List.mem_append] at member
    rcases member with member | member
    · exact h bs e member
    · have full : m.run bs = ⟨(m.run bs).log, some (a, rest)⟩ := Run.ext rfl out
      obtain ⟨w, -, taken⟩ := takes_of_run full
      exact h' w a _ taken rest e member

theorem Emits.bind {m : Prog β ε α} {f : α → Prog β ε γ} {P : ε → Prop} (h : Emits m P)
    (h' : ∀ a, Emits (f a) P) : Emits (m >>= f) P :=
  h.bind_takes fun _ a _ _ => h' a

theorem Emits.doWhile {body : Prog β ε α} {P : ε → Prop} (h : Emits body P)
    (productive : Productive body) (again : α → Bool) : Emits (doWhile body productive again) P := by
  have unrolled : ∀ n, Emits (unroll body again n) P := by
    intro n
    induction n with
    | zero => intro bs e member; cases member
    | succ n ih =>
      refine h.bind fun a => ?_
      cases again a with
      | false => exact emits_pure a P
      | true => exact ih
  exact fun bs => unrolled (bs.length + 1) bs

/-! ## Monitors

A monitor `δ` follows the log of a run from a state `s`. -/

/-- Along the run on `bs` the monitor is `ok` after every effect, and a return
leaves it in `Q`. -/
structure Follows (δ : S → ε → S) (ok : S → Prop) (s : S) (m : Prog β ε α) (bs : List β)
    (Q : α → List β → S → Prop) : Prop where
  safe : ∀ p, p <+: (m.run bs).log → ok (p.foldl δ s)
  post : ∀ {a rest}, (m.run bs).out = some (a, rest) → Q a rest ((m.run bs).log.foldl δ s)

section Follows

variable {δ : S → ε → S} {ok : S → Prop} {s : S} {bs : List β}

theorem follows_pure {a : α} {Q : α → List β → S → Prop} (safe : ok s) (post : Q a bs s) :
    Follows δ ok s (pure a) bs Q where
  safe := by
    intro p member
    obtain rfl : p = [] := List.prefix_nil.1 member
    exact safe
  post := by
    intro a' rest out
    obtain ⟨rfl, rfl⟩ : a = a' ∧ bs = rest := by simpa using out
    exact post

/-- A log of one effect. -/
theorem prefix_singleton {e : ε} {p : List ε} (h : p <+: [e]) : p = [] ∨ p = [e] := by
  cases p with
  | nil => exact Or.inl rfl
  | cons e' p =>
    obtain ⟨rfl, tail⟩ := List.cons_prefix_cons.1 h
    exact Or.inr (by rw [List.prefix_nil.1 tail])

theorem follows_emit {e : ε} {Q : Unit → List β → S → Prop} (safe : ok s) (next : ok (δ s e))
    (post : Q () bs (δ s e)) : Follows δ ok s (emit e) bs Q where
  safe := by
    intro p member
    rcases prefix_singleton member with rfl | rfl
    · exact safe
    · exact next
  post := by
    intro a rest out
    obtain rfl : bs = rest := by simpa using out
    exact post

theorem follows_read {f : β → ε} {Q : β → List β → S → Prop} (safe : ok s)
    (next : ∀ b rest, bs = b :: rest → ok (δ s (f b)) ∧ Q b rest (δ s (f b))) :
    Follows δ ok s (read f) bs Q := by
  cases bs with
  | nil =>
    refine ⟨fun p member => ?_, fun out => ?_⟩
    · obtain rfl : p = [] := List.prefix_nil.1 member
      exact safe
    · cases out
  | cons b bs =>
    refine ⟨fun p member => ?_, fun out => ?_⟩
    · rcases prefix_singleton member with rfl | rfl
      · exact safe
      · exact (next b bs rfl).1
    · obtain ⟨rfl, rfl⟩ := Prod.mk.inj (Option.some.inj out)
      exact (next b bs rfl).2

theorem Follows.bind {m : Prog β ε α} {f : α → Prog β ε γ} {Q : α → List β → S → Prop}
    {R : γ → List β → S → Prop} (h : Follows δ ok s m bs Q)
    (h' : ∀ a rest t, Q a rest t → Follows δ ok t (f a) rest R) : Follows δ ok s (m >>= f) bs R := by
  cases out : (m.run bs).out with
  | none =>
    refine ⟨fun p member => ?_, fun returned => ?_⟩
    · rw [run_bind_none out] at member
      exact h.safe p member
    · rw [run_bind_none out] at returned
      cases returned
  | some q =>
    obtain ⟨a, rest⟩ := q
    have second := h' a rest _ (h.post out)
    refine ⟨fun p member => ?_, fun returned => ?_⟩
    · rw [run_bind_some out] at member
      -- a prefix of the joint log ends in the first part or covers it
      rcases List.prefix_or_prefix_of_prefix member (List.prefix_append _ _) with first | ⟨t, rfl⟩
      · exact h.safe p first
      · rw [List.foldl_append]
        exact second.safe t ((List.prefix_append_right_inj _).1 member)
    · rw [run_bind_some out] at returned ⊢
      rw [List.foldl_append]
      exact second.post returned

theorem Follows.mono {m : Prog β ε α} {Q R : α → List β → S → Prop} (h : Follows δ ok s m bs Q)
    (le : ∀ a rest t, Q a rest t → R a rest t) : Follows δ ok s m bs R :=
  ⟨h.safe, fun out => le _ _ _ (h.post out)⟩

/-- What was read to return. -/
theorem Follows.reads {m : Prog β ε α} {Q : α → List β → S → Prop} (h : Follows δ ok s m bs Q) :
    Follows δ ok s m bs fun a rest t => Q a rest t ∧ ∃ w, bs = w ++ rest ∧ Reads m w a := by
  refine ⟨h.safe, fun {a rest} out => ⟨h.post out, ?_⟩⟩
  have full : m.run bs = ⟨(m.run bs).log, some (a, rest)⟩ := Run.ext rfl out
  obtain ⟨w, split, taken⟩ := takes_of_run full
  exact ⟨w, split, _, taken⟩

/-- An invariant kept by every effect of a program. -/
theorem Emits.follows {m : Prog β ε α} {P : ε → Prop} {inv : S → Prop} (h : Emits m P) (start : inv s)
    (step : ∀ t e, inv t → P e → inv (δ t e)) (safe : ∀ t, inv t → ok t) :
    Follows δ ok s m bs fun _ _ t => inv t := by
  have fold : ∀ l : List ε, (∀ e ∈ l, P e) → ∀ t, inv t → inv (l.foldl δ t) := by
    intro l
    induction l with
    | nil => exact fun _ t ht => ht
    | cons e l ih =>
      intro all t ht
      exact ih (fun e' member => all e' (List.mem_cons_of_mem _ member)) _
        (step t e ht (all e List.mem_cons_self))
  refine ⟨fun p member => safe _ ?_, fun _ => ?_⟩
  · exact fold p (fun e inside => h bs e (member.subset inside)) s start
  · exact fold _ (h bs) s start

end Follows

/-! ## What a stream brings to light -/

/-- On the stream `σ` some run logs at least `l`. -/
def Shows (m : Prog β ε α) (σ : ℕ → β) (l : List ε) : Prop := ∃ n, l <+: (m.run (received σ n)).log

theorem shows_emit (e : ε) (σ : ℕ → β) : Shows (emit e) σ [e] := ⟨0, List.prefix_rfl⟩

theorem Shows.bind {m : Prog β ε α} {σ : ℕ → β} {l : List ε} (h : Shows m σ l) (f : α → Prog β ε γ) :
    Shows (m >>= f) σ l := by
  obtain ⟨n, before⟩ := h
  refine ⟨n, before.trans ?_⟩
  cases out : (m.run (received σ n)).out with
  | none =>
    have same : ((m >>= f).run (received σ n)).log = (m.run (received σ n)).log := by rw [run_bind_none out]
    exact same ▸ List.prefix_rfl
  | some p =>
    obtain ⟨a, rest⟩ := p
    rw [run_bind_some out]
    exact List.prefix_append _ _

theorem shows_doWhile {body : Prog β ε α} {productive : Productive body} {again : α → Bool} {σ : ℕ → β}
    {l : List ε} (h : Shows (body >>= fun a => if again a then doWhile body productive again else pure a) σ l) :
    Shows (doWhile body productive again) σ l := by
  obtain ⟨n, before⟩ := h
  exact ⟨n, by rwa [run_doWhile]⟩

theorem Takes.shows {m : Prog β ε α} {f : α → Prog β ε γ} {σ : ℕ → β} {n : ℕ} {a : α} {l l' : List ε}
    (h : Takes m (received σ n) a l) (next : Shows (f a) (after σ n) l') : Shows (m >>= f) σ (l ++ l') := by
  obtain ⟨k, before⟩ := next
  refine ⟨n + k, ?_⟩
  rw [received_add, run_bind, h.run]
  exact (List.prefix_append_right_inj l).2 before

end Prog

end Zcu102.Sim
