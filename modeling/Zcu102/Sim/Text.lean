import Mathlib.Data.List.Basic
import Mathlib.Data.Nat.Notation

/-!
# Text with margins

`stripMargin` of Scala: at the start of each line, blanks and control characters
followed by `|` are dropped. It works on whatever the text holds, so a line that only
happens to start that way loses its bar as well. `unbarred` says that there is no such
line, and is computed piece by piece: what is left of a line start after a piece is all
the next piece depends on.
-/

namespace Zcu102.Sim
set_option autoImplicit false

abbrev Text := List Char

/-- A line ends with a line feed or a form feed. -/
def isLineBreak (c : Char) : Bool := c == '\n' || c == '\x0c'

/-- Strip the rest of a text, from the middle of a line or after some blanks at the start of one. -/
def stripFrom : Option Text → Text → Text
  | none, [] => []
  | none, c :: cs => c :: stripFrom (if isLineBreak c then some [] else none) cs
  | some blanks, [] => blanks
  | some blanks, c :: cs =>
    if isLineBreak c then blanks ++ c :: stripFrom (some []) cs
    else if c ≤ ' ' then stripFrom (some (blanks ++ [c])) cs
    else if c = '|' then stripFrom none cs
    else blanks ++ c :: stripFrom none cs

def stripMargin (t : Text) : Text := stripFrom (some []) t

example : stripMargin "a |b\n  |c\n|\n d".toList = "a |b\nc\n\n d".toList := by decide

/-! ## Lines without a bar -/

/-- Whether a piece of text ends where only blanks stand before it on the line. -/
def atStart (start : Bool) (t : Text) : Bool := t.foldl (fun start c => isLineBreak c || (start && c ≤ ' ')) start

/-- No line of a piece of text starts with blanks and a bar; `start` says whether the piece stands at the start of
its first line. -/
def unbarred : Bool → Text → Bool
  | _, [] => true
  | start, c :: cs =>
    (isLineBreak c || !start || c ≠ '|') && unbarred (isLineBreak c || (start && c ≤ ' ')) cs

theorem unbarred_append (start : Bool) (t u : Text) :
    unbarred start (t ++ u) = (unbarred start t && unbarred (atStart start t) u) := by
  induction t generalizing start with
  | nil => rfl
  | cons c t ih => rw [List.cons_append, unbarred, unbarred, ih, Bool.and_assoc]; rfl

theorem length_stripFrom_le (t : Text) :
    (stripFrom none t).length ≤ t.length ∧
      ∀ blanks, (stripFrom (some blanks) t).length ≤ blanks.length + t.length := by
  induction t with
  | nil => exact ⟨Nat.le_refl 0, fun blanks => Nat.le_refl _⟩
  | cons c t ih =>
    obtain ⟨middle, start⟩ := ih
    constructor
    · rw [stripFrom, List.length_cons, List.length_cons]
      have atStart := start []
      rw [List.length_nil, Nat.zero_add] at atStart
      split <;> omega
    · intro blanks
      have fresh := start []
      have longer := start (blanks ++ [c])
      rw [List.length_nil, Nat.zero_add] at fresh
      rw [List.length_append, List.length_singleton] at longer
      rw [stripFrom, List.length_cons]
      split
      · rw [List.length_append, List.length_cons]
        omega
      · split
        · omega
        · split
          · omega
          · rw [List.length_append, List.length_cons]
            omega

theorem bar_not_blank {c : Char} (blank : c ≤ ' ') : c ≠ '|' := by
  intro bar
  rw [bar] at blank
  exact absurd blank (by decide)

/-- Nothing is stripped exactly where no line is barred; blanks that are kept back come out again. -/
theorem strip_eq_iff (t : Text) :
    (stripFrom none t = t ↔ unbarred false t = true) ∧
      ∀ blanks, stripFrom (some blanks) t = blanks ++ t ↔ unbarred true t = true := by
  induction t with
  | nil => simp [stripFrom, unbarred]
  | cons c t ih =>
    obtain ⟨middle, start⟩ := ih
    have fresh : stripFrom (some []) t = t ↔ unbarred true t = true := start []
    constructor
    · rw [stripFrom, unbarred]
      cases ends : isLineBreak c with
      | true => simpa using fresh
      | false => simpa using middle
    · intro blanks
      rw [stripFrom, unbarred]
      cases ends : isLineBreak c with
      | true => simpa using fresh
      | false =>
        by_cases blank : c ≤ ' '
        · have longer := start (blanks ++ [c])
          rw [List.append_assoc, List.singleton_append] at longer
          simpa [blank, bar_not_blank blank] using longer
        · by_cases bar : c = '|'
          · have shorter := (length_stripFrom_le t).1
            have differs : stripFrom none t ≠ blanks ++ c :: t := by
              intro same
              have lengths := congrArg List.length same
              rw [List.length_append, List.length_cons] at lengths
              omega
            simp [bar, bar ▸ differs]
          · simpa [blank, bar] using middle

/-! ## Lines -/

/-- Stripping keeps every line break. -/
theorem breaks_stripFrom (t : Text) :
    (stripFrom none t).countP isLineBreak = t.countP isLineBreak ∧
      ∀ blanks, blanks.countP isLineBreak = 0 →
        (stripFrom (some blanks) t).countP isLineBreak = t.countP isLineBreak := by
  induction t with
  | nil => exact ⟨rfl, fun blanks unbroken => unbroken⟩
  | cons c t ih =>
    obtain ⟨middle, start⟩ := ih
    have fresh := start [] rfl
    constructor
    · rw [stripFrom, List.countP_cons, List.countP_cons]
      split
      · rw [fresh]
      · rw [middle]
    · intro blanks unbroken
      rw [stripFrom, List.countP_cons]
      cases ends : isLineBreak c with
      | true => simp [unbroken, fresh, ends]
      | false =>
        have longer := start (blanks ++ [c]) (by simp [unbroken, ends])
        simp only [Bool.false_eq_true, if_false, Nat.add_zero]
        split
        · exact longer
        · split
          · exact middle
          · simp [unbroken, middle, ends]

/-- At a line break a text can be stripped in two parts. -/
theorem stripFrom_break (state : Option Text) (t u : Text) :
    stripFrom state (t ++ '\n' :: u) = stripFrom state t ++ '\n' :: stripMargin u := by
  induction t generalizing state with
  | nil =>
    have ends : isLineBreak '\n' = true := rfl
    cases state with
    | none => simp [stripFrom, stripMargin, ends]
    | some blanks => simp [stripFrom, stripMargin, ends]
  | cons c t ih =>
    cases state with
    | none => rw [List.cons_append, stripFrom, stripFrom, ih, List.cons_append]
    | some blanks =>
      rw [List.cons_append, stripFrom, stripFrom, ih, ih, ih]
      split
      · rw [List.append_assoc, List.cons_append]
      · split
        · rfl
        · split
          · rfl
          · rw [List.append_assoc, List.cons_append]

/-- The margin of a line goes, and protects the rest of the line. -/
theorem stripMargin_margin (u : Text) : stripMargin ("       |".toList ++ u) = stripFrom none u := rfl

/-- Two texts that go on from a line break after equally many lines agree up to it. -/
theorem append_break_inj {t t' u u' : Text} (same : t ++ '\n' :: u = t' ++ '\n' :: u')
    (lines : t.countP isLineBreak = t'.countP isLineBreak) : t = t' ∧ u = u' := by
  have ends : isLineBreak '\n' = true := rfl
  induction t generalizing t' with
  | nil =>
    cases t' with
    | nil => exact ⟨rfl, List.tail_eq_of_cons_eq same⟩
    | cons c t' =>
      have head := List.head_eq_of_cons_eq same
      rw [← head, List.countP_cons_of_pos ends] at lines
      cases lines
  | cons c t ih =>
    cases t' with
    | nil =>
      have head := List.head_eq_of_cons_eq same
      rw [head, List.countP_cons_of_pos ends] at lines
      cases lines
    | cons c' t' =>
      have head := List.head_eq_of_cons_eq same
      subst head
      rw [List.countP_cons, List.countP_cons] at lines
      obtain ⟨tails, rest⟩ := ih (List.tail_eq_of_cons_eq same) (by omega)
      exact ⟨by rw [tails], rest⟩

/-! ## Pieces of a line -/

/-- A piece without a bar of its own, after which the line has begun. -/
def Solid (t : Text) : Prop := ∀ start, unbarred start t = true ∧ atStart start t = false

/-- A piece without a bar of its own, after which a new line starts. -/
def Breaks (t : Text) : Prop := ∀ start, unbarred start t = true ∧ atStart start t = true

/-- A piece that cannot make a bar anywhere. -/
def Plain (t : Text) : Prop := ∀ c ∈ t, c ≠ '|' ∧ isLineBreak c = false

instance (t : Text) : Decidable (Solid t) := inferInstanceAs (Decidable (∀ _, _))
instance (t : Text) : Decidable (Breaks t) := inferInstanceAs (Decidable (∀ _, _))

/-- A literal is decided by its characters. -/
theorem solid_literal {cs : Text} (solid : Solid cs) : Solid (String.ofList cs).toList := by
  rwa [String.toList_ofList]

theorem breaks_literal {cs : Text} (breaks : Breaks cs) : Breaks (String.ofList cs).toList := by
  rwa [String.toList_ofList]

theorem Plain.unbarred {t : Text} (plain : Plain t) (start : Bool) : unbarred start t = true := by
  induction t generalizing start with
  | nil => rfl
  | cons c t ih =>
    obtain ⟨bar, -⟩ := plain c List.mem_cons_self
    rw [Sim.unbarred, ih fun c mem => plain c (List.mem_cons_of_mem _ mem)]
    simp [bar]

theorem Solid.unbarred_append {s : Text} (solid : Solid s) (start : Bool) (t : Text) :
    unbarred start (s ++ t) = unbarred false t := by
  rw [Sim.unbarred_append, (solid start).1, (solid start).2, Bool.true_and]

theorem Breaks.unbarred_append {s : Text} (breaks : Breaks s) (start : Bool) (t : Text) :
    unbarred start (s ++ t) = unbarred true t := by
  rw [Sim.unbarred_append, (breaks start).1, (breaks start).2, Bool.true_and]

/-- An argument between two pieces of a command. -/
theorem Solid.unbarred_arg {s : Text} (solid : Solid s) (start : Bool) (arg t : Text) :
    unbarred start (arg ++ (s ++ t)) = (unbarred start arg && unbarred false t) := by
  rw [Sim.unbarred_append, solid.unbarred_append]

theorem Solid.unbarred_last {s : Text} (solid : Solid s) (start : Bool) (arg : Text) :
    unbarred start (arg ++ s) = unbarred start arg := by
  rw [Sim.unbarred_append, (solid _).1, Bool.and_true]

/-- Nothing is stripped from such a piece, at the start of a line or inside one. -/
theorem Solid.strip {s : Text} (solid : Solid s) : stripFrom none s = s ∧ stripFrom (some []) s = s :=
  ⟨(strip_eq_iff s).1.mpr (solid false).1, ((strip_eq_iff s).2 []).mpr (solid true).1⟩

/-! ## Joined texts -/

/-- `mkString(sep)`. -/
def mkString (sep : Text) : List Text → Text
  | [] => []
  | t :: ts => t ++ ts.flatMap (sep ++ ·)

theorem unbarred_flatMap {sep : Text} (breaks : Breaks sep) (start : Bool) (ts : List Text) :
    unbarred start (ts.flatMap (sep ++ ·)) = ts.all (unbarred true) := by
  induction ts generalizing start with
  | nil => rfl
  | cons t ts ih => rw [List.flatMap_cons, List.append_assoc, breaks.unbarred_append, unbarred_append, ih, List.all_cons]

/-- Joined at line breaks, every text but the first starts a line. -/
theorem unbarred_mkString {sep : Text} (breaks : Breaks sep) (start : Bool) (t : Text) (ts : List Text) :
    unbarred start (mkString sep (t :: ts)) = (unbarred start t && ts.all (unbarred true)) := by
  rw [mkString, unbarred_append, unbarred_flatMap breaks]

end Zcu102.Sim
