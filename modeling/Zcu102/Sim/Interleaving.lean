import Zcu102.Sim.Steps

/-!
# Lists made up of two

What a place puts out that is fed from two sources is an interleaving of what it was
given: each source in its own order, and nothing else. The rule for runs says so step by
step, and a part of the output that came first is made up of first parts of both.
-/

namespace Zcu102.Sim
set_option autoImplicit false

variable {α β S E : Type}

/-- The first list has the items of the other two, those of each in order. -/
inductive Interleaves : List α → List α → List α → Prop
  | nil : Interleaves [] [] []
  | left {zs xs ys : List α} (x : α) (rest : Interleaves zs xs ys) : Interleaves (x :: zs) (x :: xs) ys
  | right {zs xs ys : List α} (y : α) (rest : Interleaves zs xs ys) : Interleaves (y :: zs) xs (y :: ys)

namespace Interleaves

theorem of_left (xs : List α) : Interleaves xs xs [] := by
  induction xs with
  | nil => exact .nil
  | cons x xs ih => exact .left x ih

theorem of_right (ys : List α) : Interleaves ys [] ys := by
  induction ys with
  | nil => exact .nil
  | cons y ys ih => exact .right y ih

theorem append {zs xs ys zs' xs' ys' : List α} (first : Interleaves zs xs ys) (second : Interleaves zs' xs' ys') :
    Interleaves (zs ++ zs') (xs ++ xs') (ys ++ ys') := by
  induction first with
  | nil => exact second
  | left x rest ih => exact .left x ih
  | right y rest ih => exact .right y ih

theorem map {zs xs ys : List α} (f : α → β) (both : Interleaves zs xs ys) :
    Interleaves (zs.map f) (xs.map f) (ys.map f) := by
  induction both with
  | nil => exact .nil
  | left x rest ih => exact .left (f x) ih
  | right y rest ih => exact .right (f y) ih

/-- What comes first is made up of what comes first in either list. -/
theorem front {zs zs' xs ys : List α} (both : Interleaves (zs ++ zs') xs ys) :
    ∃ xs' ys', xs' <+: xs ∧ ys' <+: ys ∧ Interleaves zs xs' ys' := by
  induction zs generalizing xs ys with
  | nil => exact ⟨[], [], List.nil_prefix, List.nil_prefix, .nil⟩
  | cons z zs ih =>
    cases both with
    | left x rest =>
      obtain ⟨xs', ys', left, right, front⟩ := ih rest
      exact ⟨z :: xs', ys', (List.prefix_cons_inj z).mpr left, right, .left z front⟩
    | right y rest =>
      obtain ⟨xs', ys', left, right, front⟩ := ih rest
      exact ⟨xs', z :: ys', left, (List.prefix_cons_inj z).mpr right, .right z front⟩

end Interleaves

/-- **Rule for runs.** -/
theorem outputs_interleaves {step : S → E → S} {out left right : S → E → List α}
    (each : ∀ s e, Interleaves (out s e) (left s e) (right s e)) (s : S) (es : List E) :
    Interleaves (outputs step out s es) (outputs step left s es) (outputs step right s es) := by
  induction es generalizing s with
  | nil => exact .nil
  | cons e es ih => exact (each s e).append (ih (step s e))

end Zcu102.Sim
