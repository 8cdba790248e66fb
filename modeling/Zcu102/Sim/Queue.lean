import Mathlib.Data.Nat.Notation

/-!
# Queues with a ready-valid handshake

A queue of bounded size between two handshakes, as Chisel's `Queue`: it is ready
while it has room and valid while it holds something, and both sides may fire in one
cycle.
-/

namespace Zcu102.Sim
set_option autoImplicit false

variable {α : Type} {entries : ℕ}

structure Queue (α : Type) (entries : ℕ) where
  contents : List α
  bounded : contents.length ≤ entries

namespace Queue

def empty : Queue α entries := ⟨[], Nat.zero_le entries⟩

/-- `enq.ready`. -/
def ready (q : Queue α entries) : Bool := q.contents.length < entries

/-- `deq.valid`, with `deq.bits` at the front of the contents. -/
def valid (q : Queue α entries) : Bool := !q.contents.isEmpty

/-- What comes in when `enq.valid` and `enq.bits` are as offered. -/
def accepts (q : Queue α entries) (offered : Option α) : List α := if q.ready then offered.toList else []

/-- What goes out under a `deq.ready`. -/
def delivers (q : Queue α entries) (taken : Bool) : List α := if taken then q.contents.take 1 else []

def step (q : Queue α entries) (offered : Option α) (taken : Bool) : Queue α entries where
  contents := (if taken then q.contents.drop 1 else q.contents) ++ q.accepts offered
  bounded := by
    have bounded := q.bounded
    have less : (if taken then q.contents.drop 1 else q.contents).length ≤ q.contents.length := by
      cases taken with
      | true => exact Nat.le_trans (Nat.le_of_eq List.length_drop) (Nat.sub_le _ _)
      | false => exact Nat.le_refl _
    rw [List.length_append]
    unfold accepts
    by_cases room : q.ready = true
    · have one : offered.toList.length ≤ 1 := by cases offered <;> simp
      have below : q.contents.length < entries := of_decide_eq_true room
      rw [if_pos room]
      omega
    · rw [if_neg room, List.length_nil]
      omega

/-- Something goes out when the queue is valid as well. -/
theorem delivers_eq (q : Queue α entries) (taken : Bool) :
    q.delivers taken = if q.valid && taken then q.contents.take 1 else [] := by
  unfold delivers valid
  cases q.contents <;> cases taken <;> simp

theorem accepts_sublist (q : Queue α entries) (offered : Option α) : (q.accepts offered).Sublist offered.toList := by
  rw [accepts]
  split
  · exact List.Sublist.refl _
  · exact List.nil_sublist _

/-- A cycle loses nothing and makes nothing up. -/
theorem conserves (q : Queue α entries) (offered : Option α) (taken : Bool) :
    q.contents ++ q.accepts offered = q.delivers taken ++ (q.step offered taken).contents := by
  cases taken with
  | true =>
    change q.contents ++ q.accepts offered = q.contents.take 1 ++ (q.contents.drop 1 ++ q.accepts offered)
    rw [← List.append_assoc, List.take_append_drop]
  | false => rfl

end Queue

end Zcu102.Sim
