import Mathlib.Data.List.Basic
import Mathlib.Data.List.Induction
import Zcu102.Sim.Steps

/-!
# The overlay registry (`Shell.Overlay`)

A shell declares overlays; each declaration puts a link in front of `p` in a chain
of parameter views, and the link reads a mutable cell whenever the chain is asked
for its key. `designParameters(key)` is asked between placements, so what stands
at a position of the answer changes with every placement before it.

A cell is addressed by its number in order of declaration. Placing an overlay runs
code of the shell placer, which may throw; what it does to the elaboration is the
`World` the call meets.
-/

namespace Zcu102.Overlays
set_option autoImplicit false
open Zcu102.Sim

section Registry

variable {Key Input Overlay World Outer : Type}

/-- `ShellPlacer`, with what its `place` returns or throws. -/
structure ShellPlacer (Input Overlay World : Type) where
  valName : String
  place : Input → World → Except String Overlay

/-- The object `Shell.Overlay` makes: what it closes over and its mutable field. -/
structure Thunk (Key Input Overlay World : Type) where
  key : Key
  placer : ShellPlacer Input Overlay World
  placedOverlay : Option Overlay

namespace Thunk

def isPlaced (thunk : Thunk Key Input Overlay World) : Bool := thunk.placedOverlay.isSome

def name (thunk : Thunk Key Input Overlay World) : String := thunk.placer.valName

/-- `place`, with the object after the call: an exception keeps what was assigned before it. -/
def place (thunk : Thunk Key Input Overlay World) (input : Input) (w : World) :
    Except String Overlay × Thunk Key Input Overlay World :=
  if thunk.isPlaced then
    (.error s!"requirement failed: Overlay {thunk.name} has already been placed by the design; cannot place again", thunk)
  else
    match thunk.placer.place input w with
    | .error thrown => (.error thrown, thunk)
    | .ok it => (.ok it, { thunk with placedOverlay := some it })

variable {thunk : Thunk Key Input Overlay World}

theorem isPlaced_eq_false : thunk.isPlaced = false ↔ thunk.placedOverlay = none := by
  rw [isPlaced, Option.isSome_eq_false_iff, Option.isNone_iff_eq_none]

theorem place_of_placed (placed : thunk.isPlaced = true) (input : Input) (w : World) :
    ∃ message, thunk.place input w = (.error message, thunk) := by
  unfold place
  rw [if_pos placed]
  exact ⟨_, rfl⟩

theorem place_of_throws {input : Input} {w : World} {thrown : String} (fresh : thunk.placedOverlay = none)
    (throws : thunk.placer.place input w = .error thrown) : thunk.place input w = (.error thrown, thunk) := by
  unfold place
  rw [isPlaced_eq_false.mpr fresh, throws]
  rfl

theorem place_of_returns {input : Input} {w : World} {it : Overlay} (fresh : thunk.placedOverlay = none)
    (returns : thunk.placer.place input w = .ok it) :
    thunk.place input w = (.ok it, { thunk with placedOverlay := some it }) := by
  unfold place
  rw [isPlaced_eq_false.mpr fresh, returns]
  rfl

end Thunk

/-! ## Parameters

A view answers a key; `Parameters` answer it with the view behind them as `up`. -/

/-- A placer in an answer: one of this shell, by number, or one from outside. -/
inductive DesignPlacer (Outer : Type) where
  | own (id : ℕ)
  | outer (placer : Outer)
  deriving DecidableEq, Repr

abbrev View (Key Outer : Type) := Key → List (DesignPlacer Outer)

abbrev Parameters (Key Input Overlay World Outer : Type) :=
  List (Thunk Key Input Overlay World) → View Key Outer → View Key Outer

namespace Parameters

def empty : Parameters Key Input Overlay World Outer := fun _ up => up

/-- `a ++ b`: `a` is consulted first and its `up` continues in `b`. -/
def append (a b : Parameters Key Input Overlay World Outer) : Parameters Key Input Overlay World Outer :=
  fun cells up => a cells (b cells up)

/-- The partial function of one overlay, `up` answering where it is not defined. -/
def overlay [DecidableEq Key] (key : Key) (id : ℕ) : Parameters Key Input Overlay World Outer :=
  fun cells up x =>
    if x = key then
      let tail := up key
      if cells[id]?.any Thunk.isPlaced then tail else .own id :: tail
    else up x

/-- The parameters the shell itself was given. -/
def outside (p : Key → List Outer) : Parameters Key Input Overlay World Outer :=
  fun _ _ x => (p x).map .outer

end Parameters

/-! ## The shell -/

structure Shell (Key Input Overlay World Outer : Type) where
  thunks : List (Thunk Key Input Overlay World)
  overlays : Parameters Key Input Overlay World Outer

namespace Shell

def start : Shell Key Input Overlay World Outer := ⟨[], Parameters.empty⟩

def designParameters (p : Key → List Outer) (s : Shell Key Input Overlay World Outer) : View Key Outer :=
  (s.overlays.append (Parameters.outside p)) s.thunks fun _ => []

/-- `Overlay(key, placer)`, with the number of its placer. -/
def overlay [DecidableEq Key] (key : Key) (placer : ShellPlacer Input Overlay World)
    (s : Shell Key Input Overlay World Outer) : ℕ × Shell Key Input Overlay World Outer :=
  let id := s.thunks.length
  (id, ⟨s.thunks ++ [⟨key, placer, none⟩], s.overlays.append (Parameters.overlay key id)⟩)

def get (s : Shell Key Input Overlay World Outer) (id : ℕ) : Option Overlay :=
  s.thunks[id]?.bind Thunk.placedOverlay

/-- `place` on the placer of a number; there is none to call for a number not declared. -/
def place (s : Shell Key Input Overlay World Outer) (id : ℕ) (input : Input) (w : World) :
    Except String Overlay × Shell Key Input Overlay World Outer :=
  match s.thunks[id]? with
  | none => (.error "no such placer", s)
  | some thunk =>
    let (result, thunk') := thunk.place input w
    (result, { s with thunks := s.thunks.set id thunk' })

/-! ### One call -/

variable {s : Shell Key Input Overlay World Outer} {id : ℕ} {input : Input} {w : World}

theorem place_cell {thunk : Thunk Key Input Overlay World} (cell : s.thunks[id]? = some thunk) (input : Input)
    (w : World) : s.place id input w =
      ((thunk.place input w).1, { s with thunks := s.thunks.set id (thunk.place input w).2 }) := by
  rw [place, cell]

/-- A call that leaves its cell alone leaves the shell alone. -/
theorem place_unchanged {thunk : Thunk Key Input Overlay World} {result : Except String Overlay}
    (cell : s.thunks[id]? = some thunk) (called : thunk.place input w = (result, thunk)) :
    s.place id input w = (result, s) := by
  obtain ⟨bound, here⟩ := List.getElem?_eq_some_iff.mp cell
  rw [place_cell cell, called, ← here, List.set_getElem_self bound]

theorem place_of_placed {o : Overlay} (placed : s.get id = some o) (input : Input) (w : World) :
    ∃ message, s.place id input w = (.error message, s) := by
  obtain ⟨thunk, cell, stored⟩ := Option.bind_eq_some_iff.mp placed
  have isPlaced : thunk.isPlaced = true := by rw [Thunk.isPlaced, stored, Option.isSome_some]
  obtain ⟨message, refused⟩ := thunk.place_of_placed isPlaced input w
  exact ⟨message, place_unchanged cell refused⟩

theorem place_of_throws {thunk : Thunk Key Input Overlay World} {thrown : String}
    (cell : s.thunks[id]? = some thunk) (fresh : s.get id = none)
    (throws : thunk.placer.place input w = .error thrown) : s.place id input w = (.error thrown, s) := by
  rw [get, cell, Option.bind_some] at fresh
  exact place_unchanged cell (Thunk.place_of_throws fresh throws)

theorem place_of_returns {thunk : Thunk Key Input Overlay World} {it : Overlay}
    (cell : s.thunks[id]? = some thunk) (fresh : s.get id = none)
    (returns : thunk.placer.place input w = .ok it) :
    s.place id input w =
      (.ok it, { s with thunks := s.thunks.set id { thunk with placedOverlay := some it } }) := by
  rw [get, cell, Option.bind_some] at fresh
  rw [place_cell cell, Thunk.place_of_returns fresh returns]

/-- Everything a call can do. -/
theorem place_cases (s : Shell Key Input Overlay World Outer) (id : ℕ) (input : Input) (w : World) :
    (∃ thrown, s.place id input w = (.error thrown, s)) ∨
    ∃ thunk it, s.thunks[id]? = some thunk ∧ s.get id = none ∧ s.place id input w =
      (.ok it, { s with thunks := s.thunks.set id { thunk with placedOverlay := some it } }) := by
  cases cell : s.thunks[id]? with
  | none =>
    left
    exact ⟨"no such placer", by rw [place, cell]⟩
  | some thunk =>
    cases placed : s.get id with
    | some o =>
      left
      exact place_of_placed placed input w
    | none =>
      cases made : thunk.placer.place input w with
      | error thrown =>
        left
        exact ⟨thrown, place_of_throws cell placed made⟩
      | ok it =>
        right
        exact ⟨thunk, it, rfl, rfl, place_of_returns cell placed made⟩

/-- A call that returns stores what it returns, and touches no other placer. -/
theorem get_place {it : Overlay} (returns : (s.place id input w).1 = .ok it) (other : ℕ) :
    s.get id = none ∧ (s.place id input w).2.get other = if other = id then some it else s.get other := by
  obtain ⟨thrown, called⟩ | ⟨thunk, made, cell, fresh, called⟩ := s.place_cases id input w
  · rw [called] at returns
    cases returns
  · rw [called] at returns
    cases returns
    constructor
    · exact fresh
    · rw [called, get, List.getElem?_set]
      obtain ⟨bound, -⟩ := List.getElem?_eq_some_iff.mp cell
      by_cases here : other = id
      · subst here
        simp [bound]
      · rw [if_neg (Ne.symm here), if_neg here, get]

theorem get_placed {it : Overlay} {next : Shell Key Input Overlay World Outer}
    (called : s.place id input w = (.ok it, next)) : next.get id = some it := by
  have returns : (s.place id input w).1 = .ok it := by rw [called]
  have stored := (get_place returns id).2
  rwa [called, if_pos rfl] at stored

/-- A call changes nothing a thunk closes over. -/
theorem map_thunks_place {β : Type} (f : Thunk Key Input Overlay World → β)
    (blind : ∀ thunk o, f { thunk with placedOverlay := o } = f thunk) (s : Shell Key Input Overlay World Outer)
    (id : ℕ) (input : Input) (w : World) : (s.place id input w).2.thunks.map f = s.thunks.map f := by
  obtain ⟨_, called⟩ | ⟨thunk, it, cell, -, called⟩ := s.place_cases id input w
  · rw [called]
  · have mapped : (s.thunks.map f)[id]? = some (f thunk) := by rw [List.getElem?_map, cell, Option.map_some]
    obtain ⟨bound, here⟩ := List.getElem?_eq_some_iff.mp mapped
    rw [called, List.map_set, blind, ← here, List.set_getElem_self bound]

theorem place_error {thrown : String} (throws : (s.place id input w).1 = .error thrown) :
    (s.place id input w).2 = s := by
  obtain ⟨_, called⟩ | ⟨_, _, -, -, called⟩ := s.place_cases id input w
  · rw [called]
  · rw [called] at throws
    cases throws

end Shell

/-- What happens to a shell while it and its design are constructed. -/
inductive Event (Key Input Overlay World : Type) where
  | overlay (key : Key) (placer : ShellPlacer Input Overlay World)
  | place (id : ℕ) (input : Input) (w : World)

variable [DecidableEq Key]

def Shell.step (s : Shell Key Input Overlay World Outer) : Event Key Input Overlay World →
    Shell Key Input Overlay World Outer
  | .overlay key placer => (s.overlay key placer).2
  | .place id input w => (s.place id input w).2

def Shell.after (events : List (Event Key Input Overlay World)) : Shell Key Input Overlay World Outer :=
  runs Shell.step Shell.start events

/-- What was declared, in order. -/
def declarations (events : List (Event Key Input Overlay World)) : List (Key × ShellPlacer Input Overlay World) :=
  events.filterMap fun
    | .overlay key placer => some (key, placer)
    | .place _ _ _ => none

namespace Shell

variable {s : Shell Key Input Overlay World Outer} {id : ℕ}

/-- A declaration places nothing. -/
theorem get_overlay (s : Shell Key Input Overlay World Outer) (key : Key)
    (placer : ShellPlacer Input Overlay World) (id : ℕ) : (s.overlay key placer).2.get id = s.get id := by
  unfold overlay get
  rw [List.getElem?_append]
  by_cases old : id < s.thunks.length
  · rw [if_pos old]
  · rw [if_neg old, List.getElem?_eq_none (Nat.le_of_not_lt old)]
    cases id - s.thunks.length <;> simp

/-- A placed overlay stays placed. -/
theorem get_step {o : Overlay} (placed : s.get id = some o) (e : Event Key Input Overlay World) :
    (s.step e).get id = some o := by
  cases e with
  | overlay key placer => rw [step, get_overlay, placed]
  | place other input w =>
    rw [step]
    cases result : (s.place other input w).1 with
    | error thrown => rw [place_error result, placed]
    | ok it =>
      obtain ⟨fresh, stored⟩ := get_place result id
      have apart : id ≠ other := by
        intro same
        rw [← same, placed] at fresh
        cases fresh
      rw [stored, if_neg apart, placed]

theorem get_runs {o : Overlay} (placed : s.get id = some o) (events : List (Event Key Input Overlay World)) :
    (runs step s events).get id = some o :=
  runs_invariant (fun s : Shell Key Input Overlay World Outer => s.get id = some o) placed
    (fun _ e placed => get_step placed e) events

end Shell

/-! ## The chain -/

/-- The first `n` placers that stand under a key and are not placed, in order. -/
def unplaced (cells : List (Thunk Key Input Overlay World)) (n : ℕ) (key : Key) : List ℕ :=
  (List.range n).filter fun id => cells[id]?.any fun thunk => thunk.key = key && !thunk.isPlaced

/-- The links of a shell read any later cells of the same placers alike. -/
def Shell.Chained (s : Shell Key Input Overlay World Outer) : Prop :=
  ∀ cells up key, s.thunks.map Thunk.key <+: cells.map Thunk.key →
    s.overlays cells up key = (unplaced cells s.thunks.length key).map .own ++ up key

theorem unplaced_succ (cells : List (Thunk Key Input Overlay World)) (n : ℕ) (key : Key) :
    unplaced cells (n + 1) key = unplaced cells n key ++
      if cells[n]?.any (fun thunk => thunk.key = key && !thunk.isPlaced) then [n] else [] := by
  unfold unplaced
  rw [List.range_succ, List.filter_append, List.filter_singleton, Bool.cond_eq_ite]

theorem Parameters.overlay_eq {cells : List (Thunk Key Input Overlay World)} {id : ℕ}
    {thunk : Thunk Key Input Overlay World} (cell : cells[id]? = some thunk) (up : View Key Outer) (x : Key) :
    Parameters.overlay thunk.key id cells up x =
      (if thunk.key = x && !thunk.isPlaced then [.own id] else []) ++ up x := by
  unfold Parameters.overlay
  rw [cell, Option.any_some]
  by_cases here : x = thunk.key
  · subst here
    cases thunk.isPlaced <;> simp
  · have apart : thunk.key ≠ x := Ne.symm here
    simp [here, apart]

namespace Shell

variable {s : Shell Key Input Overlay World Outer}

theorem chained_start : (start : Shell Key Input Overlay World Outer).Chained := by
  intro cells up key _
  rfl

theorem chained_overlay (chained : s.Chained) (key : Key) (placer : ShellPlacer Input Overlay World) :
    (s.overlay key placer).2.Chained := by
  intro cells up x keys
  have declared : s.thunks.map Thunk.key ++ [key] <+: cells.map Thunk.key := by
    simpa [overlay] using keys
  have earlier : s.thunks.map Thunk.key <+: cells.map Thunk.key := (List.prefix_append _ _).trans declared
  have last : (cells.map Thunk.key)[s.thunks.length]? = some key := by
    obtain ⟨rest, split⟩ := declared
    rw [← split]
    simp
  rw [List.getElem?_map] at last
  obtain ⟨thunk, cell, rfl⟩ := Option.map_eq_some_iff.mp last
  have links := chained cells (Parameters.overlay thunk.key s.thunks.length cells up) x earlier
  rw [Parameters.overlay_eq cell, ← List.append_assoc] at links
  have grown : (s.overlay thunk.key placer).2.thunks.length = s.thunks.length + 1 := by simp [overlay]
  rw [grown, unplaced_succ, cell, Option.any_some, List.map_append, apply_ite (List.map _)]
  exact links

theorem chained_place (chained : s.Chained) (id : ℕ) (input : Input) (w : World) :
    (s.place id input w).2.Chained := by
  intro cells up key keys
  rw [map_thunks_place Thunk.key (fun _ _ => rfl)] at keys
  have links := chained cells up key keys
  have same : (s.place id input w).2.overlays = s.overlays := by
    obtain ⟨_, called⟩ | ⟨_, _, -, -, called⟩ := s.place_cases id input w <;> rw [called]
  have length : (s.place id input w).2.thunks.length = s.thunks.length := by
    simpa using congrArg List.length (map_thunks_place Thunk.key (fun _ _ => rfl) s id input w)
  rw [same, length, links]

theorem chained_after (events : List (Event Key Input Overlay World)) :
    (after events : Shell Key Input Overlay World Outer).Chained := by
  apply runs_invariant Chained chained_start
  intro s e chained
  cases e with
  | overlay key placer => exact chained_overlay chained key placer
  | place id input w => exact chained_place chained id input w

theorem Chained.designParameters_eq (chained : s.Chained) (p : Key → List Outer) (key : Key) :
    s.designParameters p key = (unplaced s.thunks s.thunks.length key).map .own ++ (p key).map .outer :=
  chained s.thunks _ key (List.prefix_refl _)

theorem declared_runs (s : Shell Key Input Overlay World Outer) (events : List (Event Key Input Overlay World)) :
    (runs step s events).thunks.map (fun thunk => (thunk.key, thunk.placer)) =
      s.thunks.map (fun thunk => (thunk.key, thunk.placer)) ++ declarations events := by
  induction events generalizing s with
  | nil => simp [declarations]
  | cons e events ih =>
    rw [runs_cons, ih]
    cases e with
    | overlay key placer => simp [step, overlay, declarations]
    | place id input w =>
      rw [step, map_thunks_place _ (fun _ _ => rfl)]
      simp [declarations]

theorem declared_after (Outer : Type) (events : List (Event Key Input Overlay World)) :
    (after events : Shell Key Input Overlay World Outer).thunks.map (fun thunk => (thunk.key, thunk.placer)) =
      declarations events := declared_runs start events

/-- A placer is placed when a call on it has returned, and holds what that call returned. -/
theorem get_after_iff (events : List (Event Key Input Overlay World)) (id : ℕ) (o : Overlay) :
    (after events : Shell Key Input Overlay World Outer).get id = some o ↔
      ∃ before input w later, events = before ++ .place id input w :: later ∧
        ((after before : Shell Key Input Overlay World Outer).place id input w).1 = .ok o := by
  constructor
  · induction events using List.reverseRecOn with
    | nil =>
      intro placed
      cases placed
    | append_singleton events e ih =>
      intro placed
      rw [after, runs_append, ← after, runs_cons, runs_nil] at placed
      have earlier : (after events : Shell Key Input Overlay World Outer).get id = some o →
          ∃ before input w later, events ++ [e] = before ++ .place id input w :: later ∧
            ((after before : Shell Key Input Overlay World Outer).place id input w).1 = .ok o := by
        intro placed
        obtain ⟨before, input, w, later, split, returned⟩ := ih placed
        exact ⟨before, input, w, later ++ [e], by rw [split, List.append_assoc, List.cons_append], returned⟩
      cases e with
      | overlay key placer =>
        rw [step, get_overlay] at placed
        exact earlier placed
      | place other input w =>
        rw [step] at placed
        cases result : ((after events : Shell Key Input Overlay World Outer).place other input w).1 with
        | error thrown =>
          rw [place_error result] at placed
          exact earlier placed
        | ok it =>
          rw [(get_place result id).2] at placed
          by_cases here : id = other
          · subst here
            rw [if_pos rfl] at placed
            cases placed
            exact ⟨events, input, w, [], rfl, result⟩
          · rw [if_neg here] at placed
            exact earlier placed
  · intro call
    obtain ⟨before, input, w, later, rfl, returned⟩ := call
    rw [after, runs_append, ← after, runs_cons]
    apply get_runs
    rw [step, (get_place returned id).2, if_pos rfl]

end Shell

/-! ## The law -/

/-- What the registry of a shell is after a history of declarations and calls. -/
structure Registered (p : Key → List Outer) (events : List (Event Key Input Overlay World))
    (s : Shell Key Input Overlay World Outer) : Prop where
  /-- A lookup: the placers declared under the key and not placed, in order, then `p(key)`. -/
  listed : ∀ key, s.designParameters p key =
    ((List.range (declarations events).length).filter fun id =>
      (declarations events)[id]?.any (fun declared => declared.1 = key) && (s.get id).isNone).map .own ++
        (p key).map .outer
  /-- A placer is placed when a call on it has returned, and holds what that call returned. -/
  placed : ∀ id o, s.get id = some o ↔ ∃ before input w later, events = before ++ .place id input w :: later ∧
    ((Shell.after before : Shell Key Input Overlay World Outer).place id input w).1 = .ok o
  /-- A call on an unplaced placer returns what the shell placer made, and from then on `get` does. -/
  places : ∀ id declared input w o, (declarations events)[id]? = some declared → s.get id = none →
    declared.2.place input w = .ok o →
      (s.place id input w).1 = .ok o ∧ ∀ later, (runs Shell.step (s.place id input w).2 later).get id = some o
  /-- A call on a placed one fails and changes nothing. -/
  refuses : ∀ id o input w, s.get id = some o → ∃ message, s.place id input w = (.error message, s)
  /-- So does a call whose shell placer throws. -/
  throws : ∀ id declared input w thrown, (declarations events)[id]? = some declared →
    declared.2.place input w = .error thrown → ∃ message, s.place id input w = (.error message, s)

theorem Shell.declared_cell {events : List (Event Key Input Overlay World)} {id : ℕ}
    {declared : Key × ShellPlacer Input Overlay World} (here : (declarations events)[id]? = some declared) :
    ∃ thunk, (after events : Shell Key Input Overlay World Outer).thunks[id]? = some thunk ∧
      (thunk.key, thunk.placer) = declared := by
  rw [← declared_after Outer events, List.getElem?_map] at here
  exact Option.map_eq_some_iff.mp here

theorem Shell.mem_designParameters {p : Key → List Outer} {events : List (Event Key Input Overlay World)} {id : ℕ}
    {key : Key} {placer : ShellPlacer Input Overlay World} (here : (declarations events)[id]? = some (key, placer))
    (fresh : (after events : Shell Key Input Overlay World Outer).get id = none) :
    .own id ∈ (after events).designParameters p key := by
  obtain ⟨thunk, cell, same⟩ := declared_cell here
  obtain ⟨bound, -⟩ := List.getElem?_eq_some_iff.mp cell
  rw [get, cell, Option.bind_some] at fresh
  rw [(chained_after events).designParameters_eq]
  apply List.mem_append_left
  apply List.mem_map_of_mem
  apply List.mem_filter.mpr
  constructor
  · exact List.mem_range.mpr bound
  · cases same
    simp [cell, Thunk.isPlaced, fresh]

/-- **The overlay registry**, after any interleaving of declarations and calls. -/
theorem registered_after (p : Key → List Outer) (events : List (Event Key Input Overlay World)) :
    Registered p events (Shell.after events) where
  listed key := by
    have number := congrArg List.length (Shell.declared_after Outer events)
    rw [List.length_map] at number
    rw [(Shell.chained_after events).designParameters_eq, unplaced, number]
    congr 2
    apply List.filter_congr
    intro id _
    rw [← Shell.declared_after Outer events, List.getElem?_map, Shell.get]
    cases (Shell.after events : Shell Key Input Overlay World Outer).thunks[id]? with
    | none => simp
    | some thunk => simp [Thunk.isPlaced]
  placed id o := Shell.get_after_iff events id o
  places id declared input w o here fresh returns := by
    obtain ⟨thunk, cell, rfl⟩ := Shell.declared_cell here
    have called := Shell.place_of_returns cell fresh returns
    have result : ((Shell.after events : Shell Key Input Overlay World Outer).place id input w).1 = .ok o := by
      rw [called]
    constructor
    · exact result
    · intro later
      apply Shell.get_runs
      rw [(Shell.get_place result id).2, if_pos rfl]
  refuses id o input w placed := Shell.place_of_placed placed input w
  throws id declared input w thrown here throws := by
    obtain ⟨thunk, cell, rfl⟩ := Shell.declared_cell here
    cases placed : (Shell.after events : Shell Key Input Overlay World Outer).get id with
    | some o => exact Shell.place_of_placed placed input w
    | none => exact ⟨thrown, Shell.place_of_throws cell placed throws⟩

end Registry

end Zcu102.Overlays
