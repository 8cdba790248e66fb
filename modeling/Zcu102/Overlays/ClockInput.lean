import Zcu102.Overlays.Registry

/-!
# The clock input of a shell (`ZCU102Shell`, `Arty100TShell`, `VC707BaseShell`)

Each of the three shells declares its overlays, constructs its top design, which
may place any of them, and then places the clock inputs the design did not ask for.
The module body matches on `sys_clock.get()` and has no case for `None`.

`ZCU102Shell` looks the clock inputs up in `designParameters`; the other two look
them up in `p`, where their own overlays are not.
-/

namespace Zcu102.Overlays
set_option autoImplicit false
open Zcu102.Sim

inductive OverlayKey where
  | clockInput
  | led
  | switch
  | button
  | ddr
  | uart
  | spi
  | spiFlash
  | jtagDebug
  | cJTAGDebug
  | jtagDebugBScan
  | ctsReset
  | chipLink
  deriving DecidableEq, Repr

inductive Board where
  | zcu102
  | arty100T
  | vc707Base
  deriving DecidableEq, Repr

/-- `Seq.tabulate(n)(i => Overlay(key, ..)(valName = ValName(s"name_$i")))`. -/
def tabulate (n : ℕ) (key : OverlayKey) (name : String) : List (OverlayKey × String) :=
  (List.range n).map fun i => (key, s!"{name}_{i}")

/-- The overlays of a shell, in order of declaration. -/
def Board.overlays : Board → List (OverlayKey × String)
  | .zcu102 =>
    [(.clockInput, "sys_clock")] ++ tabulate 8 .led "led" ++ tabulate 4 .switch "switch" ++
      tabulate 5 .button "button" ++
      [(.ddr, "ddr"), (.uart, "uart"), (.spi, "sdio"), (.jtagDebugBScan, "jtagBScan")]
  | .arty100T =>
    [(.clockInput, "sys_clock")] ++ tabulate 16 .led "led" ++ tabulate 4 .switch "switch" ++
      tabulate 4 .button "button" ++
      [(.ddr, "ddr"), (.uart, "uart"), (.spi, "sdio"), (.jtagDebug, "jtag"), (.cJTAGDebug, "cjtag"),
        (.spiFlash, "spi_flash"), (.ctsReset, "cts_reset"), (.jtagDebugBScan, "jtagBScan")]
  | .vc707Base =>
    [(.clockInput, "sys_clock")] ++ tabulate 8 .led "led" ++ tabulate 8 .switch "switch" ++
      tabulate 5 .button "button" ++
      [(.chipLink, "chiplink"), (.ddr, "ddr"), (.spi, "sdio"), (.jtagDebug, "jtag"), (.uart, "uart")]

/-- The number of `sys_clock`, the first overlay each shell declares. -/
def sysClock : ℕ := 0

def Board.IsClockInput (board : Board) (id : ℕ) : Prop := ∃ name, board.overlays[id]? = some (.clockInput, name)

section Construction

variable {Input Overlay World Outer : Type}

/-- What the shells are constructed in: what each shell placer makes, the parameters `p` from outside, what
placing one of theirs does, and the value of `ClockInputDesignInput()`. -/
structure Surroundings (Input Overlay World Outer : Type) where
  place : OverlayKey → String → Input → World → Except String Overlay
  p : OverlayKey → List Outer
  outerPlace : Outer → Input → World → Except String Overlay
  clockInputDesignInput : Input

/-- A call on a placer, as the top design makes it. -/
structure Placement (Input World : Type) where
  id : ℕ
  input : Input
  w : World

def Placement.event (call : Placement Input World) : Event OverlayKey Input Overlay World :=
  .place call.id call.input call.w

variable (env : Surroundings Input Overlay World Outer)

def Board.declare (board : Board) : List (Event OverlayKey Input Overlay World) :=
  board.overlays.map fun overlay => .overlay overlay.1 ⟨overlay.2, env.place overlay.1 overlay.2⟩

/-- The shell once its `topDesign` is constructed; a call of the design may fail and be caught there. -/
def designed (board : Board) (design : List (Placement Input World)) : Shell OverlayKey Input Overlay World Outer :=
  Shell.after (board.declare env ++ design.map Placement.event)

/-- The placers the step after the design goes through. -/
def Board.unused (board : Board) (s : Shell OverlayKey Input Overlay World Outer) : List (DesignPlacer Outer) :=
  match board with
  | .zcu102 => s.designParameters env.p .clockInput
  | .arty100T => (env.p .clockInput).map .outer
  | .vc707Base => (env.p .clockInput).map .outer

/-- `foreach { unused => unused.place(ClockInputDesignInput()) }`: the first exception ends it. -/
def placeEach (world : DesignPlacer Outer → World) : List (DesignPlacer Outer) →
    Shell OverlayKey Input Overlay World Outer → Except String Unit × Shell OverlayKey Input Overlay World Outer
  | [], s => (.ok (), s)
  | .own id :: rest, s =>
    match s.place id env.clockInputDesignInput (world (.own id)) with
    | (.error thrown, s') => (.error thrown, s')
    | (.ok _, s') => placeEach world rest s'
  | .outer placer :: rest, s =>
    match env.outerPlace placer env.clockInputDesignInput (world (.outer placer)) with
    | .error thrown => (.error thrown, s)
    | .ok _ => placeEach world rest s

/-- The constructor, up to the end of the step that places the clock inputs. -/
def construct (board : Board) (design : List (Placement Input World)) (world : DesignPlacer Outer → World) :
    Except String Unit × Shell OverlayKey Input Overlay World Outer :=
  placeEach env world (board.unused env (designed env board design)) (designed env board design)

/-- `sys_clock.get() match { case Some(x) => x.clock }`. -/
def sysclk (s : Shell OverlayKey Input Overlay World Outer) : Except String Overlay :=
  match s.get sysClock with
  | some x => .ok x
  | none => .error "MatchError"

/-! ## How often an overlay is placed -/

section Placements

variable {Key : Type} [DecidableEq Key]

/-- Whether an event is a call on a placer that returns. -/
def Event.placesAt (s : Shell Key Input Overlay World Outer) (id : ℕ) : Event Key Input Overlay World → Bool
  | .overlay _ _ => false
  | .place other input w => other = id && (s.place other input w).1.isOk

/-- How many calls on a placer return along a run. -/
def placements (s : Shell Key Input Overlay World Outer) (id : ℕ) : List (Event Key Input Overlay World) → ℕ
  | [] => 0
  | e :: es => (e.placesAt s id).toNat + placements (s.step e) id es

theorem placesAt_step (s : Shell Key Input Overlay World Outer) (id : ℕ) (e : Event Key Input Overlay World) :
    (e.placesAt s id).toNat + (s.get id).isSome.toNat = ((s.step e).get id).isSome.toNat := by
  cases e with
  | overlay key placer => simp [Event.placesAt, Shell.step, Shell.get_overlay]
  | place other input w =>
    rw [Shell.step, Event.placesAt]
    cases result : (s.place other input w).1 with
    | error thrown => simp [Shell.place_error result, Except.isOk, Except.toBool]
    | ok it =>
      obtain ⟨fresh, stored⟩ := Shell.get_place result id
      rw [stored]
      by_cases here : other = id
      · subst here
        simp [fresh, Except.isOk, Except.toBool]
      · simp [here, Ne.symm here]

/-- Of the calls on a placer at most one returns, and one does when it ends up placed. -/
theorem placements_runs (s : Shell Key Input Overlay World Outer) (id : ℕ)
    (events : List (Event Key Input Overlay World)) :
    placements s id events + (s.get id).isSome.toNat = ((runs Shell.step s events).get id).isSome.toNat := by
  induction events generalizing s with
  | nil => simp [placements]
  | cons e events ih =>
    have first := placesAt_step s id e
    have rest := ih (s.step e)
    rw [placements, runs_cons]
    omega

end Placements

/-! ## The step after the design -/

variable {env : Surroundings Input Overlay World Outer}

/-- The calls of the step on placers of this shell. -/
def ownCalls (env : Surroundings Input Overlay World Outer) (world : DesignPlacer Outer → World) :
    List (DesignPlacer Outer) → List (Event OverlayKey Input Overlay World)
  | [] => []
  | .own id :: rest => .place id env.clockInputDesignInput (world (.own id)) :: ownCalls env world rest
  | .outer _ :: rest => ownCalls env world rest

theorem ownCalls_outer (world : DesignPlacer Outer → World) (placers : List Outer) :
    ownCalls env world (placers.map .outer) = [] := by
  induction placers with
  | nil => rfl
  | cons placer rest ih => rw [List.map_cons, ownCalls, ih]

/-- When the step completes, each of its calls on a placer of this shell was made and returned. -/
theorem placeEach_ok {world : DesignPlacer Outer → World} {unused : List (DesignPlacer Outer)}
    {s : Shell OverlayKey Input Overlay World Outer} (completed : (placeEach env world unused s).1 = .ok ()) :
    (placeEach env world unused s).2 = runs Shell.step s (ownCalls env world unused) ∧
      ∀ id, .own id ∈ unused → ∃ o, (placeEach env world unused s).2.get id = some o := by
  induction unused generalizing s with
  | nil =>
    constructor
    · rfl
    · intro id mem
      cases mem
  | cons placer rest ih =>
    cases placer with
    | outer placer =>
      rw [placeEach] at completed ⊢
      cases made : env.outerPlace placer env.clockInputDesignInput (world (.outer placer)) with
      | error thrown => rw [made] at completed; cases completed
      | ok o =>
        rw [made] at completed
        obtain ⟨state, placed⟩ := ih completed
        constructor
        · exact state
        · intro id mem
          apply placed
          simpa using mem
    | own first =>
      rw [placeEach] at completed ⊢
      cases called : s.place first env.clockInputDesignInput (world (.own first)) with
      | mk result next =>
        rw [called] at completed
        cases result with
        | error thrown => cases completed
        | ok o =>
          obtain ⟨state, placed⟩ := ih completed
          have stepped : s.step (.place first env.clockInputDesignInput (world (.own first))) = next := by
            rw [Shell.step, called]
          constructor
          · rw [ownCalls, runs_cons, stepped]
            exact state
          · intro id mem
            obtain same | later := List.mem_cons.mp mem
            · obtain rfl := DesignPlacer.own.inj same
              rw [state]
              exact ⟨o, Shell.get_runs (Shell.get_placed called) _⟩
            · exact placed id later

/-! ## Clock inputs -/

theorem sysClock_isClockInput (board : Board) : board.IsClockInput sysClock := by
  cases board <;> exact ⟨"sys_clock", rfl⟩

theorem declared_clockInput {board : Board} {id : ℕ} (clock : board.IsClockInput id)
    (design : List (Placement Input World)) :
    ∃ placer, (declarations (board.declare env ++ design.map Placement.event))[id]? = some (.clockInput, placer) := by
  obtain ⟨name, here⟩ := clock
  have declared : declarations (board.declare env) =
      board.overlays.map fun overlay => (overlay.1, ⟨overlay.2, env.place overlay.1 overlay.2⟩) := by
    rw [declarations, Board.declare, List.filterMap_map]
    exact congrFun List.filterMap_eq_map board.overlays
  have calls : declarations (design.map Placement.event : List (Event OverlayKey Input Overlay World)) = [] := by
    simp [declarations, Placement.event]
  rw [declarations, List.filterMap_append, ← declarations, ← declarations, declared, calls, List.append_nil,
    List.getElem?_map, here]
  exact ⟨_, rfl⟩

/-- Everything that happens to the registry when the constructor runs to the end of the step. -/
def history (env : Surroundings Input Overlay World Outer) (board : Board) (design : List (Placement Input World))
    (world : DesignPlacer Outer → World) : List (Event OverlayKey Input Overlay World) :=
  board.declare env ++ design.map Placement.event ++ ownCalls env world (board.unused env (designed env board design))

/-- Every clock input of the shell is placed exactly once, and the match in the module body has its case. -/
structure ClocksPlaced (env : Surroundings Input Overlay World Outer) (board : Board)
    (design : List (Placement Input World)) (world : DesignPlacer Outer → World) : Prop where
  once : ∀ id, board.IsClockInput id →
    placements (Shell.start : Shell OverlayKey Input Overlay World Outer) id (history env board design world) = 1
  matched : ∃ x, sysclk (construct env board design world).2 = .ok x

section Completed

variable {board : Board} {design : List (Placement Input World)} {world : DesignPlacer Outer → World}

theorem construct_state (completed : (construct env board design world).1 = .ok ()) :
    (construct env board design world).2 = Shell.after (history env board design world) := by
  rw [construct, (placeEach_ok completed).1, history, Shell.after, runs_append]
  rfl

theorem placements_history (completed : (construct env board design world).1 = .ok ()) (id : ℕ) :
    placements (Shell.start : Shell OverlayKey Input Overlay World Outer) id (history env board design world) =
      ((construct env board design world).2.get id).isSome.toNat := by
  rw [construct_state completed, Shell.after, ← placements_runs]
  rfl

/-- All that is asked is that the clock inputs are placed at the end. -/
theorem clocksPlaced_iff (completed : (construct env board design world).1 = .ok ()) :
    ClocksPlaced env board design world ↔
      ∀ id, board.IsClockInput id → ((construct env board design world).2.get id).isSome = true := by
  constructor
  · intro placed id clock
    have once := placed.once id clock
    rw [placements_history completed] at once
    exact Bool.toNat_eq_one.mp once
  · intro placed
    constructor
    · intro id clock
      rw [placements_history completed, placed id clock, Bool.toNat_true]
    · obtain ⟨x, got⟩ := Option.isSome_iff_exists.mp (placed sysClock (sysClock_isClockInput board))
      exact ⟨x, by rw [sysclk, got]⟩

/-- `ZCU102Shell` places what the design left. -/
theorem zcu102_places (completed : (construct env .zcu102 design world).1 = .ok ()) {id : ℕ}
    (clock : Board.zcu102.IsClockInput id) : ((construct env .zcu102 design world).2.get id).isSome = true := by
  cases before : (designed env .zcu102 design).get id with
  | some o =>
    rw [construct, (placeEach_ok completed).1, Shell.get_runs before, Option.isSome_some]
  | none =>
    obtain ⟨placer, declared⟩ := declared_clockInput clock design
    have listed : .own id ∈ Board.zcu102.unused env (designed env .zcu102 design) :=
      Shell.mem_designParameters declared before
    obtain ⟨o, placed⟩ := (placeEach_ok completed).2 id listed
    rw [construct, placed, Option.isSome_some]

/-- The step of the other shells leaves their own overlays alone. -/
theorem other_idle (other : board ≠ .zcu102) (completed : (construct env board design world).1 = .ok ()) :
    (construct env board design world).2 = designed env board design := by
  have outside : board.unused env (designed env board design) = (env.p .clockInput).map .outer := by
    cases board with
    | zcu102 => exact absurd rfl other
    | arty100T => rfl
    | vc707Base => rfl
  rw [construct, (placeEach_ok completed).1, outside, ownCalls_outer, runs_nil]

/-- **No clock input is left unplaced**, exactly when the shell looks in `designParameters` or the design
placed them all. -/
theorem clock_inputs_placed_iff (completed : (construct env board design world).1 = .ok ()) :
    ClocksPlaced env board design world ↔
      board = .zcu102 ∨ ∀ id, board.IsClockInput id → ((designed env board design).get id).isSome = true := by
  rw [clocksPlaced_iff completed]
  by_cases own : board = .zcu102
  · subst own
    exact iff_of_true (fun id clock => zcu102_places completed clock) (Or.inl rfl)
  · rw [other_idle own completed]
    simp [own]

end Completed

end Construction

/-- Shell placers that make their overlay's name, and nothing outside. -/
def plainSurroundings : Surroundings Unit String Unit Empty where
  place _ name _ _ := .ok name
  p _ := []
  outerPlace placer := placer.elim
  clockInputDesignInput := ()

theorem clock_inputs_placed_zcu102 :
    (construct plainSurroundings .zcu102 [] fun _ => ()).1 = .ok () ∧
      ClocksPlaced plainSurroundings .zcu102 [] (fun _ => ()) :=
  ⟨rfl, (clock_inputs_placed_iff rfl).mpr (.inl rfl)⟩

/-- A design that places nothing leaves `Arty100TShell` without its clock. -/
theorem arty_clock_unplaced :
    (construct plainSurroundings .arty100T [] fun _ => ()).1 = .ok () ∧
      ¬ ClocksPlaced plainSurroundings .arty100T [] (fun _ => ()) := by
  constructor
  · rfl
  · intro placed
    obtain ⟨x, got⟩ := placed.matched
    cases got

end Zcu102.Overlays
