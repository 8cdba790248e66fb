import Zcu102.Shell.Sdc

/-!
# The text of the constraints

The emitted file is the rendering of the document its calls ask for, but for two
things. Whether there is a clock group command is decided by the number of thunks, so
groups that are all empty leave the bare command behind. And `stripMargin` runs over
the interpolated text, so a name that puts blanks and a bar at the start of a line
loses them.
-/

namespace Zcu102.Shell
set_option autoImplicit false
open Zcu102.Sim

/-! ## Commands -/

/-- A text that starts with words of its own. -/
def Command (t : Text) : Prop := ∃ words rest, Solid words ∧ t = words ++ rest

theorem Command.unbarred {t : Text} (command : Command t) (start : Bool) : unbarred start t = unbarred true t := by
  obtain ⟨words, rest, solid, same⟩ := command
  rw [same, solid.unbarred_append, solid.unbarred_append]

theorem Command.ne_nil {t : Text} (command : Command t) : t ≠ [] := by
  obtain ⟨words, rest, solid, same⟩ := command
  intro empty
  have none : words = [] := (List.append_eq_nil_iff.mp (same.symm.trans empty)).1
  rw [none] at solid
  exact absurd (solid true).2 (by decide)

theorem unbarred_sdcPin (start : Bool) (pin : IOPin) : unbarred start pin.sdcPin = unbarred false pin.name := by
  have close : Solid "\x7d]".toList := solid_literal (by decide)
  have pins : Solid "[get_pins \x7b".toList := solid_literal (by decide)
  have ports : Solid "[get_ports \x7b".toList := solid_literal (by decide)
  unfold IOPin.sdcPin
  rw [List.append_assoc]
  split
  · rw [pins.unbarred_append, close.unbarred_last]
  · rw [ports.unbarred_append, close.unbarred_last]

theorem unbarred_blank_sdcPin (start : Bool) (pin : IOPin) :
    unbarred start (" ".toList ++ pin.sdcPin) = unbarred false pin.name := by
  have blank : ∀ start, unbarred start " ".toList = true := by decide
  rw [unbarred_append, blank, unbarred_sdcPin, Bool.true_and]

variable {E : Type} {N : Numerals}

theorem solid_createClock : Solid "create_clock -name ".toList := solid_literal (by decide)
theorem solid_setInputJitter : Solid "set_input_jitter ".toList := solid_literal (by decide)
theorem solid_createGeneratedClock : Solid "create_generated_clock -name ".toList := solid_literal (by decide)
theorem solid_setFalsePath : Solid "set_false_path".toList := solid_literal (by decide)

theorem unbarred_createClock (name : Text) (freqMHz : N.Double) (pin : IOPin) :
    unbarred true (createClock N name freqMHz pin) = (unbarred false name && unbarred false pin.name) := by
  have period : Solid " -period ".toList := solid_literal (by decide)
  unfold createClock
  rw [solid_createClock.unbarred_append, period.unbarred_arg, unbarred_append, (N.double_plain _).unbarred,
    unbarred_blank_sdcPin, Bool.true_and]

theorem unbarred_setInputJitter (name : Text) (jitterNs : N.Double) :
    unbarred true (setInputJitter N name jitterNs) = unbarred false name := by
  have blank : ∀ start, unbarred start " ".toList = true := by decide
  unfold setInputJitter
  rw [solid_setInputJitter.unbarred_append, unbarred_append, unbarred_append, blank, (N.double_plain _).unbarred,
    Bool.true_and, Bool.and_true]

theorem unbarred_createGeneratedClock (name : Text) (div : ℤ) (source sink : IOPin) :
    unbarred true (createGeneratedClock N name div source sink) =
      (unbarred false name && (unbarred false source.name && unbarred false sink.name)) := by
  have divide : Solid " -divide_by ".toList := solid_literal (by decide)
  have word : Solid " -source ".toList := solid_literal (by decide)
  unfold createGeneratedClock
  rw [solid_createGeneratedClock.unbarred_append, divide.unbarred_arg, word.unbarred_arg,
    (N.int_plain _).unbarred, Bool.true_and, unbarred_append, unbarred_sdcPin, unbarred_blank_sdcPin]

theorem unbarred_setFalsePath (through : List IOPin) :
    unbarred true (setFalsePath through) = through.all fun pin => unbarred false pin.name := by
  have via : Solid " -through ".toList := solid_literal (by decide)
  have paths : ∀ start, unbarred start (through.flatMap fun x => " -through ".toList ++ x.sdcPin) =
      through.all fun pin => unbarred false pin.name := by
    induction through with
    | nil =>
      intro start
      rfl
    | cons pin through ih =>
      intro start
      rw [List.flatMap_cons, List.append_assoc, via.unbarred_append, unbarred_append, unbarred_sdcPin, ih,
        List.all_cons]
  unfold setFalsePath
  rw [solid_setFalsePath.unbarred_append, paths]

theorem unbarred_setDelay {words : Text} (solid : Solid words) (x : N.Double) (clock : Text) (port : IOPin) :
    unbarred true (setDelay N words x clock port) = (unbarred false clock && unbarred false port.name) := by
  have of : Solid " -clock ".toList := solid_literal (by decide)
  unfold setDelay
  rw [solid.unbarred_append, of.unbarred_arg, (N.fixed_plain _).unbarred, Bool.true_and, unbarred_append,
    unbarred_blank_sdcPin]

/-- A list in a clause: each of its names starts a line. -/
theorem unbarred_listing {start close : Text} (opens : Solid start) (closes : Solid close) (names : List Text)
    {rest : Text} (begins : ∀ state, unbarred state rest = unbarred false rest) (state : Bool) :
    unbarred state (listing start names close ++ rest) = (names.all (unbarred true) && unbarred false rest) := by
  have sep : Breaks " \\\n      ".toList := breaks_literal (by decide)
  cases names with
  | nil => rw [listing, List.isEmpty_nil, if_pos rfl, List.nil_append, begins, List.all_nil, Bool.true_and]
  | cons name names =>
    rw [listing, List.isEmpty_cons, if_neg Bool.false_ne_true, List.append_assoc, closes.unbarred_arg,
      unbarred_mkString sep, (opens state).1, Bool.true_and]

theorem unbarred_groupClause (clocks pins ports : List Text) (start : Bool) :
    unbarred start (groupClause clocks pins ports) =
      (clocks.all (unbarred true) && (pins.all (unbarred true) && ports.all (unbarred true))) := by
  have words : Solid "  -group [list".toList := solid_literal (by decide)
  have closes : Solid " \\\n    \x7d]]".toList := solid_literal (by decide)
  have ends : ∀ state, unbarred state "]".toList = true := by decide
  have byPorts := unbarred_listing (solid_literal (by decide) : Solid " [get_clocks -of_objects [get_ports \x7b".toList)
    closes ports (fun state => (ends state).trans (ends false).symm)
  rw [ends] at byPorts
  have byPins := unbarred_listing (solid_literal (by decide) : Solid " [get_clocks -of_objects [get_pins \x7b".toList)
    closes pins (fun state => (byPorts state).trans (byPorts false).symm)
  rw [byPorts] at byPins
  have byClocks := unbarred_listing (solid_literal (by decide) : Solid " [get_clocks \x7b".toList)
    (solid_literal (by decide) : Solid " \\\n    \x7d]".toList) clocks
    (fun state => (byPins state).trans (byPins false).symm)
  rw [byPins, Bool.and_true] at byClocks
  unfold groupClause
  rw [words.unbarred_append, byClocks]

/-! ## The commands of a call -/

namespace Call

theorem delays_solid (timing : IOTiming N) (way : Direction) : ∀ delay ∈ timing.delays way, Solid delay.1 := by
  have minInput : Solid "set_input_delay  -min ".toList := solid_literal (by decide)
  have maxInput : Solid "set_input_delay  -max ".toList := solid_literal (by decide)
  have minOutput : Solid "set_output_delay -min ".toList := solid_literal (by decide)
  have maxOutput : Solid "set_output_delay -max ".toList := solid_literal (by decide)
  cases way with
  | unspecified => exact fun delay mem => absurd mem List.not_mem_nil
  | input => exact List.forall_mem_cons.mpr ⟨minInput, List.forall_mem_singleton.mpr maxInput⟩
  | output => exact List.forall_mem_cons.mpr ⟨minOutput, List.forall_mem_singleton.mpr maxOutput⟩
  | bidirectional =>
    exact List.forall_mem_cons.mpr ⟨minInput, List.forall_mem_cons.mpr ⟨maxInput, List.forall_mem_cons.mpr
      ⟨minOutput, List.forall_mem_singleton.mpr maxOutput⟩⟩⟩

theorem delays_ne_nil (timing : IOTiming N) {way : Direction} (specified : way ≠ .unspecified) :
    ∃ delay, delay ∈ timing.delays way := by
  cases way with
  | unspecified => exact absurd rfl specified
  | input => exact ⟨_, List.mem_cons_self⟩
  | output => exact ⟨_, List.mem_cons_self⟩
  | bidirectional => exact ⟨_, List.mem_cons_self⟩

/-- Whatever a call adds outside the groups is a command. -/
theorem commands (e : E) (call : Call N E) : (∀ t ∈ call.clocks e, Command t) ∧ (∀ t ∈ call.falses e, Command t) ∧
    ∀ t ∈ call.timings e, Command t := by
  have nothing : ∀ t ∈ ([] : List Text), Command t := fun t mem => absurd mem List.not_mem_nil
  cases call with
  | addClock name pin freqMHz jitterNs =>
    refine ⟨fun t mem => ?_, nothing, nothing⟩
    obtain first | second := List.mem_pair.mp mem
    · exact ⟨_, _, solid_createClock, first⟩
    · exact ⟨_, _, solid_setInputJitter, second⟩
  | addDerivedClock name source sink div =>
    exact ⟨fun t mem => ⟨_, _, solid_createGeneratedClock, List.mem_singleton.mp mem⟩, nothing, nothing⟩
  | addGroup clocks pins => exact ⟨nothing, nothing, nothing⟩
  | addAsyncPath through =>
    exact ⟨nothing, fun t mem => ⟨_, _, solid_setFalsePath, List.mem_singleton.mp mem⟩, nothing⟩
  | addIOTiming io clock timing =>
    refine ⟨nothing, nothing, fun t mem => ?_⟩
    obtain ⟨delay, here, same⟩ := List.mem_map.mp mem
    exact ⟨_, _, delays_solid _ _ delay here, same.symm⟩

/-- A pin whose timing is added goes some way. -/
def Specified : Call N E → Prop
  | addIOTiming io _ _ => io.direction ≠ .unspecified
  | addClock _ _ _ _ => True
  | addDerivedClock _ _ _ _ => True
  | addGroup _ _ => True
  | addAsyncPath _ => True

/-- No name of a call puts blanks and a bar at the start of a line: in a group every name starts a line, elsewhere
a name does so only after a line break of its own. -/
def Flush (e : E) : Call N E → Prop
  | addClock name pin _ _ => unbarred false (name e) = true ∧ unbarred false (pin e).name = true
  | addDerivedClock name source sink _ =>
    unbarred false (name e) = true ∧ unbarred false (source e).name = true ∧ unbarred false (sink e).name = true
  | addGroup clocks pins =>
    (∀ clock ∈ clocks e, unbarred true clock = true) ∧ ∀ pin ∈ pins e, unbarred true pin.name = true
  | addAsyncPath through => ∀ pin ∈ through e, unbarred false pin.name = true
  | addIOTiming io clock _ => unbarred false (clock e) = true ∧ unbarred false io.name = true

end Call

theorem document_commands (e : E) (calls : List (Call N E)) : (∀ t ∈ (document e calls).clocks, Command t) ∧
    (∀ t ∈ (document e calls).falses, Command t) ∧ ∀ t ∈ (document e calls).timings, Command t :=
  ⟨List.forall_mem_flatMap.mpr fun call _ => (call.commands e).1,
    List.forall_mem_flatMap.mpr fun call _ => (call.commands e).2.1,
    List.forall_mem_flatMap.mpr fun call _ => (call.commands e).2.2⟩

def ClockGroup.flush (g : ClockGroup) : Bool :=
  g.clocks.all (unbarred true) && (g.pins.all (unbarred true) && g.ports.all (unbarred true))

/-- The names of the pins of a group, sorted into pins and ports. -/
theorem forall_names_iff {P : Text → Prop} (names : List Text) (p : Text → Bool) :
    ((∀ t ∈ names.filter p, P t) ∧ ∀ t ∈ names.filter fun t => !p t, P t) ↔ ∀ t ∈ names, P t := by
  simp only [List.mem_filter]
  constructor
  · intro both t mem
    cases sorted : p t with
    | true => exact both.1 t ⟨mem, sorted⟩
    | false => exact both.2 t ⟨mem, by rw [sorted]; rfl⟩
  · intro all
    exact ⟨fun t found => all t found.1, fun t found => all t found.1⟩

/-- The commands of a call are unbarred exactly when its names are flush. -/
theorem Call.flush_iff {e : E} {call : Call N E} (specified : call.Specified) :
    call.Flush e ↔ (∀ t ∈ call.clocks e, unbarred true t = true) ∧ (∀ g ∈ call.group e, g.flush = true) ∧
      (∀ t ∈ call.falses e, unbarred true t = true) ∧ ∀ t ∈ call.timings e, unbarred true t = true := by
  cases call with
  | addClock name pin freqMHz jitterNs =>
    simp [Flush, clocks, group, falses, timings, unbarred_createClock, unbarred_setInputJitter, and_assoc]
    tauto
  | addDerivedClock name source sink div =>
    simp [Flush, clocks, group, falses, timings, unbarred_createGeneratedClock]
  | addGroup clocksOf pins =>
    have names := forall_names_iff (P := fun t => unbarred true t = true) ((pins e).map IOPin.name)
      fun t => t.contains '/'
    rw [List.forall_mem_map] at names
    simp only [Flush, clocks, group, falses, timings, ClockGroup.flush, Bool.and_eq_true, List.all_eq_true,
      Option.mem_some_iff, forall_eq', List.not_mem_nil, false_implies, implies_true, true_and, and_true]
    rw [names]
  | addAsyncPath through => simp [Flush, clocks, group, falses, timings, unbarred_setFalsePath]
  | addIOTiming io clock timing =>
    obtain ⟨first, here⟩ := delays_ne_nil (timing e) specified
    have delays : (∀ t ∈ timings e (addIOTiming io clock timing), unbarred true t = true) ↔
        (unbarred false (clock e) && unbarred false io.name) = true := by
      rw [timings, List.forall_mem_map]
      constructor
      · intro all
        rw [← unbarred_setDelay (delays_solid _ _ first here) first.2]
        exact all first here
      · intro flush delay mem
        rw [unbarred_setDelay (delays_solid _ _ delay mem)]
        exact flush
    simp [Flush, clocks, group, falses, delays]

/-! ## What the calls leave in the lists -/

/-- The thunk of a group. -/
def ClockGroup.clause (g : ClockGroup) : Text := if g.isEmpty then [] else groupClause g.clocks g.pins g.ports

/-- The commands of a list, in order. -/
def evaluated (x : List (E → Text)) (e : E) : List Text := (x.map fun command => command e).reverse

theorem evaluated_cons (command : E → Text) (x : List (E → Text)) (e : E) :
    evaluated (command :: x) e = evaluated x e ++ [command e] := List.reverse_cons

theorem evaluated_pair (first second : E → Text) (x : List (E → Text)) (e : E) :
    evaluated (second :: first :: x) e = evaluated x e ++ [first e, second e] := by
  rw [evaluated_cons, evaluated_cons, List.append_assoc, List.singleton_append]

structure Collected (sdc : Sdc E) (e : E) (calls : List (Call N E)) : Prop where
  clocks : evaluated sdc.clocks e = calls.flatMap (Call.clocks e)
  groups : evaluated sdc.groups e = setClockGroups :: (calls.filterMap (Call.group e)).map ClockGroup.clause
  falses : evaluated sdc.falses e = calls.flatMap (Call.falses e)
  timings : evaluated sdc.timings e = calls.flatMap (Call.timings e)
  specified : ∀ call ∈ calls, call.Specified

theorem collected_start (e : E) : Collected (N := N) Sdc.start e [] where
  clocks := rfl
  groups := rfl
  falses := rfl
  timings := rfl
  specified _ mem := absurd mem List.not_mem_nil

/-- What a call adds to each list. -/
structure Adds (sdc sdc' : Sdc E) (e : E) (call : Call N E) : Prop where
  clocks : evaluated sdc'.clocks e = evaluated sdc.clocks e ++ call.clocks e
  groups : evaluated sdc'.groups e = evaluated sdc.groups e ++ (call.group e).toList.map ClockGroup.clause
  falses : evaluated sdc'.falses e = evaluated sdc.falses e ++ call.falses e
  timings : evaluated sdc'.timings e = evaluated sdc.timings e ++ call.timings e
  specified : call.Specified

theorem adds_group (sdc : Sdc E) (e : E) (clocks : E → List Text) (pins : E → List IOPin) :
    Adds sdc (sdc.addGroup clocks pins) e (Call.addGroup (N := N) clocks pins) where
  clocks := (List.append_nil _).symm
  groups := by
    rw [Sdc.addGroup, Sdc.addRawGroup, evaluated_cons, List.partition_eq_filter_filter]
    rfl
  falses := (List.append_nil _).symm
  timings := (List.append_nil _).symm
  specified := trivial

theorem adds_timing {sdc sdc' : Sdc E} {io : IOPin} {clock : E → Text} {timing : E → IOTiming N}
    (returned : sdc.addIOTiming N io clock timing = .ok sdc') (e : E) :
    Adds sdc sdc' e (.addIOTiming io clock timing) := by
  unfold Sdc.addIOTiming IOPin.isInput IOPin.isOutput at returned
  have none (x : List Text) : x = x ++ [] := (List.append_nil x).symm
  have delays {way : Direction} (same : io.direction = way) : Call.timings e (.addIOTiming io clock timing) =
      ((timing e).delays way).map fun delay => setDelay N delay.1 delay.2 (clock e) io := by
    rw [Call.timings, same]
  have specified {way : Direction} (same : io.direction = way) (goes : way ≠ .unspecified) :
      Call.Specified (.addIOTiming io clock timing) := by
    rw [Call.Specified, same]
    exact goes
  cases way : io.direction with
  | unspecified =>
    rw [way] at returned
    cases returned
  | input =>
    rw [way] at returned
    cases returned
    exact ⟨none _, none _, none _, by rw [delays way]; exact evaluated_pair _ _ _ e, specified way (by decide)⟩
  | output =>
    rw [way] at returned
    cases returned
    exact ⟨none _, none _, none _, by rw [delays way]; exact evaluated_pair _ _ _ e, specified way (by decide)⟩
  | bidirectional =>
    rw [way] at returned
    cases returned
    -- the output delays come on top of the input delays
    have both (x : List (E → Text)) (t t' u u' : E → Text) :
        evaluated (u' :: u :: t' :: t :: x) e = evaluated x e ++ [t e, t' e, u e, u' e] := by
      rw [evaluated_pair, evaluated_pair, List.append_assoc, List.cons_append, List.singleton_append]
    exact ⟨none _, none _, none _, by rw [delays way]; exact both _ _ _ _ _, specified way (by decide)⟩

theorem adds {sdc sdc' : Sdc E} {call : Call N E} (returned : sdc.call call = .ok sdc') (e : E) :
    Adds sdc sdc' e call := by
  have none (x : List Text) : x = x ++ [] := (List.append_nil x).symm
  cases call with
  | addClock name pin freqMHz jitterNs =>
    cases returned
    exact ⟨evaluated_pair _ _ _ e, none _, none _, none _, trivial⟩
  | addDerivedClock name source sink div =>
    cases returned
    exact ⟨evaluated_cons _ _ e, none _, none _, none _, trivial⟩
  | addGroup clocks pins =>
    cases returned
    exact adds_group sdc e clocks pins
  | addAsyncPath through =>
    cases returned
    exact ⟨none _, none _, evaluated_cons _ _ e, none _, trivial⟩
  | addIOTiming io clock timing => exact adds_timing returned e

theorem Collected.call {sdc sdc' : Sdc E} {e : E} {calls : List (Call N E)} {call : Call N E}
    (collected : Collected sdc e calls) (returned : sdc.call call = .ok sdc') : Collected sdc' e (calls ++ [call]) := by
  obtain ⟨clocks, groups, falses, timings, specified⟩ := adds returned e
  constructor
  · rw [clocks, collected.clocks, List.flatMap_append, List.flatMap_singleton]
  · rw [groups, collected.groups, List.filterMap_append, List.map_append, List.cons_append]
    cases added : call.group e <;> simp [added]
  · rw [falses, collected.falses, List.flatMap_append, List.flatMap_singleton]
  · rw [timings, collected.timings, List.flatMap_append, List.flatMap_singleton]
  · intro other mem
    obtain before | last := List.mem_append.mp mem
    · exact collected.specified other before
    · rw [List.mem_singleton.mp last]
      exact specified

theorem collected_runs {sdc sdc' : Sdc E} {e : E} {before calls : List (Call N E)} (collected : Collected sdc e before)
    (returned : calls.foldlM Sdc.call sdc = .ok sdc') : Collected sdc' e (before ++ calls) := by
  induction calls generalizing sdc before with
  | nil =>
    cases returned
    rw [List.append_nil]
    exact collected
  | cons call calls ih =>
    rw [List.foldlM_cons] at returned
    cases first : sdc.call call with
    | error message =>
      rw [first] at returned
      cases returned
    | ok next =>
      rw [first] at returned
      have all := ih (collected.call first) returned
      rwa [List.append_assoc] at all

/-! ## Sections -/

/-- The emitted clause of a group is kept exactly when the group is not empty. -/
theorem filter_clauses (groups : List ClockGroup) :
    (groups.map ClockGroup.clause).filter (fun t => !t.isEmpty) =
      (groups.filter fun g => !g.isEmpty).map fun g => groupClause g.clocks g.pins g.ports := by
  induction groups with
  | nil => rfl
  | cons g groups ih =>
    rw [List.map_cons, List.filter_cons, ih, List.filter_cons, ClockGroup.clause]
    cases empty : g.isEmpty with
    | true => rfl
    | false =>
      have kept : (groupClause g.clocks g.pins g.ports).isEmpty = false := rfl
      simp [kept]

theorem flatten_eq (x : List (E → Text)) (sep : Text) (e : E) :
    Sdc.flatten x sep e = mkString sep ((evaluated x e).filter fun t => !t.isEmpty) := by
  rw [Sdc.flatten, evaluated, List.filter_reverse]

theorem flatten_commands {x : List (E → Text)} {e : E} {ts : List Text} (same : evaluated x e = ts)
    (commands : ∀ t ∈ ts, Command t) : Sdc.flatten x ['\n'] e = mkString ['\n'] ts := by
  rw [flatten_eq, same, List.filter_eq_self.mpr]
  intro t mem
  rw [Bool.not_eq_true', List.isEmpty_eq_false_iff]
  exact (commands t mem).ne_nil

/-- A section of commands survives exactly when none of its commands has a barred line. -/
theorem strip_commands_iff {ts : List Text} (commands : ∀ t ∈ ts, Command t) :
    stripFrom none (mkString ['\n'] ts) = mkString ['\n'] ts ↔ ∀ t ∈ ts, unbarred true t = true := by
  have sep : Breaks ['\n'] := by decide
  rw [(strip_eq_iff _).1]
  cases ts with
  | nil => simp [mkString, unbarred]
  | cons t ts =>
    rw [unbarred_mkString sep, (commands t List.mem_cons_self).unbarred, Bool.and_eq_true, List.all_eq_true,
      List.forall_mem_cons]

/-- The section of the clock groups, as emitted. -/
def emittedGroups (groups : List ClockGroup) : Text :=
  if groups.isEmpty then []
  else mkString " \\\n".toList (setClockGroups :: (groups.filter fun g => !g.isEmpty).map fun g =>
    groupClause g.clocks g.pins g.ports)

theorem empty_flush {g : ClockGroup} (empty : g.isEmpty = true) : g.flush = true := by
  simp only [ClockGroup.isEmpty, Bool.and_eq_true, List.isEmpty_iff] at empty
  simp [ClockGroup.flush, empty]

theorem clauses_flush_iff (groups : List ClockGroup) :
    (groups.filter fun g => !g.isEmpty).all (unbarred true ∘ fun g => groupClause g.clocks g.pins g.ports) = true ↔
      ∀ g ∈ groups, g.flush = true := by
  rw [List.all_eq_true]
  constructor
  · intro kept g mem
    cases empty : g.isEmpty with
    | true => exact empty_flush empty
    | false =>
      have clause := kept g (List.mem_filter.mpr ⟨mem, by rw [empty]; rfl⟩)
      rwa [Function.comp_apply, unbarred_groupClause] at clause
  · intro all g mem
    rw [Function.comp_apply, unbarred_groupClause]
    exact all g (List.mem_filter.mp mem).1

/-- A query of a clause. -/
theorem query_eq (opening : Text) (names : List Text) (closing : Text) :
    (if !names.isEmpty then opening ++ (names.flatMap (" \\\n      ".toList ++ ·) ++ closing) else []) =
      listing opening names closing := by
  rw [listing]
  cases names with
  | nil => rfl
  | cons name names =>
    rw [List.isEmpty_cons, Bool.not_false, if_pos rfl, if_neg Bool.false_ne_true, mkString, List.append_assoc]

/-- The queries that are left out make no difference. -/
theorem flatMap_filter {α β : Type} (p : α → Bool) (f : α → List β) (xs : List α) :
    (xs.filter p).flatMap f = xs.flatMap fun x => if p x then f x else [] := by
  induction xs with
  | nil => rfl
  | cons x xs ih =>
    rw [List.filter_cons, List.flatMap_cons, ← ih]
    cases p x <;> rfl

/-- The clause a group should have is the one the code makes. -/
theorem render_eq (g : ClockGroup) : g.render = groupClause g.clocks g.pins g.ports := by
  unfold ClockGroup.render ClockGroup.queries groupClause
  rw [flatMap_filter]
  simp only [List.flatMap_cons, List.flatMap_nil, query_eq, List.append_nil, List.append_assoc]

/-- The section of the clock groups, in the words of the code. -/
theorem groupSection_cons (g : ClockGroup) (groups : List ClockGroup) :
    groupSection (g :: groups) = mkString " \\\n".toList
      (setClockGroups :: (g :: groups).map fun g => groupClause g.clocks g.pins g.ports) := by
  have clauses : (g :: groups).flatMap (" \\\n".toList ++ ·.render) =
      (g :: groups).flatMap (" \\\n".toList ++ (fun g => groupClause g.clocks g.pins g.ports) ·) :=
    congrArg (List.flatMap · (g :: groups)) (funext fun g => congrArg (" \\\n".toList ++ ·) (render_eq g))
  rw [mkString, List.flatMap_map, ← clauses]
  rfl

theorem emitted_groups_kept {groups : List ClockGroup} {g : ClockGroup} {kept : List ClockGroup}
    (found : (groups.filter fun g => !g.isEmpty) = g :: kept) :
    emittedGroups groups = groupSection (groups.filter fun g => !g.isEmpty) := by
  have nonempty : groups.isEmpty = false := by
    cases groups with
    | nil => cases found
    | cons => rfl
  rw [emittedGroups, nonempty, if_neg Bool.false_ne_true, found, groupSection_cons]

theorem emitted_groups_breaks (groups : List ClockGroup) :
    (emittedGroups groups).countP isLineBreak =
      (groupSection (groups.filter fun g => !g.isEmpty)).countP isLineBreak := by
  cases found : groups.filter fun g => !g.isEmpty with
  | nil =>
    rw [emittedGroups, found]
    split <;> decide
  | cons g kept => rw [emitted_groups_kept found, found]

/-- The clock groups come out as they should exactly when they are flush and do not consist of empty ones. -/
theorem strip_groups_iff (groups : List ClockGroup) :
    stripFrom none (emittedGroups groups) = groupSection (groups.filter fun g => !g.isEmpty) ↔
      (groups = [] ∨ ∃ g ∈ groups, g.isEmpty = false) ∧ ∀ g ∈ groups, g.flush = true := by
  have sep : Breaks " \\\n".toList := breaks_literal (by decide)
  have header : Solid setClockGroups := solid_literal (by decide)
  cases found : groups.filter fun g => !g.isEmpty with
  | nil =>
    have empty : ∀ g ∈ groups, g.isEmpty = true := by simpa using found
    rw [emittedGroups, found]
    cases groups with
    | nil => simp [stripFrom, groupSection]
    | cons g groups =>
      constructor
      · intro same
        rw [List.isEmpty_cons, if_neg Bool.false_ne_true] at same
        exact absurd same (by decide)
      · intro condition
        obtain none | ⟨g, mem, nonempty⟩ := condition.1
        · cases none
        · rw [empty g mem] at nonempty
          cases nonempty
  | cons g kept =>
    have here : g ∈ groups.filter fun g => !g.isEmpty := found ▸ List.mem_cons_self
    obtain ⟨mem, nonempty⟩ := List.mem_filter.mp here
    rw [emitted_groups_kept found, found, (strip_eq_iff _).1, groupSection_cons, unbarred_mkString sep,
      (header false).1, Bool.true_and, List.all_map, ← found, clauses_flush_iff]
    exact ⟨fun flush => ⟨.inr ⟨g, mem, Bool.not_eq_true' _ ▸ nonempty⟩, flush⟩, fun condition => condition.2⟩

/-- The file with its four sections. -/
def layout (clocks groups falses timings : Text) : Text :=
  Sdc.baseClocks ++ '\n' :: (clocks ++ '\n' :: (Sdc.clockGroups ++ '\n' :: (groups ++ '\n' ::
    (Sdc.falsePaths ++ '\n' :: (falses ++ '\n' :: (Sdc.ioTimings ++ '\n' :: (timings ++ '\n' :: [])))))))

theorem layout_inj {clocks groups falses timings clocks' groups' falses' timings' : Text}
    (clocksBreaks : clocks.countP isLineBreak = clocks'.countP isLineBreak)
    (groupsBreaks : groups.countP isLineBreak = groups'.countP isLineBreak)
    (falsesBreaks : falses.countP isLineBreak = falses'.countP isLineBreak)
    (timingsBreaks : timings.countP isLineBreak = timings'.countP isLineBreak) :
    layout clocks groups falses timings = layout clocks' groups' falses' timings' ↔
      clocks = clocks' ∧ groups = groups' ∧ falses = falses' ∧ timings = timings' := by
  constructor
  · intro same
    have afterBase := (append_break_inj same rfl).2
    obtain ⟨sameClocks, afterClocks⟩ := append_break_inj afterBase clocksBreaks
    have afterGroupsHeader := (append_break_inj afterClocks rfl).2
    obtain ⟨sameGroups, afterGroups⟩ := append_break_inj afterGroupsHeader groupsBreaks
    have afterFalsesHeader := (append_break_inj afterGroups rfl).2
    obtain ⟨sameFalses, afterFalses⟩ := append_break_inj afterFalsesHeader falsesBreaks
    have afterTimingsHeader := (append_break_inj afterFalses rfl).2
    exact ⟨sameClocks, sameGroups, sameFalses, (append_break_inj afterTimingsHeader timingsBreaks).1⟩
  · intro same
    rw [same.1, same.2.1, same.2.2.1, same.2.2.2]

theorem solid_headers : Solid Sdc.baseClocks ∧ Solid Sdc.clockGroups ∧ Solid Sdc.falsePaths ∧ Solid Sdc.ioTimings :=
  ⟨solid_literal (by decide), solid_literal (by decide), solid_literal (by decide), solid_literal (by decide)⟩

/-- Every line of the file starts with a margin, so each section is stripped from the middle of a line. -/
theorem emit_eq (sdc : Sdc E) (e : E) : sdc.emit e =
    layout (stripFrom none (Sdc.flatten sdc.clocks ['\n'] e))
      (stripFrom none (if sdc.groups.length = 1 then [] else Sdc.flatten sdc.groups " \\\n".toList e))
      (stripFrom none (Sdc.flatten sdc.falses ['\n'] e)) (stripFrom none (Sdc.flatten sdc.timings ['\n'] e)) := by
  obtain ⟨base, groups, falses, timings⟩ := solid_headers
  have last : stripMargin "       |".toList = [] := by decide
  unfold Sdc.emit layout
  rw [stripMargin, stripFrom_break, base.strip.2, stripMargin_margin, stripFrom_break, stripMargin_margin,
    stripFrom_break, groups.strip.1, stripMargin_margin, stripFrom_break, stripMargin_margin, stripFrom_break,
    falses.strip.1, stripMargin_margin, stripFrom_break, stripMargin_margin, stripFrom_break, timings.strip.1,
    stripMargin_margin, stripFrom_break, last]

theorem Collected.emit_eq {sdc : Sdc E} {e : E} {calls : List (Call N E)} (collected : Collected sdc e calls) :
    sdc.emit e = layout (stripFrom none (mkString ['\n'] (document e calls).clocks))
      (stripFrom none (emittedGroups (calls.filterMap (Call.group e))))
      (stripFrom none (mkString ['\n'] (document e calls).falses))
      (stripFrom none (mkString ['\n'] (document e calls).timings)) := by
  obtain ⟨clocks, falses, timings⟩ := document_commands e calls
  have header : setClockGroups.isEmpty = false := rfl
  have count : sdc.groups.length = (calls.filterMap (Call.group e)).length + 1 := by
    have lengths := congrArg List.length collected.groups
    rwa [evaluated, List.length_reverse, List.length_map, List.length_cons, List.length_map] at lengths
  have groups : (if sdc.groups.length = 1 then [] else Sdc.flatten sdc.groups " \\\n".toList e) =
      emittedGroups (calls.filterMap (Call.group e)) := by
    rw [count, flatten_eq, collected.groups, List.filter_cons, header, Bool.not_false, if_pos rfl, filter_clauses,
      emittedGroups]
    cases calls.filterMap (Call.group e) with
    | nil => rfl
    | cons g groups => rfl
  rw [Shell.emit_eq, groups, flatten_commands collected.clocks, flatten_commands collected.falses,
    flatten_commands collected.timings]
  · rfl
  · exact timings
  · exact falses
  · exact clocks

/-- The names of all calls are flush exactly when nothing of the document is barred. -/
theorem flush_calls_iff {e : E} {calls : List (Call N E)} (specified : ∀ call ∈ calls, call.Specified) :
    (∀ call ∈ calls, call.Flush e) ↔
      (∀ t ∈ (document e calls).clocks, unbarred true t = true) ∧
      (∀ g ∈ calls.filterMap (Call.group e), g.flush = true) ∧
      (∀ t ∈ (document e calls).falses, unbarred true t = true) ∧
      ∀ t ∈ (document e calls).timings, unbarred true t = true := by
  have each : (∀ call ∈ calls, call.Flush e) ↔ ∀ call ∈ calls,
      (∀ t ∈ call.clocks e, unbarred true t = true) ∧ (∀ g ∈ call.group e, g.flush = true) ∧
        (∀ t ∈ call.falses e, unbarred true t = true) ∧ ∀ t ∈ call.timings e, unbarred true t = true :=
    forall₂_congr fun call mem => Call.flush_iff (specified call mem)
  have groups : (∀ g ∈ calls.filterMap (Call.group e), g.flush = true) ↔
      ∀ call ∈ calls, ∀ g ∈ call.group e, g.flush = true := by
    simp only [List.mem_filterMap, Option.mem_def]
    exact ⟨fun all call mem g same => all g ⟨call, mem, same⟩, fun all g ⟨call, mem, same⟩ => all call mem g same⟩
  rw [each, groups, document, List.forall_mem_flatMap, List.forall_mem_flatMap, List.forall_mem_flatMap]
  simp only [forall₂_and]

/-- **The file is the rendering of the document exactly when no call adds a group or some group has a member, and
no name puts blanks and a bar at the start of a line.** -/
theorem emit_eq_render_iff {sdc : Sdc E} (e : E) (calls : List (Call N E))
    (returned : calls.foldlM Sdc.call Sdc.start = .ok sdc) :
    sdc.emit e = (document e calls).render ↔
      ((∀ call ∈ calls, call.group e = none) ∨ ∃ call ∈ calls, ∃ g ∈ call.group e, g.isEmpty = false) ∧
        ∀ call ∈ calls, call.Flush e := by
  have collected : Collected sdc e calls := collected_runs (collected_start e) returned
  have breaks (t : Text) : (stripFrom none t).countP isLineBreak = t.countP isLineBreak := (breaks_stripFrom t).1
  obtain ⟨clocks, falses, timings⟩ := document_commands e calls
  have none : calls.filterMap (Call.group e) = [] ↔ ∀ call ∈ calls, call.group e = none :=
    List.filterMap_eq_nil_iff
  have member : (∃ g ∈ calls.filterMap (Call.group e), g.isEmpty = false) ↔
      ∃ call ∈ calls, ∃ g ∈ call.group e, g.isEmpty = false := by
    simp only [List.mem_filterMap, Option.mem_def]
    exact ⟨fun ⟨g, ⟨call, mem, same⟩, nonempty⟩ => ⟨call, mem, g, same, nonempty⟩,
      fun ⟨call, mem, g, same, nonempty⟩ => ⟨g, ⟨call, mem, same⟩, nonempty⟩⟩
  have rendered : (document e calls).render = layout (mkString ['\n'] (document e calls).clocks)
      (groupSection ((calls.filterMap (Call.group e)).filter fun g => !g.isEmpty))
      (mkString ['\n'] (document e calls).falses) (mkString ['\n'] (document e calls).timings) := rfl
  rw [collected.emit_eq, rendered,
    layout_inj (breaks _) ((breaks _).trans (emitted_groups_breaks _)) (breaks _) (breaks _), strip_commands_iff clocks,
    strip_groups_iff, strip_commands_iff falses, strip_commands_iff timings, none, member,
    flush_calls_iff collected.specified]
  constructor
  · intro sections
    exact ⟨sections.2.1.1, sections.1, sections.2.1.2, sections.2.2⟩
  · intro condition
    exact ⟨condition.2.1, ⟨condition.1, condition.2.2.1⟩, condition.2.2.2⟩

theorem digits_plain (n : ℕ) : Plain (Nat.toDigits 10 n) := by
  intro c mem
  have digit := Nat.isDigit_of_mem_toDigits (by decide) (by decide) mem
  constructor
  · intro bar
    rw [bar] at digit
    exact absurd digit (by decide)
  · rw [isLineBreak, Bool.or_eq_false_iff, beq_eq_false_iff_ne, beq_eq_false_iff_ne]
    constructor <;> intro same <;> rw [same] at digit <;> exact absurd digit (by decide)

/-- Whole numbers, for runs on fixed inputs. -/
def wholeNumerals : Numerals where
  Double := ℕ
  period freqMHz := 1000 / freqMHz
  double x := Nat.toDigits 10 x
  fixed x := Nat.toDigits 10 x
  int x := Nat.toDigits 10 x.natAbs
  double_plain x := digits_plain x
  fixed_plain x := digits_plain x
  int_plain x := digits_plain x.natAbs

/-- A group without members, which leaves no trace, before one with a clock. -/
def mixedGroups : List (Call wholeNumerals Unit) :=
  [.addGroup (fun _ => []) fun _ => [], .addGroup (fun _ => ["clk".toList]) fun _ => []]

theorem emit_mixed_groups : ∃ sdc, mixedGroups.foldlM Sdc.call Sdc.start = .ok sdc ∧
    sdc.emit () = (document () mixedGroups).render := by
  have member : ∃ call ∈ mixedGroups, ∃ g ∈ call.group (), g.isEmpty = false :=
    ⟨_, List.mem_cons_of_mem _ List.mem_cons_self, _, rfl, rfl⟩
  have flush : ∀ call ∈ mixedGroups, call.Flush () := by
    simp only [mixedGroups, List.forall_mem_cons, Call.Flush, List.not_mem_nil, false_implies, implies_true, and_true,
      true_and]
    decide
  exact ⟨_, rfl, (emit_eq_render_iff () mixedGroups rfl).mpr ⟨.inr member, flush⟩⟩

/-- One group, without members. -/
def emptyGroup : List (Call wholeNumerals Unit) := [.addGroup (fun _ => []) fun _ => []]

theorem bare_clock_groups : ∃ sdc, emptyGroup.foldlM Sdc.call Sdc.start = .ok sdc ∧
    sdc.emit () = layout [] setClockGroups [] [] ∧ (document () emptyGroup).render = layout [] [] [] [] ∧
    sdc.emit () ≠ (document () emptyGroup).render := by
  have emitted := (collected_runs (collected_start ()) (rfl : emptyGroup.foldlM Sdc.call Sdc.start = _)).emit_eq
  have differs : layout [] setClockGroups [] [] ≠ layout [] [] [] [] := by
    intro same
    have sections := (layout_inj rfl (by decide) rfl rfl).mp same
    exact absurd sections.2.1 (by decide)
  exact ⟨_, rfl, emitted, rfl, emitted ▸ differs⟩

end Zcu102.Shell
