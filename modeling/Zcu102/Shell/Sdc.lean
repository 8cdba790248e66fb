import Zcu102.Shell.Diplomacy
import Zcu102.Sim.Text

/-!
# Timing constraints (`IOPin`, `SDC`)

An `SDC` collects commands in four lists, latest first, as thunks: the arguments of
its methods are passed by name and evaluated when the file is emitted, once, after the
last call. An argument is therefore a function of the elaboration at its end.

What a file should hold is a `Document`: the commands of each section in order, and
for the clock groups one clause to a group.
-/

namespace Zcu102.Shell
set_option autoImplicit false
open Zcu102.Sim

/-! ## Pins -/

/-- `split("\\.")` of Java: without the empty parts at the end, unless there is nothing to split. -/
def splitDots (t : Text) : List Text :=
  let parts := t.splitOn '.'
  if parts.length = 1 then parts else (parts.reverse.dropWhile List.isEmpty).reverse

/-- `replaceAll("""\[(\d+)\]""", "_$1")`, with the digits read since the last `[`. -/
def replaceIndices : Option Text → Text → Text
  | none, [] => []
  | some digits, [] => '[' :: digits
  | none, c :: cs => if c = '[' then replaceIndices (some []) cs else c :: replaceIndices none cs
  | some digits, c :: cs =>
    if c.isDigit then replaceIndices (some (digits ++ [c])) cs
    else if c = ']' ∧ digits ≠ [] then '_' :: digits ++ replaceIndices none cs
    else if c = '[' then '[' :: digits ++ replaceIndices (some []) cs
    else '[' :: digits ++ c :: replaceIndices none cs

inductive Direction where
  | output
  | input
  | bidirectional
  | unspecified
  deriving DecidableEq, Repr

/-- `IOPin`, with what Chisel says about its element. -/
structure IOPin where
  instanceName : Text
  parentPathName : Text
  width : ℕ
  direction : Direction
  index : ℕ
  inside : index < width

namespace IOPin

def name (io : IOPin) : Text :=
  let pin := mkString ['_'] ((splitDots io.instanceName).map (replaceIndices none))
  let path := splitDots io.parentPathName
  let pindex := pin ++ if io.width > 1 then '[' :: Nat.toDigits 10 io.index ++ [']'] else []
  mkString ['/'] (path.drop 1 ++ [pindex])

def sdcPin (io : IOPin) : Text :=
  let path := io.name
  (if path.contains '/' then "[get_pins \x7b".toList else "[get_ports \x7b".toList) ++ path ++ "\x7d]".toList

def isOutput (io : IOPin) : Except String Bool :=
  match io.direction with
  | .output => .ok true
  | .input => .ok false
  | .bidirectional => .ok true
  | .unspecified => .error "requirement failed"

def isInput (io : IOPin) : Except String Bool :=
  match io.direction with
  | .output => .ok false
  | .input => .ok true
  | .bidirectional => .ok true
  | .unspecified => .error "requirement failed"

end IOPin

/-! ## Numbers -/

/-- Scala's `Double` and how numbers are written: without `|` and without line breaks. -/
structure Numerals where
  Double : Type
  /-- `1000/freqMHz`. -/
  period : Double → Double
  double : Double → Text
  /-- Under the format `% -5.2f`. -/
  fixed : Double → Text
  int : ℤ → Text
  double_plain : ∀ x, Plain (double x)
  fixed_plain : ∀ x, Plain (fixed x)
  int_plain : ∀ x, Plain (int x)

section Sdc

variable {E : Type} (N : Numerals)

structure IOTiming where
  minInput : N.Double
  maxInput : N.Double
  minOutput : N.Double
  maxOutput : N.Double

/-! ## Commands -/

def createClock (name : Text) (freqMHz : N.Double) (pin : IOPin) : Text :=
  "create_clock -name ".toList ++ (name ++ (" -period ".toList ++ (N.double (N.period freqMHz) ++ (" ".toList ++
    pin.sdcPin))))

def setInputJitter (name : Text) (jitterNs : N.Double) : Text :=
  "set_input_jitter ".toList ++ (name ++ (" ".toList ++ N.double jitterNs))

def createGeneratedClock (name : Text) (div : ℤ) (source sink : IOPin) : Text :=
  "create_generated_clock -name ".toList ++ (name ++ (" -divide_by ".toList ++ (N.int div ++ (" -source ".toList ++
    (source.sdcPin ++ (" ".toList ++ sink.sdcPin))))))

def setFalsePath (through : List IOPin) : Text :=
  "set_false_path".toList ++ through.flatMap fun x => " -through ".toList ++ x.sdcPin

/-- The four delay commands, by their first words. -/
def setDelay (words : Text) (x : N.Double) (clock : Text) (port : IOPin) : Text :=
  words ++ (N.fixed x ++ (" -clock ".toList ++ (clock ++ (" ".toList ++ port.sdcPin))))

/-- `(start +: names).mkString(sep) + close`, or nothing for no names. -/
def listing (start : Text) (names : List Text) (close : Text) : Text :=
  if names.isEmpty then [] else mkString " \\\n      ".toList (start :: names) ++ close

/-- The clause of a group. -/
def groupClause (clocks pins ports : List Text) : Text :=
  "  -group [list".toList ++ (listing " [get_clocks \x7b".toList clocks " \\\n    \x7d]".toList ++
    (listing " [get_clocks -of_objects [get_pins \x7b".toList pins " \\\n    \x7d]]".toList ++
      (listing " [get_clocks -of_objects [get_ports \x7b".toList ports " \\\n    \x7d]]".toList ++ "]".toList)))

def setClockGroups : Text := "set_clock_groups -asynchronous".toList

/-! ## The class -/

structure Sdc (E : Type) where
  clocks : List (E → Text)
  groups : List (E → Text)
  falses : List (E → Text)
  timings : List (E → Text)

namespace Sdc

/-- `new SDC(name)`. -/
def start : Sdc E := ⟨[], [fun _ => setClockGroups], [], []⟩

def addRawClock (command : E → Text) (sdc : Sdc E) : Sdc E := { sdc with clocks := command :: sdc.clocks }
def addRawGroup (command : E → Text) (sdc : Sdc E) : Sdc E := { sdc with groups := command :: sdc.groups }
def addRawFalse (command : E → Text) (sdc : Sdc E) : Sdc E := { sdc with falses := command :: sdc.falses }
def addRawTiming (command : E → Text) (sdc : Sdc E) : Sdc E := { sdc with timings := command :: sdc.timings }

def addClock (name : E → Text) (pin : E → IOPin) (freqMHz jitterNs : E → N.Double) (sdc : Sdc E) : Sdc E :=
  (sdc.addRawClock fun e => createClock N (name e) (freqMHz e) (pin e)).addRawClock fun e =>
    setInputJitter N (name e) (jitterNs e)

def addDerivedClock (name : E → Text) (source sink : E → IOPin) (div : E → ℤ) (sdc : Sdc E) : Sdc E :=
  sdc.addRawClock fun e => createGeneratedClock N (name e) (div e) (source e) (sink e)

def addGroup (clocks : E → List Text) (pins : E → List IOPin) (sdc : Sdc E) : Sdc E :=
  sdc.addRawGroup fun e =>
    let clocksList := clocks e
    let (pinsList, portsList) := ((pins e).map IOPin.name).partition fun name => name.contains '/'
    let str := groupClause clocksList pinsList portsList
    if clocksList.isEmpty && pinsList.isEmpty && portsList.isEmpty then [] else str

def addAsyncPath (through : E → List IOPin) (sdc : Sdc E) : Sdc E :=
  sdc.addRawFalse fun e => setFalsePath (through e)

def addInputDelay (port : E → IOPin) (clock : E → Text) (min max : E → N.Double) (sdc : Sdc E) : Sdc E :=
  (sdc.addRawTiming fun e => setDelay N "set_input_delay  -min ".toList (min e) (clock e) (port e)).addRawTiming fun e =>
    setDelay N "set_input_delay  -max ".toList (max e) (clock e) (port e)

def addOutputDelay (port : E → IOPin) (clock : E → Text) (min max : E → N.Double) (sdc : Sdc E) : Sdc E :=
  (sdc.addRawTiming fun e => setDelay N "set_output_delay -min ".toList (min e) (clock e) (port e)).addRawTiming fun e =>
    setDelay N "set_output_delay -max ".toList (max e) (clock e) (port e)

def addIOTiming (io : IOPin) (clock : E → Text) (timing : E → IOTiming N) (sdc : Sdc E) : Except String (Sdc E) := do
  let sdc := if ← io.isInput then
      sdc.addInputDelay N (fun _ => io) clock (fun e => (timing e).minInput) fun e => (timing e).maxInput
    else sdc
  return if ← io.isOutput then
      sdc.addOutputDelay N (fun _ => io) clock (fun e => (timing e).minOutput) fun e => (timing e).maxOutput
    else sdc

/-- `flatten(x, sep)`. -/
def flatten (x : List (E → Text)) (sep : Text) (e : E) : Text :=
  mkString sep (((x.map fun command => command e).filter fun t => !t.isEmpty).reverse)

def baseClocks : Text := "# ------------------------- Base Clocks --------------------".toList
def clockGroups : Text := "# ------------------------- Clock Groups -------------------".toList
def falsePaths : Text := "# ------------------------- False Paths --------------------".toList
def ioTimings : Text := "# ------------------------- IO Timings ---------------------".toList

/-- The contents of the file; `stripMargin` works on the interpolated text. -/
def emit (sdc : Sdc E) (e : E) : Text :=
  let margin := "       |".toList
  stripMargin (baseClocks ++ '\n' ::
    (margin ++ (flatten sdc.clocks ['\n'] e ++ '\n' ::
    (margin ++ (clockGroups ++ '\n' ::
    (margin ++ ((if sdc.groups.length = 1 then [] else flatten sdc.groups " \\\n".toList e) ++ '\n' ::
    (margin ++ (falsePaths ++ '\n' ::
    (margin ++ (flatten sdc.falses ['\n'] e ++ '\n' ::
    (margin ++ (ioTimings ++ '\n' ::
    (margin ++ (flatten sdc.timings ['\n'] e ++ '\n' ::
    margin)))))))))))))))

end Sdc

/-! ## Calls and documents -/

inductive Call (E : Type) where
  | addClock (name : E → Text) (pin : E → IOPin) (freqMHz jitterNs : E → N.Double)
  | addDerivedClock (name : E → Text) (source sink : E → IOPin) (div : E → ℤ)
  | addGroup (clocks : E → List Text) (pins : E → List IOPin)
  | addAsyncPath (through : E → List IOPin)
  | addIOTiming (io : IOPin) (clock : E → Text) (timing : E → IOTiming N)

variable {N}

def Sdc.call (sdc : Sdc E) : Call N E → Except String (Sdc E)
  | .addClock name pin freqMHz jitterNs => .ok (sdc.addClock N name pin freqMHz jitterNs)
  | .addDerivedClock name source sink div => .ok (sdc.addDerivedClock N name source sink div)
  | .addGroup clocks pins => .ok (sdc.addGroup clocks pins)
  | .addAsyncPath through => .ok (sdc.addAsyncPath through)
  | .addIOTiming io clock timing => sdc.addIOTiming N io clock timing

/-- A clock group: clocks by name, pins inside the design and ports of it. -/
structure ClockGroup where
  clocks : List Text
  pins : List Text
  ports : List Text
  deriving DecidableEq

def ClockGroup.isEmpty (g : ClockGroup) : Bool := g.clocks.isEmpty && g.pins.isEmpty && g.ports.isEmpty

/-- What a clause asks for: the clocks by name, those of the pins and those of the ports. Each has the words before the
names, the names, and the brackets after them on a line of their own. -/
def ClockGroup.queries (g : ClockGroup) : List (Text × List Text × Text) :=
  [(" [get_clocks \x7b".toList, g.clocks, " \\\n    \x7d]".toList),
    (" [get_clocks -of_objects [get_pins \x7b".toList, g.pins, " \\\n    \x7d]]".toList),
    (" [get_clocks -of_objects [get_ports \x7b".toList, g.ports, " \\\n    \x7d]]".toList)]

/-- The clause of a group, with every name on a line of its own. A query without names is left out. -/
def ClockGroup.render (g : ClockGroup) : Text :=
  "  -group [list".toList ++ ((g.queries.filter fun q => !q.2.1.isEmpty).flatMap (fun q =>
    q.1 ++ (q.2.1.flatMap (" \\\n      ".toList ++ ·) ++ q.2.2)) ++ "]".toList)

structure Document where
  clocks : List Text
  groups : List ClockGroup
  falses : List Text
  timings : List Text

/-- The clock group command, if there are groups: each clause goes on from the line before. -/
def groupSection : List ClockGroup → Text
  | [] => []
  | groups => "set_clock_groups -asynchronous".toList ++ groups.flatMap (" \\\n".toList ++ ·.render)

def Document.render (doc : Document) : Text :=
  Sdc.baseClocks ++ '\n' :: (mkString ['\n'] doc.clocks ++ '\n' ::
  (Sdc.clockGroups ++ '\n' :: (groupSection doc.groups ++ '\n' ::
  (Sdc.falsePaths ++ '\n' :: (mkString ['\n'] doc.falses ++ '\n' ::
  (Sdc.ioTimings ++ '\n' :: (mkString ['\n'] doc.timings ++ '\n' :: [])))))))

/-- The delays of a pin, for each way it goes. -/
def IOTiming.delays (timing : IOTiming N) : Direction → List (Text × N.Double)
  | .input =>
    [("set_input_delay  -min ".toList, timing.minInput), ("set_input_delay  -max ".toList, timing.maxInput)]
  | .output =>
    [("set_output_delay -min ".toList, timing.minOutput), ("set_output_delay -max ".toList, timing.maxOutput)]
  | .bidirectional =>
    [("set_input_delay  -min ".toList, timing.minInput), ("set_input_delay  -max ".toList, timing.maxInput),
      ("set_output_delay -min ".toList, timing.minOutput), ("set_output_delay -max ".toList, timing.maxOutput)]
  | .unspecified => []

namespace Call

def clocks (e : E) : Call N E → List Text
  | addClock name pin freqMHz jitterNs =>
    [createClock N (name e) (freqMHz e) (pin e), setInputJitter N (name e) (jitterNs e)]
  | addDerivedClock name source sink div => [createGeneratedClock N (name e) (div e) (source e) (sink e)]
  | addGroup _ _ => []
  | addAsyncPath _ => []
  | addIOTiming _ _ _ => []

/-- The group of an `addGroup`: a pin with a `/` in its name is inside the design, one without is a port. -/
def group (e : E) : Call N E → Option ClockGroup
  | addGroup clocks pins =>
    let names := (pins e).map IOPin.name
    some ⟨clocks e, names.filter fun name => name.contains '/', names.filter fun name => !name.contains '/'⟩
  | addClock _ _ _ _ => none
  | addDerivedClock _ _ _ _ => none
  | addAsyncPath _ => none
  | addIOTiming _ _ _ => none

def falses (e : E) : Call N E → List Text
  | addAsyncPath through => [setFalsePath (through e)]
  | addClock _ _ _ _ => []
  | addDerivedClock _ _ _ _ => []
  | addGroup _ _ => []
  | addIOTiming _ _ _ => []

def timings (e : E) : Call N E → List Text
  | addIOTiming io clock timing =>
    ((timing e).delays io.direction).map fun delay => setDelay N delay.1 delay.2 (clock e) io
  | addClock _ _ _ _ => []
  | addDerivedClock _ _ _ _ => []
  | addGroup _ _ => []
  | addAsyncPath _ => []

end Call

/-- What a sequence of calls asks for. -/
def document (e : E) (calls : List (Call N E)) : Document where
  clocks := calls.flatMap (Call.clocks e)
  groups := (calls.filterMap (Call.group e)).filter fun g => !g.isEmpty
  falses := calls.flatMap (Call.falses e)
  timings := calls.flatMap (Call.timings e)

end Sdc

end Zcu102.Shell
