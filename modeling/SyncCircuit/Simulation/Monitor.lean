import SyncCircuit.Circuit
import SyncCircuit.Eval

/-! # Monitors

A monitor is told when a run starts, when a cycle ends, and when the outputs of a complete run are
recorded. It may write log records, which have levels so that a reader of the log can leave out the lower
ones, and it may object, which stops the run.

Monitors are written by users. Their contract is that what they are told is read-only, so that all they
can do to a simulation is to stop it, and that an objection is of a kind of its own, of which only the
text is seen. Nothing enforces the contract; a `Monitor` is a monitor that keeps it.
-/

namespace SyncCircuit

structure LogRecord where
  logger : String
  level : Int
  message : String
  deriving DecidableEq, Repr

/-- Whether a reader sees a record: its level is positive and reaches the reader's threshold. -/
def LogRecord.reaches (r : LogRecord) (threshold : Int) : Bool :=
  threshold ≤ r.level && 0 < r.level

def bitValue (value : Bool) : Int :=
  if value then 1 else 0

/-- The text of a valuation: names with their values, in binding order. -/
def snapshotText (values : Bindings Int) : String :=
  " ".intercalate <| values.entries.map fun entry => entry.1 ++ "=" ++ toString entry.2

/-- A logger writes records of one level under one name. -/
structure Logger where
  name : String := "hwsim"
  level : Int := 20
  deriving DecidableEq, Repr

namespace Logger

def record (l : Logger) (message : String) : LogRecord :=
  ⟨l.name, l.level, message⟩

def started (l : Logger) (circuit : String) : List LogRecord :=
  [l.record ("Starting simulation of circuit " ++ circuit)]

def cycleEnded (l : Logger) (cycle : Int) (values : Bindings Int) : List LogRecord :=
  [l.record ("Environment after cycle " ++ toString cycle ++ ": " ++ snapshotText values)]

/-- A simulation ends after some number of cycles with these outputs, which are reported one by
    one. -/
def finished (l : Logger) (circuit : String) (length : Int) (outputs : List Trace) :
    List LogRecord :=
  l.record ("Simulation of " ++ circuit ++ " finished after " ++ toString length ++ " cycles") ::
    outputs.map fun t => l.record t.text

end Logger

/-- The simulator's own logger, for details of its progress. -/
def progressLogger : Logger :=
  ⟨"hwsim.simulator", 10⟩

/-- An occasion on which the monitor is called. -/
inductive Hook where
  /-- A run of a circuit starts; the results are those of an earlier run. -/
  | started (circuit : String) (earlier : Results)
  | cycleEnded (cycle : Int) (values : Bindings Bool)
  | finished (circuit : String) (results : Results)
  deriving DecidableEq

/-- What happens in a simulation, as seen from outside. -/
inductive Event where
  | hook (occasion : Hook)
  | log (entry : LogRecord)
  deriving DecidableEq

/-- What a monitor that keeps its contract does when it is called. -/
structure Monitor where
  logs : Hook → List LogRecord := fun _ => []
  /-- The reason for which it stops the simulation, if it does. -/
  objection : Hook → Option String := fun _ => none

def Monitor.silent : Monitor := {}

/-- The monitor that reports every occasion through a logger. -/
def Monitor.ofLogger (l : Logger) : Monitor where
  logs
    | .started circuit _ => l.started circuit
    | .cycleEnded cycle values => l.cycleEnded cycle (values.map bitValue)
    | .finished circuit results => l.finished circuit results.length results.outputs

structure Settings where
  monitor : Monitor := .silent
  /-- How deep applications may nest in simulators that are made with these settings. -/
  depthLimit : Int := Expr.defaultDepth
  checkStructure : Bool := true

end SyncCircuit
