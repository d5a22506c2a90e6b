import SyncCircuit.Dump
import SyncCircuit.Simulation.Monitor
import SyncCircuit.Simulation.Phase

/-! # The simulator

A simulator computes a circuit cycle by cycle. The first cycle gives every input its first sample,
resets the outputs of the latches and applies the updates. Every later cycle copies the latches,
gives the inputs their next samples and applies the updates once. A run computes the first cycle and
all that the traces drive, tells the monitor and the dump about each, and publishes the recorded
outputs at its end.

Whatever fails keeps the effects it had until then.
-/

namespace SyncCircuit

/-- The state of a simulator. -/
structure Simulator where
  definitions : Definitions
  /-- How deep applications may nest. Later changes of the settings do not reach a simulator. -/
  depthLimit : Int := Expr.defaultDepth
  /-- The variables of the root scope. -/
  vars : Bindings Bool := .empty
  /-- The number of cycles of the run that was begun last. -/
  length : Nat := 0
  history : Bindings (List Bool) := .empty

/-- A new simulator of a circuit, with nothing bound. -/
def Simulator.ofCircuit (c : Circuit) (settings : Settings) : Except DuplicateDefinition Simulator :=
  match Definitions.defineAll .empty c.definitions with
  | .ok definitions => .ok { definitions, depthLimit := settings.depthLimit }
  | .error e => .error e

/-- Add a value to the history of an output. -/
def Simulator.record (sim : Simulator) (signal : String) (value : Bool) : Simulator :=
  { sim with
    history := sim.history.mapWithName fun name samples =>
      if name = signal then samples ++ [value] else samples }

/-- What an operation of a simulator can change. -/
structure Session where
  simulator : Simulator
  results : Results
  dump : Option Dump
  /-- What has happened, oldest first. -/
  journal : List Event := []

abbrev Operation := EStateM SimError Session

/-- What an operation of a simulator depends on and does not change. -/
structure Setup where
  circuit : Circuit
  settings : Settings
  /-- The number of the simulator, by which a dump knows its signals. -/
  number : Nat := 0
  /-- The present values of the signals of other simulators. -/
  elsewhere : Nat → String → Option Bool := fun _ _ => none

namespace Operation

def onVariables {α : Type} (phase : Phase α) : Operation α := fun s =>
  match phase s.simulator.vars with
  | .ok value vars => .ok value { s with simulator := { s.simulator with vars } }
  | .error e vars => .error e { s with simulator := { s.simulator with vars } }

/-- The outcome of a computation that changes nothing. -/
def outcome {α : Type} : Except SimError α → Operation α
  | .ok value => pure value
  | .error e => throw e

def note (events : List Event) : Operation Unit :=
  modify fun s => { s with journal := s.journal ++ events }

def progress (message : String) : Operation Unit :=
  note [.log (progressLogger.record message)]

def modifySimulator (f : Simulator → Simulator) : Operation Unit :=
  modify fun s => { s with simulator := f s.simulator }

def readVariable (signal : String) : Operation Bool :=
  onVariables (Phase.read signal)

def writeVariable (signal : String) (value : Bool) : Operation Unit :=
  onVariables (Phase.assign signal value)

/-- Add the present values of outputs to their histories, one after another. The first that is not
    bound is reported; the ones before it have their values by then. -/
def recordAll : List String → Operation Unit
  | [] => pure ()
  | signal :: rest => do
      let value ← readVariable signal
      modifySimulator fun sim => sim.record signal value
      recordAll rest

def recordOutputs : Operation Unit := do
  recordAll (← get).simulator.history.names

/-- Publish the number of cycles and the recorded outputs. -/
def publish : Operation Unit :=
  modify fun s =>
    let outputs := s.simulator.history.entries.map fun entry => ⟨entry.1, entry.2⟩
    { s with results := { length := s.simulator.length, outputs } }

def onDump (f : Dump → Bindings Bool → Except SimError Dump) : Operation Unit := do
  let s ← get
  match s.dump with
  | none => pure ()
  | some d =>
      let d ← outcome (f d s.simulator.vars)
      modify fun s => { s with dump := some d }

end Operation

namespace Setup

open Operation

/-- Call the monitor, which writes its records and may then object. -/
def announce (u : Setup) (occasion : Hook) : Operation Unit := do
  note (.hook occasion :: (u.settings.monitor.logs occasion).map .log)
  match u.settings.monitor.objection occasion with
  | some reason => throw (.aborted reason)
  | none => pure ()

/-- End a cycle: record the outputs and tell the monitor. -/
def endCycle (u : Setup) (cycle : Int) : Operation Unit := do
  recordOutputs
  u.announce (.cycleEnded cycle (← get).simulator.vars)

def resetLatches (u : Setup) : Operation Unit :=
  onVariables (Phase.resetLatches u.circuit.latches)

def copyLatches (u : Setup) : Operation Unit :=
  onVariables (Phase.copyLatches u.circuit.latches)

def applyUpdates (u : Setup) : Operation Unit := do
  let sim := (← get).simulator
  onVariables (Phase.applyUpdates sim.definitions sim.depthLimit u.circuit.updates)

/-- Check the structural rules, if the settings ask for it. -/
def checkStructure (u : Setup) : Operation Unit :=
  if u.settings.checkStructure then outcome (u.circuit.checkStructure.mapError .malformed)
  else pure ()

def firstCycle (u : Setup) : Operation Unit := do
  u.checkStructure
  onVariables (Phase.seed u.circuit.firstSample u.circuit.inputs)
  let length ← outcome u.circuit.runLength
  modifySimulator fun sim => { sim with length }
  u.resetLatches
  u.applyUpdates
  modifySimulator fun sim =>
    { sim with history := Bindings.ofList (u.circuit.outputs.map (·, [])) }
  u.endCycle 0
  progress ("Initialized " ++ u.circuit.name ++ ", simlength=" ++ toString length)

/-- Compute a later cycle from the state that the cycle before it left. -/
def nextCycle (u : Setup) (cycle : Int) : Operation Unit := do
  u.copyLatches
  onVariables (Phase.seed (u.circuit.sampleAt cycle) u.circuit.inputs)
  u.applyUpdates
  u.endCycle cycle

/-- The present value of a channel: of a variable of this simulator, or of a signal elsewhere. -/
def readChannel (u : Setup) (vars : Bindings Bool) (c : Channel) : Except SimError Bool :=
  let value := if c.source = u.number then vars.get? c.name else u.elsewhere c.source c.name
  match value with
  | some bit => .ok bit
  | none => .error (.eval (.unbound c.name))

/-- Register every bound signal of the circuit with a dump, in a module named for the circuit. -/
def registerSignals (u : Setup) (vars : Bindings Bool) (d : Dump) : Dump :=
  (u.circuit.signalNames.filter vars.contains).foldl
    (fun d signal =>
      d.register signal (u.circuit.latchOutputs.contains signal) [u.circuit.name] u.number)
    d

def startDump (u : Setup) : Operation Unit := do
  onDump fun d vars => .ok (u.registerSignals vars d)
  onDump fun d vars => d.dumpInitial (u.readChannel vars) 0

def continueDump (u : Setup) (cycle : Int) : Operation Unit :=
  onDump fun d vars => d.dumpChanges (u.readChannel vars) cycle

/-- Compute and dump cycles one after another. -/
def laterCycles (u : Setup) : List Nat → Operation Unit
  | [] => pure ()
  | cycle :: rest => do
      progress ("Cycle " ++ toString cycle)
      u.nextCycle cycle
      u.continueDump cycle
      u.laterCycles rest

/-- Run the circuit through all cycles that its traces drive. Results are published only if every
    cycle succeeds. -/
def run (u : Setup) : Operation Unit := do
  u.announce (.started u.circuit.name (← get).results)
  u.firstCycle
  u.startDump
  u.laterCycles (List.range' 1 ((← get).simulator.length - 1))
  publish
  u.announce (.finished u.circuit.name (← get).results)

/-- Run the circuit and return the outputs that it has recorded. -/
def runForOutputs (u : Setup) : Operation (List Trace) := do
  u.run
  return (← get).results.outputs

/-- Evaluate an expression in the present state of a simulator, which alone decides its value. -/
def evaluate (_ : Setup) (e : Expr) : Operation Bool := do
  let sim := (← get).simulator
  onVariables (Phase.eval sim.definitions sim.depthLimit e)

end Setup

end SyncCircuit
