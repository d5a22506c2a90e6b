import SyncCircuit.Simulation.Simulator

/-! # Test benches

Several simulators side by side, which may share circuits and feed one dump. A circuit can be revised
between the operations of its simulators, and its results are those of the last completed run of any of
them. A dump goes on watching the signals of every simulator that registered some.
-/

namespace SyncCircuit

/-- A circuit with the results published for it. -/
structure Design where
  circuit : Circuit
  results : Results := {}

/-- A simulator of one of the designs, with its settings. -/
structure Rig where
  /-- The number of the design. -/
  design : Nat
  settings : Settings
  simulator : Simulator

/-- Designs, simulators of them and the dump they feed. -/
structure Bench where
  designs : List Design := []
  rigs : List Rig := []
  dump : Option Dump := none

/-- The value of one of the settings. -/
inductive Setting where
  | monitor (watching : Monitor)
  | dump (following : Option Dump)
  | limit (depth : Int)
  | flag (on : Bool)

/-- What an operation on a bench leads to. -/
structure Report (α : Type) where
  outcome : Except SimError α
  events : List Event
  bench : Bench

namespace Bench

def signal? (b : Bench) (rig : Nat) (name : String) : Option Bool :=
  b.rigs[rig]?.bind (·.simulator.vars.get? name)

/-- Add a circuit; it gets the next number. -/
def addDesign (b : Bench) (c : Circuit) : Bench :=
  { b with designs := b.designs ++ [{ circuit := c }] }

/-- Add a new simulator of a design; it gets the next number. -/
def addRig (b : Bench) (design : Nat) (settings : Settings) : Except DuplicateDefinition Bench :=
  match b.designs[design]? with
  | none => .ok b
  | some d =>
      match Simulator.ofCircuit d.circuit settings with
      | .ok simulator => .ok { b with rigs := b.rigs ++ [{ design, settings, simulator }] }
      | .error e => .error e

/-- Change the circuit of a design; its results stay. -/
def revise (b : Bench) (design : Nat) (change : Circuit → Circuit) : Bench :=
  { b with designs := b.designs.modify design fun d => { d with circuit := change d.circuit } }

/-- Change the settings of a simulator. The monitor and the structural check are looked up when they are
    needed, and the limit on nested applications stays as it was when the simulator was made. -/
def adjust (b : Bench) (rig : Nat) (change : Settings → Settings) : Bench :=
  { b with rigs := b.rigs.modify rig fun r => { r with settings := change r.settings } }

/-- What a simulator of the bench depends on when it acts. -/
def setup (b : Bench) (rig : Nat) (r : Rig) (d : Design) : Setup :=
  { circuit := d.circuit, settings := r.settings, number := rig, elsewhere := b.signal? }

def session (b : Bench) (r : Rig) (d : Design) : Session :=
  { simulator := r.simulator, results := d.results, dump := b.dump }

/-- The bench after a simulator has acted. Only the simulator itself, the results of its design and
    the dump can have changed. -/
def settle (b : Bench) (rig : Nat) (r : Rig) (d : Design) (s : Session) : Bench :=
  { designs := b.designs.set r.design { d with results := s.results }
    rigs := b.rigs.set rig { r with simulator := s.simulator }
    dump := s.dump }

/-- Let a simulator act. -/
def perform {α : Type} (b : Bench) (rig : Nat) (operation : Setup → Operation α) : Option (Report α) := do
  let r ← b.rigs[rig]?
  let d ← b.designs[r.design]?
  match operation (b.setup rig r d) (b.session r d) with
  | .ok value s => return ⟨.ok value, s.journal, b.settle rig r d s⟩
  | .error e s => return ⟨.error e, s.journal, b.settle rig r d s⟩

/-- Make a new simulator of a design, run it and return the outputs that it has recorded. -/
def simulate (b : Bench) (design : Nat) (settings : Settings) :
    Except DuplicateDefinition (Option (Report (List Trace))) := do
  let b' ← b.addRig design settings
  return b'.perform b.rigs.length Setup.runForOutputs

/-- The settings of a simulator by their names, in the order in which they are given. -/
def listSettings (b : Bench) (r : Rig) : List (String × Setting) :=
  [("monitor", .monitor r.settings.monitor), ("vcd", .dump b.dump),
    ("max_call_depth", .limit r.settings.depthLimit),
    ("check_structure", .flag r.settings.checkStructure)]

end Bench

end SyncCircuit
