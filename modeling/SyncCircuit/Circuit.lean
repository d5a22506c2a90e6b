import SyncCircuit.Definition
import SyncCircuit.Trace

/-! # Circuits

A synchronous circuit: the names of its inputs, outputs and latches, the functions it defines, the
updates that are applied in every cycle, and the traces that drive its inputs. A latch `L` has an
input signal `L` and an output signal `L'`, which shows the input one cycle later.
-/

namespace SyncCircuit

/-- The name of the output of a latch. -/
def latchOutput (latch : String) : String :=
  latch ++ "'"

theorem latchOutput_injective {a b : String} (h : latchOutput a = latchOutput b) : a = b := by
  simpa [latchOutput] using h

/-- A circuit with the traces that drive it. -/
structure Circuit where
  name : String
  inputs : List String := []
  outputs : List String := []
  latches : List String := []
  definitions : List Definition := []
  /-- The equations, in the order in which a cycle applies them. -/
  updates : List Update := []
  /-- The traces of the inputs. Of several traces of one signal the first counts. -/
  traces : List Trace := []
  deriving Inhabited

/-- What a completed run leaves behind: the number of its cycles and a trace of every output. -/
structure Results where
  length : Nat := 0
  outputs : List Trace := []
  deriving DecidableEq, Inhabited

/-- A request for the trace of an output that was not recorded. -/
structure UnknownOutput where
  name : String

/-- The report of an output that was not recorded: its name, quoted. -/
def UnknownOutput.message (e : UnknownOutput) : String :=
  Text.quoted e.name

def Results.output (r : Results) (name : String) : Except UnknownOutput Trace :=
  match r.outputs.find? (·.signal == name) with
  | some t => .ok t
  | none => .error ⟨name⟩

namespace Circuit

/-- The trace that drives a signal. -/
def inputTrace (c : Circuit) (signal : String) : Option Trace :=
  c.traces.find? (·.signal == signal)

def latchOutputs (c : Circuit) : List String :=
  c.latches.map latchOutput

def targets (c : Circuit) : List String :=
  c.updates.map (·.target)

/-- Every signal of the circuit once: inputs, the two signals of each latch, targets of updates,
    and outputs that none of these names. -/
def signalNames (c : Circuit) : List String :=
  (c.inputs ++ c.latches.flatMap (fun latch => [latch, latchOutput latch]) ++ c.targets ++
    c.outputs).eraseDups

/-- The length of each driving trace by its signal. Of several traces of one signal the last one's
    length stands at the first one's place. -/
def traceLengths (c : Circuit) : Bindings Nat :=
  Bindings.ofList (c.traces.map fun t => (t.signal, t.length))

/-- The written form of a circuit, with the length of its last completed run. -/
def describe (c : Circuit) (length : Nat) : String :=
  let names (signals : List String) := Text.bracketed (signals.map Text.quoted)
  "Circuit(" ++ Text.quoted c.name ++ ", inputs=" ++ names c.inputs ++ ", outputs=" ++
    names c.outputs ++ ", latches=" ++ names c.latches ++ ", simlength=" ++ toString length ++ ")"

end Circuit

end SyncCircuit
