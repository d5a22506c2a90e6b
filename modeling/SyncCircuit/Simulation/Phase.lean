import SyncCircuit.Circuit.Structure
import SyncCircuit.Eval

/-! # Phases of a cycle

Inputs take the samples of their traces, outputs of latches are reset or take the values of the
latches' inputs, and updates are applied in order. Each phase is a sequence of writes to the
variables of the root scope; a phase that fails keeps the writes it has made.
-/

namespace SyncCircuit

/-- Why a step of a simulation fails. -/
inductive SimError where
  /-- An expression has no value, or a signal that must be read is not bound. -/
  | eval (cause : EvalError)
  | malformed (cause : StructureError)
  /-- An input has no trace, or an empty one. -/
  | missingTrace (signal : String)
  | unevenTraces (lengths : Bindings Nat)
  | noTraces
  | traceExhausted (signal : String) (cycle : Int)
  /-- A cycle counted from the end of a trace lies before its start. -/
  | sampleOutOfRange
  /-- A cycle lies before every index that sixty-four bits can hold. -/
  | indexOverflow
  | aborted (reason : String)

def SimError.message : SimError → String
  | .eval cause => cause.message
  | .malformed cause => cause.message
  | .missingTrace signal =>
      "Input signal '" ++ signal ++ "' has no simulation trace or no values"
  | .unevenTraces lengths =>
      let shown := lengths.entries.map fun entry => entry.1 ++ "=" ++ toString entry.2
      "All simulation inputs must have the same length (" ++ Text.commaSeparated shown ++ ")"
  | .noTraces => "No simulation inputs provided"
  | .traceExhausted signal cycle =>
      "Input signal '" ++ signal ++ "' is not defined for cycle " ++ toString cycle
  | .sampleOutOfRange => "tuple index out of range"
  | .indexOverflow => "cannot fit 'int' into an index-sized integer"
  | .aborted reason => reason

/-- A computation on the variables that may fail, and keeps its writes if it does. -/
abbrev Phase := EStateM SimError (Bindings Bool)

namespace Phase

def read (signal : String) : Phase Bool := fun vars =>
  match vars.get? signal with
  | some value => .ok value vars
  | none => .error (.eval (.unbound signal)) vars

def assign (signal : String) (value : Bool) : Phase Unit := fun vars =>
  .ok () (vars.put signal value)

/-- The outcome of a computation that neither reads nor writes variables. -/
def outcome {α : Type} : Except SimError α → Phase α
  | .ok value => pure value
  | .error e => throw e

def seed (sample : String → Except SimError Bool) : List String → Phase Unit
  | [] => pure ()
  | signal :: rest => do
      let value ← outcome (sample signal)
      assign signal value
      seed sample rest

def resetLatches : List String → Phase Unit
  | [] => pure ()
  | latch :: rest => do
      assign (latchOutput latch) false
      resetLatches rest

/-- Copy the input of every latch to its output, one latch after another. -/
def copyLatches : List String → Phase Unit
  | [] => pure ()
  | latch :: rest => do
      let value ← read latch
      assign (latchOutput latch) value
      copyLatches rest

def eval (definitions : Definitions) (limit : Int) (e : Expr) : Phase Bool := fun vars =>
  match e.eval limit { definitions, globals := vars } with
  | .ok value => .ok value vars
  | .error cause => .error (.eval cause) vars

/-- Apply updates in order: each sees what the earlier ones wrote. -/
def applyUpdates (definitions : Definitions) (limit : Int) : List Update → Phase Unit
  | [] => pure ()
  | u :: rest => do
      let value ← eval definitions limit u.value
      assign u.target value
      applyUpdates definitions limit rest

end Phase

namespace Circuit

def firstSample (c : Circuit) (signal : String) : Except SimError Bool :=
  match (c.inputTrace signal).bind (·.values.head?) with
  | some value => .ok value
  | none => .error (.missingTrace signal)

/-- The sample of an input for a cycle. A negative cycle counts from the end of the trace. -/
def sampleAt (c : Circuit) (cycle : Int) (signal : String) : Except SimError Bool :=
  match c.inputTrace signal with
  | none => .error (.traceExhausted signal cycle)
  | some t =>
      if (t.length : Int) ≤ cycle then .error (.traceExhausted signal cycle)
      else if cycle < Trace.leastIndex then .error .indexOverflow
      else
        match t.sample? cycle with
        | some value => .ok value
        | none => .error .sampleOutOfRange

/-- The number of cycles for which the traces drive the circuit: the length of the first trace,
    provided that the lengths recorded by signal agree. -/
def runLength (c : Circuit) : Except SimError Nat :=
  match c.traces with
  | [] => .error .noTraces
  | first :: _ =>
      if c.traceLengths.values.Pairwise (· = ·) then .ok first.length
      else .error (.unevenTraces c.traceLengths)

end Circuit

end SyncCircuit
