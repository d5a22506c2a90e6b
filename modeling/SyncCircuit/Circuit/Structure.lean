import SyncCircuit.Circuit

/-! # Structural rules of circuits

A name is declared once and in one role; a signal is updated at most once, and neither an input nor
the output of a latch is updated; a function does not repeat a parameter. The check reports the
first violation, in the order in which these rules are listed.
-/

namespace SyncCircuit

/-- What a name is declared as. -/
inductive Role where
  | input
  | output
  | latch
  deriving DecidableEq, Repr

def Role.word : Role → String
  | .input => "input"
  | .output => "output"
  | .latch => "latch"

/-- A violation of the structural rules. -/
inductive StructureError where
  | declaredTwice (name : String) (role : Role)
  | declaredBoth (name : String) (first second : Role)
  | updatedTwice (name : String)
  | inputUpdated (name : String)
  | latchOutputUpdated (name : String)
  | repeatedParameter (function : String)
  deriving DecidableEq, Repr

def StructureError.message : StructureError → String
  | .declaredTwice name role => "Signal '" ++ name ++ "' is declared twice as " ++ role.word
  | .declaredBoth name first second =>
      "Signal '" ++ name ++ "' is declared both as " ++ first.word ++ " and as " ++ second.word
  | .updatedTwice name => "Signal '" ++ name ++ "' is updated more than once"
  | .inputUpdated name => "Input signal '" ++ name ++ "' cannot be updated"
  | .latchOutputUpdated name =>
      "Latch output '" ++ name ++ "' is driven by its latch and cannot be updated"
  | .repeatedParameter function => "Function '" ++ function ++ "' repeats a parameter name"

namespace Circuit

/-- Every declared name with its role: inputs, then outputs, then latches. -/
def declarations (c : Circuit) : List (String × Role) :=
  c.inputs.map (·, .input) ++ c.outputs.map (·, .output) ++ c.latches.map (·, .latch)

/-- Check that no declared name was declared before. -/
def checkRoles (seen : List (String × Role)) : List (String × Role) → Except StructureError Unit
  | [] => .ok ()
  | (name, role) :: rest =>
      match seen.lookup name with
      | some first =>
          if first = role then .error (.declaredTwice name role)
          else .error (.declaredBoth name first role)
      | none => checkRoles ((name, role) :: seen) rest

/-- Check that no target was a target before, is an input, or is the output of a latch. -/
def checkTargets (c : Circuit) (seen : List String) : List String → Except StructureError Unit
  | [] => .ok ()
  | target :: rest =>
      if target ∈ seen then .error (.updatedTwice target)
      else if target ∈ c.inputs then .error (.inputUpdated target)
      else if target ∈ c.latchOutputs then .error (.latchOutputUpdated target)
      else c.checkTargets (target :: seen) rest

def checkParameters : List Definition → Except StructureError Unit
  | [] => .ok ()
  | d :: rest =>
      if d.parameters.Nodup then checkParameters rest else .error (.repeatedParameter d.name)

/-- Check the structural rules and report the first violation. -/
def checkStructure (c : Circuit) : Except StructureError Unit := do
  checkRoles [] c.declarations
  c.checkTargets [] c.targets
  checkParameters c.definitions

end Circuit

end SyncCircuit
