import SyncCircuit.Bindings
import SyncCircuit.Expr

/-! # Function definitions

A function has a name, formal parameters and a body. A table of definitions holds at most one
definition of each name, and a definition once made stays.
-/

namespace SyncCircuit

/-- The definition of a function. -/
structure Definition where
  name : String
  parameters : List String
  body : Expr
  deriving Inhabited

namespace Definition

def arity (d : Definition) : Nat :=
  d.parameters.length

def describe (d : Definition) : String :=
  "FunctionDef(name=" ++ Text.quoted d.name ++ ", parameters=" ++
    Text.parenthesized (d.parameters.map Text.quoted) ++ ", body=" ++ d.body.describe ++ ")"

def same (d e : Definition) : Bool :=
  d.name == e.name && d.parameters == e.parameters && d.body.same e.body

end Definition

/-- A second definition of a function that already has one. -/
structure DuplicateDefinition where
  name : String
  deriving DecidableEq, Repr

def DuplicateDefinition.message (e : DuplicateDefinition) : String :=
  "Function '" ++ e.name ++ "' is defined more than once"

/-- The defined functions, by name. -/
abbrev Definitions := Bindings Definition

namespace Definitions

/-- Add a definition; a name that is already defined is refused. -/
def define (ds : Definitions) (d : Definition) : Except DuplicateDefinition Definitions :=
  if ds.contains d.name then .error ⟨d.name⟩ else .ok (ds.put d.name d)

/-- Add definitions in order, up to the first that is refused. -/
def defineAll : Definitions → List Definition → Except DuplicateDefinition Definitions
  | ds, [] => .ok ds
  | ds, d :: rest =>
      match ds.define d with
      | .ok more => defineAll more rest
      | .error e => .error e

end Definitions

end SyncCircuit
