import SyncCircuit.Datum
import SyncCircuit.Definition

/-! # Evaluation

An expression sees the defined functions, the variables of the root scope, and the variables of the scopes
between it and the root. A name is looked up from the nearest scope outwards.

Both operands of a connective are always evaluated, left before right. An application finds its
definition, checks the number of arguments and the nesting, evaluates the arguments in the caller's
surroundings from left to right, and then evaluates the body with the parameters bound to them.

Evaluation proceeds by levels of nesting. Within one level it follows the expression, and an applied
function is a black box (`Expr.evalWith`). The body of an applied function is one level deeper, and
the levels that are left bound the recursion (`Expr.evalWithin`).
-/

namespace SyncCircuit

/-- Why an expression has no value. -/
inductive EvalError where
  /-- No visible scope binds the signal. A signal that was never written has no default. -/
  | unbound (name : String)
  | undefinedFunction (name : String)
  | arityMismatch (name : String) (expected actual : Nat)
  | depthExceeded (name : String) (limit : Int)
  | strayNode (datum : Datum)

def EvalError.message : EvalError → String
  | .unbound name => "Signal '" ++ name ++ "' is not bound"
  | .undefinedFunction name => "Function '" ++ name ++ "' is not defined"
  | .arityMismatch name expected actual =>
      "Function '" ++ name ++ "' expects " ++ toString expected ++ " arguments, but got " ++
        toString actual
  | .depthExceeded name limit =>
      "Application of '" ++ name ++ "' exceeds the maximum call depth of " ++ toString limit
  | .strayNode datum => "Unknown expression node: " ++ datum.describe

/-- The surroundings in which an expression is evaluated. -/
structure Scope where
  definitions : Definitions
  globals : Bindings Bool
  /-- The variables of the scopes inside the root, nearest first. -/
  locals : List (Bindings Bool) := []

namespace Scope

/-- The scopes in the order in which a name is looked up. -/
def frames (s : Scope) : List (Bindings Bool) :=
  s.locals ++ [s.globals]

def get? (s : Scope) (name : String) : Option Bool :=
  s.frames.findSome? (·.get? name)

def read (s : Scope) (name : String) : Except EvalError Bool :=
  match s.get? name with
  | some value => .ok value
  | none => .error (.unbound name)

/-- The definition of a function that is applied to some number of arguments. -/
def resolve (s : Scope) (function : String) (given : Nat) : Except EvalError Definition :=
  match s.definitions.get? function with
  | none => .error (.undefinedFunction function)
  | some d =>
      if given = d.arity then .ok d else .error (.arityMismatch function d.arity given)

/-- The surroundings of a function's body: its parameters directly on top of the root scope, so
    that the body sees nothing of its caller. Of a repeated parameter the last value counts. -/
def enter (s : Scope) (d : Definition) (values : List Bool) : Scope :=
  { s with locals := [Bindings.ofList (d.parameters.zip values)] }

@[simp]
theorem definitions_enter (s : Scope) (d : Definition) (values : List Bool) :
    (s.enter d values).definitions = s.definitions := rfl

@[simp]
theorem globals_enter (s : Scope) (d : Definition) (values : List Bool) :
    (s.enter d values).globals = s.globals := rfl

end Scope

namespace Expr

mutual

/-- Evaluate an expression, given how to read a signal and how to enter a function. Entering takes
    the function's name and the number of its arguments, and may fail before any argument is
    evaluated. -/
def evalWith (read : String → Except EvalError Bool)
    (enter : String → Nat → Except EvalError (List Bool → Except EvalError Bool)) :
    Expr → Except EvalError Bool
  | .signal name => read name
  | .and left right => do
      let a ← left.evalWith read enter
      let b ← right.evalWith read enter
      return a && b
  | .or left right => do
      let a ← left.evalWith read enter
      let b ← right.evalWith read enter
      return a || b
  | .not operand => do
      let a ← operand.evalWith read enter
      return !a
  | .apply function args => do
      let body ← enter function args.length
      let values ← evalAll read enter args
      body values
  | .stray datum => .error (.strayNode datum)

def evalAll (read : String → Except EvalError Bool)
    (enter : String → Nat → Except EvalError (List Bool → Except EvalError Bool)) :
    List Expr → Except EvalError (List Bool)
  | [] => .ok []
  | arg :: rest => do
      let value ← arg.evalWith read enter
      let values ← evalAll read enter rest
      return value :: values

end

/-- Evaluate an expression in a scope with some levels of nesting left. The limit only appears in
    the report when no level is left. -/
def evalWithin (limit : Int) : Nat → Scope → Expr → Except EvalError Bool
  | 0, scope, e =>
      e.evalWith scope.read fun function given => do
        let _ ← scope.resolve function given
        .error (.depthExceeded function limit)
  | levels + 1, scope, e =>
      e.evalWith scope.read fun function given => do
        let d ← scope.resolve function given
        return fun values => evalWithin limit levels (scope.enter d values) d.body

/-- Evaluate an expression in a scope, with applications nested at most as deep as the limit. A
    negative limit allows no application, like zero. -/
def eval (limit : Int) (scope : Scope) (e : Expr) : Except EvalError Bool :=
  evalWithin limit limit.toNat scope e

/-- The limit on nested applications where none is set. -/
def defaultDepth : Int := 64

end Expr

end SyncCircuit
