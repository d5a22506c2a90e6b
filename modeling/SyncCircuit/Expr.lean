import SyncCircuit.Datum

/-! # Boolean expressions over named signals

An expression reads signals, combines them by conjunction, disjunction and negation, and applies
functions that are defined elsewhere by name. Data may stand where an expression is expected; it
has a written form, but no value.
-/

namespace SyncCircuit

/-- A Boolean expression. -/
inductive Expr where
  | signal (name : String)
  | and (left right : Expr)
  | or (left right : Expr)
  | not (operand : Expr)
  | apply (function : String) (args : List Expr)
  /-- Data in the place of an expression. -/
  | stray (datum : Datum)
  deriving Inhabited

namespace Expr

mutual

/-- The written form of an expression: each node with the names of its parts. -/
def describe : Expr → String
  | .signal name => "SignalRef(name=" ++ Text.quoted name ++ ")"
  | .and left right => "And(left=" ++ left.describe ++ ", right=" ++ right.describe ++ ")"
  | .or left right => "Or(left=" ++ left.describe ++ ", right=" ++ right.describe ++ ")"
  | .not operand => "Not(operand=" ++ operand.describe ++ ")"
  | .apply function args =>
      "Apply(function=" ++ Text.quoted function ++ ", args=" ++
        Text.parenthesized (describeAll args) ++ ")"
  | .stray datum => datum.describe

def describeAll : List Expr → List String
  | [] => []
  | arg :: rest => arg.describe :: describeAll rest

end

mutual

/-- Whether two expressions have the same nodes in the same places. Stray data are compared as
    data. -/
def same : Expr → Expr → Bool
  | .signal a, .signal b => a == b
  | .and a b, .and c d => a.same c && b.same d
  | .or a b, .or c d => a.same c && b.same d
  | .not a, .not b => a.same b
  | .apply f as, .apply g bs => f == g && sameAll as bs
  | .stray a, .stray b => a.same b
  | _, _ => false

def sameAll : List Expr → List Expr → Bool
  | [], [] => true
  | a :: as, b :: bs => a.same b && sameAll as bs
  | _, _ => false

end

end Expr

/-- One equation of a circuit: the target takes the value of the expression. -/
structure Update where
  target : String
  value : Expr
  deriving Inhabited

namespace Update

def describe (u : Update) : String :=
  "Update(target=" ++ Text.quoted u.target ++ ", value=" ++ u.value.describe ++ ")"

def same (u v : Update) : Bool :=
  u.target == v.target && u.value.same v.value

end Update

end SyncCircuit
