import SyncCircuit.Definition

/-! # What an expression can read

An expression names signals and applies functions. The body of a function reads its parameters, and every
other name that it mentions at the root, whatever its caller's parameters are called; then it may apply
further functions. So what an expression can read at the root is what it names itself, and what the bodies
of all functions that it applies, directly or not, name apart from their own parameters.
-/

namespace SyncCircuit

namespace Expr

mutual

/-- The signals that an expression names, in the arguments of applications too. -/
def signals : Expr → List String
  | .signal name => [name]
  | .and left right => left.signals ++ right.signals
  | .or left right => left.signals ++ right.signals
  | .not operand => operand.signals
  | .apply _ args => signalsAll args
  | .stray _ => []

def signalsAll : List Expr → List String
  | [] => []
  | arg :: rest => arg.signals ++ signalsAll rest

end

mutual

/-- The functions that an expression applies, in the arguments of applications too. -/
def functions : Expr → List String
  | .signal _ => []
  | .and left right => left.functions ++ right.functions
  | .or left right => left.functions ++ right.functions
  | .not operand => operand.functions
  | .apply function args => function :: functionsAll args
  | .stray _ => []

def functionsAll : List Expr → List String
  | [] => []
  | arg :: rest => arg.functions ++ functionsAll rest

end

/-- A function is applied in an expression, or in the body of a function that is. -/
inductive Applies (definitions : Definitions) (e : Expr) : String → Prop where
  | here {f} (mem : f ∈ e.functions) : Applies definitions e f
  | inside {f g d} (outer : Applies definitions e f) (found : definitions.get? f = some d)
      (mem : g ∈ d.body.functions) : Applies definitions e g

/-- A name is read at the root by the body of a function that an expression applies. -/
def ReadsInBody (definitions : Definitions) (e : Expr) (name : String) : Prop :=
  ∃ f d, e.Applies definitions f ∧ definitions.get? f = some d ∧ name ∈ d.body.signals ∧
    name ∉ d.parameters

/-- The evaluation of an expression at the root can read a name. -/
def Reads (definitions : Definitions) (e : Expr) (name : String) : Prop :=
  name ∈ e.signals ∨ e.ReadsInBody definitions name

section

variable {definitions : Definitions} {e : Expr} {d : Definition} {f g name : String}

theorem Applies.of_body (mem : f ∈ e.functions) (found : definitions.get? f = some d)
    (applies : d.body.Applies definitions g) : e.Applies definitions g := by
  induction applies with
  | here inBody => exact .inside (.here mem) found inBody
  | inside _ known inBody ih => exact .inside ih known inBody

theorem ReadsInBody.of_body (mem : f ∈ e.functions) (found : definitions.get? f = some d)
    (reads : d.body.ReadsInBody definitions name) : e.ReadsInBody definitions name := by
  obtain ⟨g, other, applies, known, named, global⟩ := reads
  exact ⟨g, other, applies.of_body mem found, known, named, global⟩

theorem Reads.mem_signals
    (parametric : ∀ f d, definitions.get? f = some d → ∀ name ∈ d.body.signals, name ∈ d.parameters)
    (reads : e.Reads definitions name) : name ∈ e.signals := by
  rcases reads with named | ⟨f, d, -, found, named, global⟩
  · exact named
  · exact absurd (parametric f d found name named) global

end

end Expr

end SyncCircuit
