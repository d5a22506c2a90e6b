import SyncCircuit.Proofs.Evaluation

/-! # Inlining

An application can be replaced by the body of its function, in which every parameter is replaced by its
argument. All parameters are replaced at once, and by arguments in which nothing is applied any more, so a
name in the result always stands for a signal of the root scope. What evaluation computes with scopes is
what inlining leaves to be computed without any (`Expr.eval_eq_eval_inlined`).
-/

namespace SyncCircuit

namespace Expr

mutual

/-- Replace signals by expressions, all at once. Other signals stay, and so do the names of functions. -/
def substitute (replacement : Bindings Expr) : Expr → Expr
  | .signal name => (replacement.get? name).getD (.signal name)
  | .and left right => .and (left.substitute replacement) (right.substitute replacement)
  | .or left right => .or (left.substitute replacement) (right.substitute replacement)
  | .not operand => .not (operand.substitute replacement)
  | .apply function args => .apply function (substituteAll replacement args)
  | .stray datum => .stray datum

def substituteAll (replacement : Bindings Expr) : List Expr → List Expr
  | [] => []
  | arg :: rest => arg.substitute replacement :: substituteAll replacement rest

end

mutual

/-- The inlining of an expression ends with another one. Of a repeated parameter the last argument
    counts. -/
inductive Inlines (definitions : Definitions) : Expr → Expr → Prop where
  | signal {name} : Inlines definitions (.signal name) (.signal name)
  | and {left right left' right'} (first : Inlines definitions left left')
      (second : Inlines definitions right right') :
      Inlines definitions (.and left right) (.and left' right')
  | or {left right left' right'} (first : Inlines definitions left left')
      (second : Inlines definitions right right') :
      Inlines definitions (.or left right) (.or left' right')
  | not {operand operand'} (inner : Inlines definitions operand operand') :
      Inlines definitions (.not operand) (.not operand')
  | apply {function args args' d result} (defined : definitions.get? function = some d)
      (fits : args.length = d.arity) (arguments : InlinesAll definitions args args')
      (body : Inlines definitions (d.body.substitute (.ofList (d.parameters.zip args'))) result) :
      Inlines definitions (.apply function args) result
  | stray {datum} : Inlines definitions (.stray datum) (.stray datum)

inductive InlinesAll (definitions : Definitions) : List Expr → List Expr → Prop where
  | nil : InlinesAll definitions [] []
  | cons {arg arg' rest rest'} (first : Inlines definitions arg arg')
      (others : InlinesAll definitions rest rest') :
      InlinesAll definitions (arg :: rest) (arg' :: rest')

end

variable {definitions : Definitions}

mutual

theorem Inlines.unique {e a b : Expr} : e.Inlines definitions a → e.Inlines definitions b → a = b
  | .signal, .signal => rfl
  | .and first second, .and first' second' => by rw [first.unique first', second.unique second']
  | .or first second, .or first' second' => by rw [first.unique first', second.unique second']
  | .not inner, .not inner' => by rw [inner.unique inner']
  | .apply defined _ arguments body, .apply defined' _ arguments' body' => by
      cases defined.symm.trans defined'
      cases arguments.unique arguments'
      exact body.unique body'
  | .stray, .stray => rfl

theorem InlinesAll.unique {args as bs : List Expr} :
    InlinesAll definitions args as → InlinesAll definitions args bs → as = bs
  | .nil, .nil => rfl
  | .cons first others, .cons first' others' => by rw [first.unique first', others.unique others']

end

theorem Inlines.functions_eq_nil {e plain : Expr} : e.Inlines definitions plain → plain.functions = []
  | .signal => rfl
  | .and first second => by simp [functions, first.functions_eq_nil, second.functions_eq_nil]
  | .or first second => by simp [functions, first.functions_eq_nil, second.functions_eq_nil]
  | .not inner => inner.functions_eq_nil
  | .apply _ _ _ body => body.functions_eq_nil
  | .stray => rfl

section Substitution

variable {read : String → Except EvalError Bool}
  {enter : String → Nat → Except EvalError (List Bool → Except EvalError Bool)}

theorem length_substituteAll (replacement : Bindings Expr) (args : List Expr) :
    (substituteAll replacement args).length = args.length := by
  induction args with
  | nil => rfl
  | cons arg rest ih => exact congrArg (· + 1) ih

mutual

/-- Within one level, evaluating after a substitution is reading the values of what was put in. -/
theorem evalWith_substitute (replacement : Bindings Expr) (e : Expr) :
    (e.substitute replacement).evalWith read enter =
      e.evalWith (fun name => (substitute replacement (.signal name)).evalWith read enter) enter := by
  cases e with
  | signal name => rfl
  | and left right | or left right =>
      simp only [substitute, evalWith, evalWith_substitute replacement left,
        evalWith_substitute replacement right]
  | not operand => simp only [substitute, evalWith, evalWith_substitute replacement operand]
  | apply function args =>
      simp only [substitute, evalWith, length_substituteAll, evalAll_substitute replacement args]
  | stray datum => rfl
termination_by sizeOf e

theorem evalAll_substitute (replacement : Bindings Expr) (args : List Expr) :
    evalAll read enter (substituteAll replacement args) =
      evalAll (fun name => (substitute replacement (.signal name)).evalWith read enter) enter args := by
  cases args with
  | nil => rfl
  | cons arg rest =>
      simp only [substituteAll, evalAll, evalWith_substitute replacement arg,
        evalAll_substitute replacement rest]
termination_by sizeOf args

end

end Substitution

/-- An expression has a value, however functions are entered. -/
def Shows (read : String → Except EvalError Bool) (e : Expr) (a : Bool) : Prop :=
  ∀ enter, e.evalWith read enter = .ok a

variable {limit : Int} {levels : Nat} {globals : Bindings Bool}

theorem read_enter_eq {d : Definition} {plains : List Expr} {values : List Bool}
    (arguments : List.Forall₂ (Shows (Scope.read { definitions, globals })) plains values) (name : String)
    (enter : String → Nat → Except EvalError (List Bool → Except EvalError Bool)) :
    (Scope.enter { definitions, globals } d values).read name =
      (substitute (.ofList (d.parameters.zip plains)) (.signal name)).evalWith
        (Scope.read { definitions, globals }) enter := by
  have related : Option.Rel (Shows (Scope.read { definitions, globals }))
      ((Bindings.ofList (d.parameters.zip plains)).get? name)
      ((Bindings.ofList (d.parameters.zip values)).get? name) :=
    Bindings.get?_foldl_put_rel arguments (fun _ => .none) name
  rw [Scope.read_enter, substitute]
  generalize (Bindings.ofList (d.parameters.zip plains)).get? name = plain at related
  generalize (Bindings.ofList (d.parameters.zip values)).get? name = value at related
  cases related with
  | some shows => exact (shows enter).symm
  | none => rfl

theorem evalWithin_substitute {d : Definition} {plains : List Expr} {values : List Bool}
    (arguments : List.Forall₂ (Shows (Scope.read { definitions, globals })) plains values) (e : Expr) :
    evalWithin limit levels { definitions, globals } (e.substitute (.ofList (d.parameters.zip plains))) =
      evalWithin limit levels (Scope.enter { definitions, globals } d values) e := by
  rw [evalWithin_eq, evalWithin_eq, evalWith_substitute, entering_enter]
  congr 1
  funext name
  exact (read_enter_eq arguments name _).symm

mutual

/-- The induction goes down the levels, and within a level down the expression: a body is inlined with its
    arguments put in, and these may be larger than the application was. -/
theorem exists_inlines {levels : Nat} (e : Expr) {a : Bool}
    (success : evalWithin limit levels { definitions, globals } e = .ok a) :
    ∃ plain, e.Inlines definitions plain ∧ plain.Shows (Scope.read { definitions, globals }) a := by
  cases e with
  | signal name =>
      rw [evalWithin_eq] at success
      exact ⟨_, .signal, fun _ => success⟩
  | and left right | or left right =>
      rw [evalWithin_eq, evalWith] at success
      obtain ⟨b, first, success⟩ := bind_eq_ok success
      obtain ⟨c, second, success⟩ := bind_eq_ok success
      rw [← evalWithin_eq] at first second
      obtain ⟨left', inlined, shows⟩ := exists_inlines left first
      obtain ⟨right', inlined', shows'⟩ := exists_inlines right second
      refine ⟨_, by constructor; exacts [inlined, inlined'], fun enter => ?_⟩
      rw [evalWith, shows, shows']
      exact success
  | not operand =>
      rw [evalWithin_eq, evalWith] at success
      obtain ⟨b, first, success⟩ := bind_eq_ok success
      rw [← evalWithin_eq] at first
      obtain ⟨operand', inlined, shows⟩ := exists_inlines operand first
      refine ⟨_, .not inlined, fun enter => ?_⟩
      rw [evalWith, shows]
      exact success
  | apply function args =>
      obtain ⟨below, d, values, deeper, resolved, arguments, value⟩ := evalWithin_apply_iff.mp success
      obtain ⟨defined, fits⟩ := Scope.resolve_eq_ok resolved
      obtain ⟨plains, inlined, shown⟩ := exists_inlinesAll args arguments
      rw [← evalWithin_substitute shown] at value
      obtain ⟨plain, body, shows⟩ := exists_inlines _ value
      exact ⟨plain, .apply defined fits inlined body, shows⟩
  | stray datum =>
      rw [evalWithin_eq] at success
      cases success
termination_by (levels, sizeOf e)

theorem exists_inlinesAll {levels : Nat} (args : List Expr) {values : List Bool}
    (success : List.Forall₂ (fun arg value =>
      evalWithin limit levels { definitions, globals } arg = .ok value) args values) :
    ∃ plains, InlinesAll definitions args plains ∧
      List.Forall₂ (Shows (Scope.read { definitions, globals })) plains values := by
  cases success with
  | nil => exact ⟨[], .nil, .nil⟩
  | cons first others =>
      obtain ⟨plain, inlined, shows⟩ := exists_inlines _ first
      obtain ⟨plains, inlinedAll, shown⟩ := exists_inlinesAll _ others
      exact ⟨plain :: plains, .cons inlined inlinedAll, .cons shows shown⟩
termination_by (levels, sizeOf args)

end

/-- Application is inlining: if an expression has a value at the root, its inlining comes to an end, with one
    expression in which nothing is applied, and that has the same value at the root within every limit. -/
theorem eval_eq_eval_inlined (definitions : Definitions) (globals : Bindings Bool) (limit : Int) (e : Expr)
    {a : Bool} (success : e.eval limit { definitions, globals } = .ok a) :
    ∃ plain, (∀ result, e.Inlines definitions result ↔ result = plain) ∧ plain.functions = [] ∧
      ∀ other, plain.eval other { definitions, globals } = .ok a := by
  obtain ⟨plain, inlined, shows⟩ := exists_inlines e success
  refine ⟨plain, fun result => ⟨fun h => h.unique inlined, fun same => same ▸ inlined⟩,
    inlined.functions_eq_nil, fun other => ?_⟩
  rw [eval, evalWithin_eq]
  exact shows _

/-- A function whose parameter has the name of a signal that the function it applies reads, and one with a
    repeated parameter. -/
private def shadowing : Definitions :=
  .ofList [("gate", ⟨"gate", ["A"], .and (.signal "A") (.signal "Enable")⟩),
    ("guard", ⟨"guard", ["Enable"], .or (.apply "gate" [.not (.signal "Enable")]) (.signal "A")⟩),
    ("last", ⟨"last", ["P", "P"], .signal "P"⟩)]

theorem eval_eq_eval_inlined_shadowed :
    eval 2 { definitions := shadowing, globals := .ofList [("A", false), ("Enable", true)] }
        (.apply "guard" [.apply "last" [.signal "Enable", .signal "A"]]) = .ok true ∧
      Inlines shadowing (.apply "guard" [.apply "last" [.signal "Enable", .signal "A"]])
        (.or (.and (.not (.signal "A")) (.signal "Enable")) (.signal "A")) ∧
      eval 0 { definitions := shadowing, globals := .ofList [("A", false), ("Enable", true)] }
        (.or (.and (.not (.signal "A")) (.signal "Enable")) (.signal "A")) = .ok true := by
  have value : eval 2 { definitions := shadowing, globals := .ofList [("A", false), ("Enable", true)] }
      (.apply "guard" [.apply "last" [.signal "Enable", .signal "A"]]) = .ok true := rfl
  have inlines : Inlines shadowing (.apply "guard" [.apply "last" [.signal "Enable", .signal "A"]])
      (.or (.and (.not (.signal "A")) (.signal "Enable")) (.signal "A")) :=
    .apply rfl rfl (.cons (.apply rfl rfl (.cons .signal (.cons .signal .nil)) .signal) .nil)
      (.or (.apply rfl rfl (.cons (.not .signal) .nil) (.and (.not .signal) .signal)) .signal)
  obtain ⟨plain, unique, -, same⟩ := eval_eq_eval_inlined _ _ _ _ value
  exact ⟨value, inlines, (unique _).mp inlines ▸ same 0⟩

end Expr

end SyncCircuit
