import SyncCircuit.Proofs.Strictness

/-! # What an evaluation does

An evaluation that yields a value has entered every function that its expression applies, in arguments of
applications too, and each of their bodies has yielded a value one level deeper (`Expr.evalWithin_entered`).
One that fails does so at a signal, at a function that it cannot resolve or may not enter, in a body, or at
data (`Expr.FailsAt`). An application has a value exactly if its arguments have values at the same level and
the body has one below it (`Expr.evalWithin_apply_iff`).
-/

namespace SyncCircuit

section

variable {α β : Type} {x : Except EvalError α} {f : α → Except EvalError β}

theorem bind_eq_ok {b : β} (h : (x >>= f) = .ok b) : ∃ a, x = .ok a ∧ f a = .ok b := by
  cases x with
  | error cause => cases h
  | ok a => exact ⟨a, rfl, h⟩

theorem bind_eq_error {cause : EvalError} (h : (x >>= f) = .error cause) :
    x = .error cause ∨ ∃ a, x = .ok a ∧ f a = .error cause := by
  cases x with
  | error other =>
      cases h
      exact .inl rfl
  | ok a => exact .inr ⟨a, rfl, h⟩

end

namespace Scope

variable {s : Scope} {cause : EvalError}

theorem read_eq_error {name : String} (h : s.read name = .error cause) : cause = .unbound name := by
  unfold read at h
  split at h
  · cases h
  · cases h
    rfl

theorem resolve_eq_error {function : String} {given : Nat} (h : s.resolve function given = .error cause) :
    cause = .undefinedFunction function ∨ ∃ expected, cause = .arityMismatch function expected given := by
  unfold resolve at h
  split at h
  · cases h
    exact .inl rfl
  · split at h
    · cases h
    · cases h
      exact .inr ⟨_, rfl⟩

end Scope

namespace Expr

section Level

variable {read : String → Except EvalError Bool}
  {enter : String → Nat → Except EvalError (List Bool → Except EvalError Bool)}

theorem evalAll_eq_ok_iff {args : List Expr} {values : List Bool} :
    evalAll read enter args = .ok values ↔
      List.Forall₂ (fun arg value => arg.evalWith read enter = .ok value) args values := by
  induction args generalizing values with
  | nil =>
      simp only [evalAll, Except.ok.injEq, List.forall₂_nil_left_iff]
      exact eq_comm
  | cons arg rest ih =>
      simp only [evalAll]
      constructor
      · intro success
        obtain ⟨value, first, success⟩ := bind_eq_ok success
        obtain ⟨others, second, success⟩ := bind_eq_ok success
        cases success
        exact .cons first (ih.mp second)
      · intro evaluated
        cases evaluated with
        | cons first others =>
            rw [first, ih.mpr others]
            rfl

/-- The body of a function has yielded a value for some arguments. -/
def Entered (enter : String → Nat → Except EvalError (List Bool → Except EvalError Bool))
    (function : String) : Prop :=
  ∃ given body values a, enter function given = .ok body ∧ body values = .ok a

mutual

theorem evalWith_entered (e : Expr) {a : Bool} (success : e.evalWith read enter = .ok a) :
    ∀ function ∈ e.functions, Entered enter function := by
  cases e with
  | signal name => exact fun _ mem => nomatch mem
  | and left right | or left right =>
      simp only [evalWith] at success
      obtain ⟨b, first, success⟩ := bind_eq_ok success
      obtain ⟨c, second, -⟩ := bind_eq_ok success
      intro function mem
      rcases List.mem_append.mp mem with inLeft | inRight
      · exact evalWith_entered left first function inLeft
      · exact evalWith_entered right second function inRight
  | not operand =>
      simp only [evalWith] at success
      obtain ⟨b, first, -⟩ := bind_eq_ok success
      exact evalWith_entered operand first
  | apply function args =>
      simp only [evalWith] at success
      obtain ⟨body, entered, success⟩ := bind_eq_ok success
      obtain ⟨values, arguments, value⟩ := bind_eq_ok success
      intro other mem
      rcases List.mem_cons.mp mem with rfl | inArgs
      · exact ⟨_, body, values, a, entered, value⟩
      · exact evalAll_entered args arguments other inArgs
  | stray datum => exact fun _ mem => nomatch mem
termination_by sizeOf e

theorem evalAll_entered (args : List Expr) {values : List Bool}
    (success : evalAll read enter args = .ok values) :
    ∀ function ∈ functionsAll args, Entered enter function := by
  cases args with
  | nil => exact fun _ mem => nomatch mem
  | cons arg rest =>
      simp only [evalAll] at success
      obtain ⟨value, first, success⟩ := bind_eq_ok success
      obtain ⟨others, second, -⟩ := bind_eq_ok success
      intro function mem
      rcases List.mem_append.mp mem with inFirst | inRest
      · exact evalWith_entered arg first function inFirst
      · exact evalAll_entered rest second function inRest
termination_by sizeOf args

end

/-- Where an evaluation that applies certain functions has failed. -/
inductive FailsAt (read : String → Except EvalError Bool)
    (enter : String → Nat → Except EvalError (List Bool → Except EvalError Bool))
    (functions : List String) : EvalError → Prop where
  | read {name cause} (h : read name = .error cause) : FailsAt read enter functions cause
  | entry {function given cause} (mem : function ∈ functions)
      (h : enter function given = .error cause) : FailsAt read enter functions cause
  | body {function given body values cause} (mem : function ∈ functions)
      (entered : enter function given = .ok body) (h : body values = .error cause) :
      FailsAt read enter functions cause
  | stray {datum} : FailsAt read enter functions (.strayNode datum)

theorem FailsAt.mono {functions more : List String} {cause : EvalError}
    (fails : FailsAt read enter functions cause) (subset : functions ⊆ more) :
    FailsAt read enter more cause := by
  cases fails with
  | read h => exact .read h
  | entry mem h => exact .entry (subset mem) h
  | body mem entered h => exact .body (subset mem) entered h
  | stray => exact .stray

mutual

theorem evalWith_failsAt (e : Expr) {cause : EvalError}
    (failure : e.evalWith read enter = .error cause) : FailsAt read enter e.functions cause := by
  cases e with
  | signal name => exact .read failure
  | and left right | or left right =>
      simp only [evalWith] at failure
      rcases bind_eq_error failure with first | ⟨a, -, failure⟩
      · exact (evalWith_failsAt left first).mono (List.subset_append_left _ _)
      rcases bind_eq_error failure with second | ⟨b, -, value⟩
      · exact (evalWith_failsAt right second).mono (List.subset_append_right _ _)
      · cases value
  | not operand =>
      simp only [evalWith] at failure
      rcases bind_eq_error failure with first | ⟨a, -, value⟩
      · exact evalWith_failsAt operand first
      · cases value
  | apply function args =>
      simp only [evalWith] at failure
      rcases bind_eq_error failure with refused | ⟨body, entered, failure⟩
      · exact .entry List.mem_cons_self refused
      rcases bind_eq_error failure with arguments | ⟨values, -, failed⟩
      · exact (evalAll_failsAt args arguments).mono (List.subset_cons_self _ _)
      · exact .body List.mem_cons_self entered failed
  | stray datum =>
      cases failure
      exact .stray
termination_by sizeOf e

theorem evalAll_failsAt (args : List Expr) {cause : EvalError}
    (failure : evalAll read enter args = .error cause) :
    FailsAt read enter (functionsAll args) cause := by
  cases args with
  | nil => cases failure
  | cons arg rest =>
      simp only [evalAll] at failure
      rcases bind_eq_error failure with first | ⟨value, -, failure⟩
      · exact (evalWith_failsAt arg first).mono (List.subset_append_left _ _)
      rcases bind_eq_error failure with others | ⟨values, -, value⟩
      · exact (evalAll_failsAt rest others).mono (List.subset_append_right _ _)
      · cases value
termination_by sizeOf args

end

end Level

/-- How a function is entered with some levels left. -/
def entering (limit : Int) (levels : Nat) (s : Scope) (function : String) (given : Nat) :
    Except EvalError (List Bool → Except EvalError Bool) := do
  let d ← s.resolve function given
  match levels with
  | 0 => .error (.depthExceeded function limit)
  | below + 1 => return fun values => evalWithin limit below (s.enter d values) d.body

theorem evalWithin_eq (limit : Int) (levels : Nat) (s : Scope) (e : Expr) :
    evalWithin limit levels s e = e.evalWith s.read (entering limit levels s) := by
  cases levels <;> rfl

theorem entering_enter (limit : Int) (levels : Nat) (s : Scope) (d : Definition) (values : List Bool) :
    entering limit levels (s.enter d values) = entering limit levels s := by
  cases levels <;> rfl

variable {limit : Int} {levels : Nat} {s : Scope} {e : Expr} {function : String} {given : Nat}

theorem entering_eq_ok {body : List Bool → Except EvalError Bool}
    (h : entering limit levels s function given = .ok body) :
    ∃ below d, levels = below + 1 ∧ s.resolve function given = .ok d ∧
      body = fun values => evalWithin limit below (s.enter d values) d.body := by
  obtain ⟨d, resolved, entered⟩ := bind_eq_ok h
  cases levels with
  | zero => cases entered
  | succ below =>
      cases entered
      exact ⟨below, d, rfl, resolved, rfl⟩

theorem entering_eq_error {cause : EvalError}
    (h : entering limit levels s function given = .error cause) :
    s.resolve function given = .error cause ∨
      levels = 0 ∧ cause = .depthExceeded function limit ∧ ∃ d, s.resolve function given = .ok d := by
  rcases bind_eq_error h with unresolved | ⟨d, resolved, refused⟩
  · exact .inl unresolved
  · cases levels with
    | zero =>
        cases refused
        exact .inr ⟨rfl, rfl, d, resolved⟩
    | succ below => cases refused

/-- Every function that is applied where a value is found is defined, and its body has a value one level
    deeper. -/
theorem evalWithin_entered {a : Bool} (success : evalWithin limit levels s e = .ok a)
    (applied : function ∈ e.functions) :
    ∃ below d values b, levels = below + 1 ∧ s.definitions.get? function = some d ∧
      evalWithin limit below (s.enter d values) d.body = .ok b := by
  rw [evalWithin_eq] at success
  obtain ⟨given, body, values, b, entered, value⟩ := evalWith_entered e success function applied
  obtain ⟨below, d, deeper, resolved, rfl⟩ := entering_eq_ok entered
  exact ⟨below, d, values, b, deeper, (Scope.resolve_eq_ok resolved).1, value⟩

theorem evalWithin_apply_iff {args : List Expr} {a : Bool} :
    evalWithin limit levels s (.apply function args) = .ok a ↔
      ∃ below d values, levels = below + 1 ∧ s.resolve function args.length = .ok d ∧
        List.Forall₂ (fun arg value => evalWithin limit levels s arg = .ok value) args values ∧
        evalWithin limit below (s.enter d values) d.body = .ok a := by
  simp only [evalWithin_eq limit levels, evalWith]
  constructor
  · intro success
    obtain ⟨body, entered, success⟩ := bind_eq_ok success
    obtain ⟨values, arguments, value⟩ := bind_eq_ok success
    obtain ⟨below, d, deeper, resolved, rfl⟩ := entering_eq_ok entered
    exact ⟨below, d, values, deeper, resolved, evalAll_eq_ok_iff.mp arguments, value⟩
  · rintro ⟨below, d, values, rfl, resolved, arguments, value⟩
    rw [entering, resolved, evalAll_eq_ok_iff.mpr arguments]
    exact value

end Expr

end SyncCircuit
