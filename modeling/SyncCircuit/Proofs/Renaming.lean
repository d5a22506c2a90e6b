import SyncCircuit.Proofs.Inlining

/-! # Renaming parameters

The parameters of a function are known to its body alone. One of them can be given another name, in the list
of parameters and wherever the body reads it, as long as the function does not use that name already
(`Expr.eval_renameParameter`). What else bears the new name, a signal of the root scope or a parameter of
another function, is of no account: the body of a function sees its own parameters first, and nothing of
its caller's.
-/

namespace SyncCircuit

/-- A name, with the new one in the place of the old. -/
def rename (old new name : String) : String :=
  if name = old then new else name

theorem rename_eq_iff {old new a b : String} (left : a ≠ new) (right : b ≠ new) :
    rename old new a = rename old new b ↔ a = b := by
  unfold rename
  by_cases first : a = old
  · by_cases second : b = old
    · simp [first, second]
    · simp [first, second, right.symm, Ne.symm second]
  · by_cases second : b = old
    · simp [second, first, left]
    · simp [first, second]

theorem Bindings.get?_ofList_rename {α : Type} {old new asked : String} {names : List String}
    (fresh : new ∉ names) (other : asked ≠ new) (values : List α) :
    (ofList ((names.map (rename old new)).zip values)).get? (rename old new asked) =
      (ofList (names.zip values)).get? asked := by
  have fold : ∀ f g : Bindings α, g.get? (rename old new asked) = f.get? asked →
      (((names.map (rename old new)).zip values).foldl (fun b pair => b.put pair.1 pair.2) g).get?
          (rename old new asked) =
        ((names.zip values).foldl (fun b pair => b.put pair.1 pair.2) f).get? asked := by
    induction names generalizing values with
    | nil => exact fun _ _ base => base
    | cons head rest ih =>
        rw [List.mem_cons, not_or] at fresh
        cases values with
        | nil => exact fun _ _ base => base
        | cons value values =>
            intro f g base
            apply ih fresh.2 values
            simp only [get?_put, rename_eq_iff other (Ne.symm fresh.1), base]
  exact fold empty empty rfl

/-- A definition in which a parameter has a new name, in the list and everywhere in the body. -/
def Definition.renameParameter (d : Definition) (old new : String) : Definition where
  name := d.name
  parameters := d.parameters.map (rename old new)
  body := d.body.substitute (.ofList [(old, .signal new)])

@[simp]
theorem Definition.arity_renameParameter (d : Definition) (old new : String) :
    (d.renameParameter old new).arity = d.arity :=
  List.length_map _

namespace Scope

/-- The same surroundings with another definition of a function. -/
def redefine (s : Scope) (function : String) (d : Definition) : Scope :=
  { s with definitions := s.definitions.put function d }

theorem resolve_of_get? {s : Scope} {function : String} {given : Nat} {d : Definition}
    (defined : s.definitions.get? function = some d) :
    s.resolve function given =
      if given = d.arity then .ok d else .error (.arityMismatch function d.arity given) := by
  rw [resolve, defined]

theorem resolve_redefine_self (s : Scope) (function : String) (given : Nat) (d : Definition) :
    (s.redefine function d).resolve function given =
      if given = d.arity then .ok d else .error (.arityMismatch function d.arity given) :=
  resolve_of_get? (s.definitions.get?_put_self function d)

theorem resolve_redefine_of_ne {s : Scope} {f function : String} {given : Nat} {d : Definition}
    (other : function ≠ f) : (s.redefine f d).resolve function given = s.resolve function given := by
  rw [resolve, resolve, redefine, Bindings.get?_put_of_ne _ d other]

variable {s : Scope} {d : Definition} {old new name : String} {values : List Bool}

/-- The body reads under the new name what it read under the old one. Everything else it reads as before,
    even a signal of the root scope that has the old name elsewhere. -/
theorem read_enter_renameParameter (parameter : old ∈ d.parameters) (fresh : new ∉ d.parameters)
    (count : values.length = d.arity) (other : name ≠ new) :
    (s.enter (d.renameParameter old new) values).read (rename old new name) =
      (s.enter d values).read name := by
  rw [read_enter, read_enter, Definition.renameParameter, Bindings.get?_ofList_rename fresh other]
  cases found : (Bindings.ofList (d.parameters.zip values)).get? name with
  | some value => rfl
  | none =>
      have outside : name ≠ old := by
        rintro rfl
        exact not_parameter_of_get?_eq_none count found parameter
      rw [rename, if_neg outside]

end Scope

namespace Expr

theorem evalWith_congr {read₁ read₂ : String → Except EvalError Bool}
    {enter₁ enter₂ : String → Nat → Except EvalError (List Bool → Except EvalError Bool)} (e : Expr)
    (reads : ∀ name ∈ e.signals, read₁ name = read₂ name)
    (enters : ∀ function given, Follows (fun f g => ∀ values, values.length = given → g values = f values)
      (fun _ => False) (enter₁ function given) (enter₂ function given)) :
    e.evalWith read₂ enter₂ = e.evalWith read₁ enter₁ := by
  have follows : Follows (Same True) (fun _ => False) (e.evalWith read₁ enter₁)
      (e.evalWith read₂ enter₂) := by
    apply evalWith_follows e
    · intro name named
      rw [reads name named]
      exact .self _
    · intro function _ given
      have entered := enters function given
      generalize enter₁ function given = first at entered ⊢
      generalize enter₂ function given = second at entered ⊢
      cases entered with
      | value same =>
          refine .value fun as bs arguments count => ?_
          cases forall₂_same_eq arguments
          rw [same as count]
          exact .self _
      | failure => exact .failure
      | excuse spared => exact spared.elim
  exact follows.eq_of_unexcused

variable {s : Scope} {f : String} {d : Definition} {old new : String} {limit : Int} {levels : Nat}

theorem substitute_signal_rename (name : String) :
    substitute (.ofList [(old, .signal new)]) (.signal name) = .signal (rename old new name) := by
  simp only [substitute, Bindings.ofList, List.foldl_cons, List.foldl_nil, Bindings.get?_put,
    Bindings.get?_empty, rename]
  split <;> rfl

theorem evalWithin_body_renameParameter (parameter : old ∈ d.parameters) (fresh : new ∉ d.parameters)
    (unread : new ∉ d.body.signals) {values : List Bool} (count : values.length = d.arity) :
    evalWithin limit levels (s.enter (d.renameParameter old new) values) (d.renameParameter old new).body =
      evalWithin limit levels (s.enter d values) d.body := by
  rw [evalWithin_eq, evalWithin_eq, entering_enter, entering_enter, Definition.renameParameter,
    evalWith_substitute]
  apply evalWith_congr
  · intro name named
    have other : name ≠ new := fun same => unread (same ▸ named)
    rw [substitute_signal_rename, evalWith]
    exact (Scope.read_enter_renameParameter parameter fresh count other).symm
  · intro function given
    cases entering limit levels s function given with
    | ok body => exact .value fun _ _ => rfl
    | error cause => exact .failure

/-- The induction is on the levels left. At each level the renamed function may be applied beside others,
    and their bodies may apply it again one level deeper. -/
theorem evalWithin_renameParameter (defined : s.definitions.get? f = some d)
    (parameter : old ∈ d.parameters) (fresh : new ∉ d.parameters) (unread : new ∉ d.body.signals)
    (e : Expr) :
    evalWithin limit levels (s.redefine f (d.renameParameter old new)) e = evalWithin limit levels s e := by
  induction levels using Nat.strongRecOn generalizing s e with
  | ind levels ih =>
      rw [evalWithin_eq, evalWithin_eq]
      apply evalWith_congr e fun _ _ => rfl
      intro function given
      unfold entering
      by_cases here : function = f
      · rw [here, Scope.resolve_of_get? defined, Scope.resolve_redefine_self,
          Definition.arity_renameParameter]
        by_cases fits : given = d.arity
        · rw [if_pos fits, if_pos fits]
          cases levels with
          | zero => exact .failure
          | succ below =>
              refine .value fun values count => ?_
              have deeper := ih below (Nat.lt_succ_self below) (s := s.enter (d.renameParameter old new) values)
                defined (d.renameParameter old new).body
              exact deeper.trans (evalWithin_body_renameParameter parameter fresh unread (count.trans fits))
        · rw [if_neg fits, if_neg fits]
          exact .failure
      · rw [Scope.resolve_redefine_of_ne here]
        cases s.resolve function given with
        | error cause => exact .failure
        | ok other =>
            cases levels with
            | zero => exact .failure
            | succ below =>
                refine .value fun values _ => ?_
                exact ih below (Nat.lt_succ_self below) (s := s.enter other values) defined other.body

/-- The names of parameters are immaterial. Give a parameter of a function a name that is neither another
    parameter of it nor read in its body: every expression has the same value as before, or fails in the
    same way, in every scope and within every limit. The new name may well be bound at the root or be a
    parameter of another function. -/
theorem eval_renameParameter (s : Scope) {f : String} {d : Definition} {old new : String}
    (defined : s.definitions.get? f = some d) (parameter : old ∈ d.parameters)
    (fresh : new ∉ d.parameters) (unread : new ∉ d.body.signals) (limit : Int) (e : Expr) :
    e.eval limit (s.redefine f (d.renameParameter old new)) = e.eval limit s :=
  evalWithin_renameParameter defined parameter fresh unread e

private def guard : Definition :=
  ⟨"guard", ["A"], .or (.apply "gate" [.not (.signal "A")]) (.signal "C")⟩

/-- The parameter of the guard is about to get a name that is bound at the root, and that the function
    which it applies has for its own parameter. -/
private def guarded : Scope where
  definitions := .ofList [("gate", ⟨"gate", ["B"], .and (.signal "B") (.signal "Enable")⟩), ("guard", guard)]
  globals := .ofList [("B", true), ("C", false), ("Enable", true)]
  locals := [.ofList [("A", false)]]

theorem eval_renameParameter_guard :
    guard.renameParameter "A" "B" =
        ⟨"guard", ["B"], .or (.apply "gate" [.not (.signal "B")]) (.signal "C")⟩ ∧
      eval 2 guarded (.apply "guard" [.apply "gate" [.signal "A"]]) = .ok true ∧
      eval 2 (guarded.redefine "guard" (guard.renameParameter "A" "B"))
        (.apply "guard" [.apply "gate" [.signal "A"]]) = .ok true ∧
      eval 1 guarded (.apply "guard" [.signal "B"]) = .error (.depthExceeded "gate" 1) ∧
      eval 1 (guarded.redefine "guard" (guard.renameParameter "A" "B"))
        (.apply "guard" [.signal "B"]) = .error (.depthExceeded "gate" 1) := by
  have value : eval 2 guarded (.apply "guard" [.apply "gate" [.signal "A"]]) = .ok true := rfl
  have failure : eval 1 guarded (.apply "guard" [.signal "B"]) = .error (.depthExceeded "gate" 1) := rfl
  have same := eval_renameParameter guarded (f := "guard") (d := guard) rfl
    (by decide : "A" ∈ guard.parameters) (by decide : "B" ∉ guard.parameters)
    (by decide : "B" ∉ guard.body.signals)
  refine ⟨rfl, value, ?_, failure, ?_⟩
  · rw [same, value]
  · rw [same, failure]

end Expr

end SyncCircuit
