import Mathlib.Data.List.Forall2
import Mathlib.Data.Option.Basic
import SyncCircuit.Eval
import SyncCircuit.Proofs.Reads
import SyncCircuit.Proofs.Writes

/-! # Strict evaluation

Both operands of a connective and all arguments of an application are evaluated, so the reads of an
expression do not depend on values. Hence success is decided by the bound names alone
(`Expr.eval_bound`), more bindings change nothing (`Expr.eval_extend`), and the value is fixed by the
names that were bound where the expression has once been evaluated (`Expr.eval_agree`). What an
expression cannot read has no effect at all (`Expr.eval_eq_of_reads`).

All these are one comparison of two evaluations (`Expr.evalWithin_follows`), whose strength is set by
`Follows`. Two valuations are compared in the same way: one lies below the other (`Bindings.Below`), or
they bind the same names (`Bindings.Twins`).
-/

namespace SyncCircuit

/-- How a second evaluation follows a first. A value of the first is matched by a related one; a
    failure of the first is repeated, unless it is excused. -/
inductive Follows {α β : Type} (related : α → β → Prop) (excused : EvalError → Prop) :
    Except EvalError α → Except EvalError β → Prop where
  | value {a b} (h : related a b) : Follows related excused (.ok a) (.ok b)
  | failure {e} : Follows related excused (.error e) (.error e)
  | excuse {e second} (h : excused e) : Follows related excused (.error e) second

/-- Values are compared, or only their presence is. -/
def Same (exact : Prop) (a b : Bool) : Prop :=
  exact → a = b

namespace Follows

variable {α β γ δ : Type} {R : α → β → Prop} {S : γ → δ → Prop} {excused : EvalError → Prop}

theorem bind {x : Except EvalError α} {y : Except EvalError β} {f : α → Except EvalError γ}
    {g : β → Except EvalError δ} (h : Follows R excused x y)
    (rest : ∀ a b, R a b → Follows S excused (f a) (g b)) :
    Follows S excused (x >>= f) (y >>= g) := by
  cases h with
  | value related => exact rest _ _ related
  | failure => exact .failure
  | excuse spared => exact .excuse spared

theorem of_ok {a : α} {y : Except EvalError β} (h : Follows R excused (.ok a) y) :
    ∃ b, y = .ok b ∧ R a b := by
  cases h with
  | value related => exact ⟨_, rfl, related⟩

theorem self {exact : Prop} (x : Except EvalError Bool) : Follows (Same exact) excused x x := by
  cases x with
  | ok a => exact .value fun _ => rfl
  | error cause => exact .failure

theorem eq_or_excused {x y : Except EvalError Bool} (h : Follows (Same True) excused x y) :
    y = x ∨ ∃ cause, x = .error cause ∧ excused cause := by
  cases h with
  | value same => exact .inl (by rw [same trivial])
  | failure => exact .inl rfl
  | excuse spared => exact .inr ⟨_, rfl, spared⟩

theorem eq_of_unexcused {x y : Except EvalError Bool} (h : Follows (Same True) (fun _ => False) x y) :
    y = x :=
  h.eq_or_excused.resolve_right fun ⟨_, _, spared⟩ => spared

end Follows

theorem forall₂_same_eq {as bs : List Bool} (h : List.Forall₂ (Same True) as bs) : as = bs := by
  induction h with
  | nil => rfl
  | cons first _ ih => rw [first trivial, ih]

theorem Bindings.get?_foldl_put_rel {α β : Type} {R : α → β → Prop} {names : List String}
    {as : List α} {bs : List β} (related : List.Forall₂ R as bs) {f : Bindings α} {g : Bindings β}
    (base : ∀ name, Option.Rel R (f.get? name) (g.get? name)) (name : String) :
    Option.Rel R
      (((names.zip as).foldl (fun b pair => b.put pair.1 pair.2) f).get? name)
      (((names.zip bs).foldl (fun b pair => b.put pair.1 pair.2) g).get? name) := by
  induction names generalizing as bs f g with
  | nil => exact base name
  | cons head rest ih =>
      cases related with
      | nil => exact base name
      | cons first others =>
          refine ih others fun asked => ?_
          rw [Bindings.get?_put, Bindings.get?_put]
          split
          · exact .some first
          · exact base asked

/-- Two valuations bind certain names, and to the same values. -/
def Bindings.AgreeOn (names : List String) (f g : Bindings Bool) : Prop :=
  ∀ name ∈ names, ∃ value, f.get? name = some value ∧ g.get? name = some value

namespace Bindings

/-- The second valuation binds what the first binds, and maybe more. -/
def Below (exact : Prop) (f g : Bindings Bool) : Prop :=
  ∀ name a, f.get? name = some a → ∃ b, g.get? name = some b ∧ Same exact a b

/-- Both valuations bind the same names. -/
def Twins (exact : Prop) (f g : Bindings Bool) : Prop :=
  ∀ name, Option.Rel (Same exact) (f.get? name) (g.get? name)

variable {exact : Prop} {f g : Bindings Bool}

theorem Below.put (below : f.Below exact g) (name : String) {a b : Bool} (same : Same exact a b) :
    (f.put name a).Below exact (g.put name b) := by
  intro asked value found
  rw [get?_put] at found ⊢
  split at found
  · rename_i here
    cases found
    exact ⟨b, by rw [if_pos here], same⟩
  · rename_i elsewhere
    obtain ⟨c, also, same⟩ := below asked value found
    exact ⟨c, by rw [if_neg elsewhere, also], same⟩

theorem Below.twins (below : f.Below exact g) (names : ∀ name ∈ g.names, name ∈ f.names) :
    f.Twins exact g := by
  intro name
  cases found : f.get? name with
  | some a =>
      obtain ⟨b, also, same⟩ := below name a found
      rw [also]
      exact .some same
  | none =>
      have unbound : name ∉ g.names := fun bound => (f.get?_eq_none_iff name).mp found (names name bound)
      rw [(g.get?_eq_none_iff name).mpr unbound]
      exact .none

theorem Twins.put (twins : f.Twins exact g) (name : String) {a b : Bool} (same : Same exact a b) :
    (f.put name a).Twins exact (g.put name b) := by
  intro asked
  rw [get?_put, get?_put]
  split
  · exact .some same
  · exact twins asked

theorem Twins.below (twins : f.Twins exact g) : f.Below exact g := by
  intro name a found
  have related := twins name
  rw [found] at related
  generalize g.get? name = second at related
  cases related with
  | some same => exact ⟨_, rfl, same⟩

theorem Twins.get?_eq (strict : exact) (twins : f.Twins exact g) (name : String) :
    f.get? name = g.get? name := by
  have related := twins name
  generalize f.get? name = first at related ⊢
  generalize g.get? name = second at related ⊢
  cases related with
  | some same => rw [same strict]
  | none => rfl

theorem Twins.mem_names (twins : f.Twins exact g) (name : String) : name ∈ f.names ↔ name ∈ g.names := by
  rw [mem_names_iff, mem_names_iff]
  have related := twins name
  generalize f.get? name = first at related ⊢
  generalize g.get? name = second at related ⊢
  cases related <;> simp

end Bindings

namespace Scope

def outermost (s : Scope) : Scope :=
  { s with locals := [] }

theorem read_enter (s : Scope) (d : Definition) (values : List Bool) (name : String) :
    (s.enter d values).read name =
      match (Bindings.ofList (d.parameters.zip values)).get? name with
      | some value => .ok value
      | none => s.outermost.read name := by
  simp only [read, get?, frames, enter, outermost, List.cons_append, List.nil_append,
    List.findSome?_cons, List.findSome?_nil]
  cases (Bindings.ofList (d.parameters.zip values)).get? name <;> rfl

theorem not_parameter_of_get?_eq_none {d : Definition} {name : String} {values : List Bool}
    (count : values.length = d.arity)
    (absent : (Bindings.ofList (d.parameters.zip values)).get? name = none) : name ∉ d.parameters := by
  rwa [Bindings.get?_eq_none_iff, Bindings.names_ofList, List.mem_eraseDups,
    List.map_fst_zip (Nat.le_of_eq count.symm)] at absent

theorem read_enter_follows {s t : Scope} {exact : Prop} {excused : EvalError → Prop}
    {d : Definition} {name : String} {as bs : List Bool}
    (outside : name ∉ d.parameters →
      Follows (Same exact) excused (s.outermost.read name) (t.outermost.read name))
    (arguments : List.Forall₂ (Same exact) as bs) (count : as.length = d.arity) :
    Follows (Same exact) excused ((s.enter d as).read name) ((t.enter d bs).read name) := by
  have parameters : Option.Rel (Same exact)
      ((Bindings.ofList (d.parameters.zip as)).get? name)
      ((Bindings.ofList (d.parameters.zip bs)).get? name) :=
    Bindings.get?_foldl_put_rel arguments (fun _ => .none) name
  have bound : (Bindings.ofList (d.parameters.zip as)).get? name = none → name ∉ d.parameters :=
    not_parameter_of_get?_eq_none count
  rw [read_enter, read_enter]
  generalize (Bindings.ofList (d.parameters.zip as)).get? name = first at parameters bound
  generalize (Bindings.ofList (d.parameters.zip bs)).get? name = second at parameters
  cases parameters with
  | some related => exact .value related
  | none => exact outside (bound rfl)

theorem resolve_eq_ok {s : Scope} {function : String} {given : Nat} {d : Definition}
    (h : s.resolve function given = .ok d) : s.definitions.get? function = some d ∧ given = d.arity := by
  unfold resolve at h
  cases found : s.definitions.get? function with
  | none => simp [found] at h
  | some other =>
      rw [found] at h
      by_cases fits : given = other.arity
      · simp only [fits, if_true, Except.ok.injEq] at h
        exact ⟨congrArg some h, h ▸ fits⟩
      · simp [fits] at h

end Scope

namespace Expr

section Comparison

variable {exact : Prop} {excused : EvalError → Prop}

mutual

theorem evalWith_follows {read₁ read₂ : String → Except EvalError Bool}
    {enter₁ enter₂ : String → Nat → Except EvalError (List Bool → Except EvalError Bool)} (e : Expr)
    (reads : ∀ name ∈ e.signals, Follows (Same exact) excused (read₁ name) (read₂ name))
    (enters : ∀ function ∈ e.functions, ∀ given,
      Follows (fun f g => ∀ as bs, List.Forall₂ (Same exact) as bs → as.length = given →
        Follows (Same exact) excused (f as) (g bs)) excused
        (enter₁ function given) (enter₂ function given)) :
    Follows (Same exact) excused (e.evalWith read₁ enter₁) (e.evalWith read₂ enter₂) := by
  cases e with
  | signal name => exact reads name List.mem_cons_self
  | and left right | or left right =>
      simp only [signals, functions, List.mem_append] at reads enters
      simp only [evalWith]
      apply (evalWith_follows left (fun name mem => reads name (.inl mem))
        fun function mem => enters function (.inl mem)).bind
      intro a b first
      apply (evalWith_follows right (fun name mem => reads name (.inr mem))
        fun function mem => enters function (.inr mem)).bind
      intro c d second
      exact .value fun strict => by rw [first strict, second strict]
  | not operand =>
      simp only [evalWith]
      apply (evalWith_follows operand reads enters).bind
      intro a b same
      exact .value fun strict => by rw [same strict]
  | apply function args =>
      simp only [functions, List.mem_cons] at enters
      simp only [evalWith]
      apply (enters function (.inl rfl) args.length).bind
      intro f g bodies
      apply (evalAll_follows args reads fun function mem => enters function (.inr mem)).bind
      intro as bs arguments
      exact bodies as bs arguments.1 arguments.2
  | stray datum => exact .failure
termination_by sizeOf e

theorem evalAll_follows {read₁ read₂ : String → Except EvalError Bool}
    {enter₁ enter₂ : String → Nat → Except EvalError (List Bool → Except EvalError Bool)}
    (args : List Expr)
    (reads : ∀ name ∈ signalsAll args, Follows (Same exact) excused (read₁ name) (read₂ name))
    (enters : ∀ function ∈ functionsAll args, ∀ given,
      Follows (fun f g => ∀ as bs, List.Forall₂ (Same exact) as bs → as.length = given →
        Follows (Same exact) excused (f as) (g bs)) excused
        (enter₁ function given) (enter₂ function given)) :
    Follows (fun as bs => List.Forall₂ (Same exact) as bs ∧ as.length = args.length) excused
      (evalAll read₁ enter₁ args) (evalAll read₂ enter₂ args) := by
  cases args with
  | nil => exact .value ⟨.nil, rfl⟩
  | cons arg rest =>
      simp only [signalsAll, functionsAll, List.mem_append] at reads enters
      simp only [evalAll]
      apply (evalWith_follows arg (fun name mem => reads name (.inl mem))
        fun function mem => enters function (.inl mem)).bind
      intro a b first
      apply (evalAll_follows rest (fun name mem => reads name (.inr mem))
        fun function mem => enters function (.inr mem)).bind
      intro as bs others
      exact .value ⟨.cons first others.1, congrArg (· + 1) others.2⟩
termination_by sizeOf args

end

/-- Two scopes with the same definitions, of which the second follows the first in the reads of an
    expression, here and, for the bodies of applied functions, at the root: evaluation follows too. The
    induction is on the levels of nesting left; a body sees its parameters and the root, so the scopes of
    the callers play no part in it. -/
theorem evalWithin_follows {limit : Int} {levels : Nat} {s t : Scope}
    (definitions : ∀ function, t.definitions.get? function = s.definitions.get? function) (e : Expr)
    (reads : ∀ name ∈ e.signals, Follows (Same exact) excused (s.read name) (t.read name))
    (outside : ∀ name, e.ReadsInBody s.definitions name →
      Follows (Same exact) excused (s.outermost.read name) (t.outermost.read name)) :
    Follows (Same exact) excused (evalWithin limit levels s e) (evalWithin limit levels t e) := by
  have resolved : ∀ function given, t.resolve function given = s.resolve function given := by
    intro function given
    simp only [Scope.resolve, definitions]
  induction levels generalizing s t e with
  | zero =>
      apply evalWith_follows e reads
      intro function _ given
      rw [resolved function given]
      cases s.resolve function given with
      | error cause => exact .failure
      | ok d => exact .failure
  | succ levels ih =>
      apply evalWith_follows e reads
      intro function applied given
      rw [resolved function given]
      cases found : s.resolve function given with
      | error cause => exact .failure
      | ok d =>
          obtain ⟨defined, fits⟩ := Scope.resolve_eq_ok found
          refine .value fun as bs arguments count => ?_
          apply ih (s := s.enter d as) (t := t.enter d bs) definitions d.body _ _ resolved
          · intro name named
            apply Scope.read_enter_follows _ arguments (count.trans fits)
            exact fun global => outside name ⟨function, d, .here applied, defined, named, global⟩
          · exact fun name inBody => outside name (.of_body applied defined inBody)

end Comparison

variable {definitions : Definitions} {limit : Int} {e : Expr} {f g h : Bindings Bool}

private theorem eval_follows {exact : Prop} {excused : EvalError → Prop} (e : Expr)
    (reads : ∀ name, e.Reads definitions name → Follows (Same exact) excused
      (Scope.read { definitions, globals := f } name) (Scope.read { definitions, globals := g } name)) :
    Follows (Same exact) excused (e.eval limit { definitions, globals := f })
      (e.eval limit { definitions, globals := g }) := by
  apply evalWithin_follows
  · exact fun _ => rfl
  · exact fun name named => reads name (.inl named)
  · exact fun name inBody => reads name (.inr inBody)

private theorem read_root (f : Bindings Bool) (name : String) :
    Scope.read { definitions, globals := f } name =
      match f.get? name with
      | some value => .ok value
      | none => .error (.unbound name) := by
  simp only [Scope.read, Scope.get?, Scope.frames, List.nil_append, List.findSome?_cons,
    List.findSome?_nil]
  cases f.get? name <;> rfl

theorem eval_below {exact : Prop} (below : f.Below exact g) (e : Expr) :
    Follows (Same exact) (fun _ => True) (e.eval limit { definitions, globals := f })
      (e.eval limit { definitions, globals := g }) := by
  apply eval_follows e
  intro name _
  rw [read_root, read_root]
  cases found : f.get? name with
  | none => exact .excuse trivial
  | some a =>
      obtain ⟨b, also, same⟩ := below name a found
      rw [also]
      exact .value same

theorem eval_twins {exact : Prop} (twins : f.Twins exact g) (e : Expr) :
    Follows (Same exact) (fun _ => False) (e.eval limit { definitions, globals := f })
      (e.eval limit { definitions, globals := g }) := by
  apply eval_follows e
  intro name _
  rw [read_root, read_root]
  have related := twins name
  generalize f.get? name = first at related
  generalize g.get? name = second at related
  cases related with
  | some same => exact .value same
  | none => exact .failure

/-- Only what an expression can read has an effect on its value, or on the reason for which it has none. -/
theorem eval_eq_of_reads (same : ∀ name, e.Reads definitions name → f.get? name = g.get? name) :
    e.eval limit { definitions, globals := f } = e.eval limit { definitions, globals := g } := by
  have follows : Follows (Same True) (fun _ => False) (e.eval limit { definitions, globals := f })
      (e.eval limit { definitions, globals := g }) := by
    apply eval_follows e
    intro name reads
    rw [read_root, read_root, same name reads]
    exact .self _
  exact follows.eq_of_unexcused.symm

theorem eval_bound (names : ∀ name ∈ f.names, name ∈ g.names) {a : Bool}
    (success : e.eval limit { definitions, globals := f } = .ok a) :
    ∃ b, e.eval limit { definitions, globals := g } = .ok b := by
  have below : f.Below False g := by
    intro name a found
    have bound : name ∈ g.names := names name ((f.mem_names_iff name).mpr ⟨a, found⟩)
    obtain ⟨b, also⟩ := (g.mem_names_iff name).mp bound
    exact ⟨b, also, False.elim⟩
  have follows := success ▸ eval_below below e
  obtain ⟨b, value, -⟩ := follows.of_ok
  exact ⟨b, value⟩

theorem eval_extend (larger : ∀ name a, f.get? name = some a → g.get? name = some a) {a : Bool}
    (success : e.eval limit { definitions, globals := f } = .ok a) :
    e.eval limit { definitions, globals := g } = .ok a := by
  have below : f.Below True g := fun name a found => ⟨a, larger name a found, fun _ => rfl⟩
  have follows := success ▸ eval_below below e
  obtain ⟨b, value, same⟩ := follows.of_ok
  rw [value, same trivial]

/-- Where an expression has been evaluated once, its value over other variables depends only on the
    names that were bound then. -/
theorem eval_agree {a : Bool} (success : e.eval limit { definitions, globals := f } = .ok a)
    (agree : Bindings.AgreeOn f.names g h) :
    ∃ b, e.eval limit { definitions, globals := g } = .ok b ∧
      e.eval limit { definitions, globals := h } = .ok b := by
  -- the old names with the new values lie below both valuations
  let common := f.mapWithName fun name old => (g.get? name).getD old
  have below : ∀ name b, common.get? name = some b → g.get? name = some b ∧ h.get? name = some b := by
    intro name b found
    rw [Bindings.get?_mapWithName, Option.map_eq_some_iff] at found
    obtain ⟨old, bound, value⟩ := found
    obtain ⟨c, inG, inH⟩ := agree name ((f.mem_names_iff name).mpr ⟨old, bound⟩)
    rw [inG, Option.getD_some] at value
    exact ⟨value ▸ inG, value ▸ inH⟩
  have names : ∀ name ∈ f.names, name ∈ common.names := by
    intro name bound
    rwa [Bindings.names_mapWithName]
  obtain ⟨b, value⟩ := eval_bound names success
  exact ⟨b, eval_extend (fun name b found => (below name b found).1) value,
    eval_extend (fun name b found => (below name b found).2) value⟩

end Expr

end SyncCircuit
