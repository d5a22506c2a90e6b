import SyncCircuit.Proofs.Strictness

/-! # Visible names

An expression is evaluated in a scope that may lie deep inside others. Its own reads go outwards from that
scope, and those in the bodies of functions start at the root. So whether it has a value depends on two
sets of names, those that are visible from the scope and those that are bound at the root, and on nothing
else about the variables (`Expr.failure_decided_by_bound_names`).
-/

namespace SyncCircuit

theorem Follows.same_outcome {α β : Type} {R : α → β → Prop} {x : Except EvalError α}
    {y : Except EvalError β} (h : Follows R (fun _ => False) x y) :
    (∃ a b, x = .ok a ∧ y = .ok b) ∨ ∃ cause, x = .error cause ∧ y = .error cause := by
  cases h with
  | value => exact .inl ⟨_, _, rfl, rfl⟩
  | failure => exact .inr ⟨_, rfl, rfl⟩
  | excuse spared => exact spared.elim

namespace Scope

/-- The names that some scope on the way to the root binds. -/
def visible (s : Scope) : List String :=
  s.frames.flatMap Bindings.names

theorem mem_visible_iff (s : Scope) (name : String) :
    name ∈ s.visible ↔ ∃ value, s.get? name = some value := by
  rw [← Option.isSome_iff_exists, get?, List.findSome?_isSome_iff, visible, List.mem_flatMap]
  constructor
  · rintro ⟨frame, mem, bound⟩
    exact ⟨frame, mem, (frame.contains_iff_mem_names name).mpr bound⟩
  · rintro ⟨frame, mem, found⟩
    exact ⟨frame, mem, (frame.contains_iff_mem_names name).mp found⟩

theorem visible_outermost (s : Scope) : s.outermost.visible = s.globals.names := by
  simp [visible, outermost, frames]

theorem read_follows {s t : Scope} {excused : EvalError → Prop} {name : String}
    (seen : name ∈ s.visible → name ∈ t.visible)
    (unseen : name ∈ t.visible → name ∉ s.visible → excused (.unbound name)) :
    Follows (Same False) excused (s.read name) (t.read name) := by
  rw [mem_visible_iff, mem_visible_iff] at seen unseen
  unfold read
  cases found : s.get? name with
  | some a =>
      obtain ⟨b, also⟩ := seen ⟨a, found⟩
      rw [also]
      exact .value False.elim
  | none =>
      cases also : t.get? name with
      | none => exact .failure
      | some b => exact .excuse (unseen ⟨b, also⟩ (by simp [found]))

end Scope

namespace Expr

variable {s t : Scope}

/-- Where the second scope binds all that the first binds, evaluation follows, except that a name which
    only the second one binds may excuse a failure in the first. -/
theorem eval_visible {excused : EvalError → Prop} (e : Expr) (limit : Int)
    (definitions : ∀ function, t.definitions.get? function = s.definitions.get? function)
    (root : ∀ name ∈ s.globals.names, name ∈ t.globals.names)
    (inner : ∀ name ∈ s.visible, name ∈ t.visible)
    (rootOnly : ∀ name ∈ t.globals.names, name ∉ s.globals.names → excused (.unbound name))
    (innerOnly : ∀ name ∈ t.visible, name ∉ s.visible → excused (.unbound name)) :
    Follows (Same False) excused (e.eval limit s) (e.eval limit t) := by
  apply evalWithin_follows definitions
  · exact fun name _ => Scope.read_follows (inner name) (innerOnly name)
  · intro name _
    apply Scope.read_follows
    · rw [Scope.visible_outermost, Scope.visible_outermost]
      exact root name
    · rw [Scope.visible_outermost, Scope.visible_outermost]
      exact rootOnly name

/-- Evaluation is strict: in two scopes with the same definitions it can only fail for want of a name. An
    expression that has a value in one scope has a value in every other that binds at least the same
    names, at the root and altogether. If the names are the same, both evaluations have a value, or both
    fail in the same way. -/
theorem failure_decided_by_bound_names (e : Expr) (limit : Int) {s t : Scope}
    (definitions : ∀ function, t.definitions.get? function = s.definitions.get? function) :
    ((∀ name ∈ s.globals.names, name ∈ t.globals.names) →
      (∀ name ∈ s.visible, name ∈ t.visible) →
      ∀ a, e.eval limit s = .ok a → ∃ b, e.eval limit t = .ok b) ∧
    ((∀ name, name ∈ s.globals.names ↔ name ∈ t.globals.names) →
      (∀ name, name ∈ s.visible ↔ name ∈ t.visible) →
      (∃ a b, e.eval limit s = .ok a ∧ e.eval limit t = .ok b) ∨
        ∃ cause, e.eval limit s = .error cause ∧ e.eval limit t = .error cause) := by
  constructor
  · intro root inner a success
    have follows : Follows (Same False) (fun _ => True) (e.eval limit s) (e.eval limit t) :=
      eval_visible e limit definitions root inner (fun _ _ _ => trivial) fun _ _ _ => trivial
    rw [success] at follows
    obtain ⟨b, value, -⟩ := follows.of_ok
    exact ⟨b, value⟩
  · intro root inner
    apply Follows.same_outcome
    apply eval_visible e limit definitions
    · exact fun name => (root name).mp
    · exact fun name => (inner name).mp
    · exact fun name bound unbound => unbound ((root name).mpr bound)
    · exact fun name seen unseen => unseen ((inner name).mpr seen)

/-- A function whose body reads a signal of the root scope. -/
private def gated : Definitions :=
  .ofList [("gate", ⟨"gate", ["A"], .and (.signal "A") (.signal "Enable")⟩)]

private def inside : Scope where
  definitions := gated
  globals := .ofList [("Enable", false)]
  locals := [.ofList [("X", false)]]

/-- The same names with other values, and bound in other places. -/
private def farInside : Scope where
  definitions := gated
  globals := .ofList [("Enable", true)]
  locals := [.ofList [("Enable", false)], .ofList [("X", true)]]

private def beside : Scope :=
  { farInside with globals := .ofList [("X", true), ("Y", true), ("Enable", true)] }

theorem failure_decided_by_gate_names :
    (∃ a, eval 1 inside (.or (.signal "X") (.apply "gate" [.signal "X"])) = .ok a) ∧
      (∃ b, eval 1 beside (.or (.signal "X") (.apply "gate" [.signal "X"])) = .ok b) ∧
      eval 1 inside (.and (.signal "X") (.apply "gate" [.signal "Y"])) = .error (.unbound "Y") ∧
      eval 1 farInside (.and (.signal "X") (.apply "gate" [.signal "Y"])) = .error (.unbound "Y") := by
  have value : eval 1 inside (.or (.signal "X") (.apply "gate" [.signal "X"])) = .ok false := rfl
  have failure : eval 1 inside (.and (.signal "X") (.apply "gate" [.signal "Y"])) =
      .error (.unbound "Y") := rfl
  obtain ⟨carries, -⟩ := failure_decided_by_bound_names
    (.or (.signal "X") (.apply "gate" [.signal "X"])) 1 (s := inside) (t := beside) fun _ => rfl
  obtain ⟨-, alike⟩ := failure_decided_by_bound_names
    (.and (.signal "X") (.apply "gate" [.signal "Y"])) 1 (s := inside) (t := farInside) fun _ => rfl
  have visible : ∀ name, name ∈ inside.visible ↔ name ∈ farInside.visible := by
    intro name
    show name ∈ ["X", "Enable"] ↔ name ∈ ["Enable", "X", "Enable"]
    grind
  refine ⟨⟨_, value⟩, carries (by decide +kernel) (by decide +kernel) _ value, failure, ?_⟩
  obtain ⟨a, b, success, -⟩ | ⟨cause, first, second⟩ := alike (fun _ => Iff.rfl) visible
  · cases failure.symm.trans success
  · rw [second, ← first, failure]

end Expr

end SyncCircuit
