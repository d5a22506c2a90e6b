import SyncCircuit.Proofs.Strictness

/-! # The limit on nested applications

More levels of nesting change nothing but an evaluation that ran out of them. The limit itself is only
named in the report of that failure. So an outcome that is found within some limit, a value or any other
failure, is found within every higher one (`Expr.eval_eq_of_higher_limit`).
-/

namespace SyncCircuit

def EvalError.ExceedsDepth : EvalError → Prop
  | .depthExceeded _ _ => True
  | _ => False

namespace Expr

theorem evalWithin_enter (limit : Int) (levels : Nat) (s : Scope) :
    ∃ enter, (∀ e, evalWithin limit levels s e = e.evalWith s.read enter) ∧
      ∀ function given cause, s.resolve function given = .error cause →
        enter function given = .error cause := by
  cases levels with
  | zero =>
      refine ⟨_, fun e => rfl, fun function given cause resolved => ?_⟩
      simp only [resolved]
      rfl
  | succ levels =>
      refine ⟨_, fun e => rfl, fun function given cause resolved => ?_⟩
      simp only [resolved]
      rfl

theorem evalWithin_deeper {limit limit' : Int} {levels levels' : Nat} (deeper : levels ≤ levels')
    (s : Scope) (e : Expr) :
    Follows (Same True) EvalError.ExceedsDepth (evalWithin limit levels s e)
      (evalWithin limit' levels' s e) := by
  induction levels generalizing levels' s e with
  | zero =>
      -- the first evaluation enters no function, so bodies are not compared at all
      obtain ⟨enter, evaluates, refused⟩ := evalWithin_enter limit' levels' s
      rw [evaluates]
      apply evalWith_follows e fun _ _ => .self _
      intro function _ given
      cases resolved : s.resolve function given with
      | error cause =>
          rw [refused function given cause resolved]
          exact .failure
      | ok d => exact .excuse trivial
  | succ levels ih =>
      obtain ⟨levels', rfl⟩ : ∃ more, levels' = more + 1 := ⟨levels' - 1, by omega⟩
      apply evalWith_follows e fun _ _ => .self _
      intro function _ given
      cases s.resolve function given with
      | error cause => exact .failure
      | ok d =>
          refine .value fun as bs arguments _ => ?_
          rw [forall₂_same_eq arguments]
          exact ih (by omega) (s.enter d bs) d.body

theorem eval_deeper {limit limit' : Int} (deeper : limit ≤ limit') {s : Scope} {e : Expr} {a : Bool}
    (success : e.eval limit s = .ok a) : e.eval limit' s = .ok a := by
  have follows : Follows (Same True) EvalError.ExceedsDepth (e.eval limit s) (e.eval limit' s) :=
    evalWithin_deeper (Int.toNat_le_toNat deeper) s e
  rw [success] at follows
  obtain ⟨b, value, same⟩ := follows.of_ok
  rw [value, same trivial]

/-- Raising the limit is conservative. Whatever an evaluation ends with, a value or a failure with all its
    particulars, it ends with the same within any higher limit, unless it has exceeded the lower one. -/
theorem eval_eq_of_higher_limit {limit limit' : Int} (higher : limit ≤ limit') (s : Scope) (e : Expr)
    (within : ∀ function reported, e.eval limit s ≠ .error (.depthExceeded function reported)) :
    e.eval limit' s = e.eval limit s := by
  have follows : Follows (Same True) EvalError.ExceedsDepth (e.eval limit s) (e.eval limit' s) :=
    evalWithin_deeper (Int.toNat_le_toNat higher) s e
  obtain same | ⟨cause, failure, exceeds⟩ := follows.eq_or_excused
  · exact same
  · cases cause with
    | depthExceeded function reported => exact absurd failure (within function reported)
    | _ => exact exceeds.elim

/-- A function that applies itself, beside one that does not. -/
private def spinning : Scope where
  definitions := .ofList [("inv", ⟨"inv", ["A"], .not (.signal "A")⟩),
    ("spin", ⟨"spin", ["A"], .apply "spin" [.signal "A"]⟩)]
  globals := .ofList [("In", true)]

theorem eval_eq_of_higher_limit_spinning :
    eval (-1) spinning (.and (.signal "Out") (.apply "spin" [.signal "In"])) = .error (.unbound "Out") ∧
      eval 64 spinning (.and (.signal "Out") (.apply "spin" [.signal "In"])) = .error (.unbound "Out") ∧
      eval 1 spinning (.apply "inv" [.signal "In"]) = .ok false ∧
      eval 64 spinning (.apply "inv" [.signal "In"]) = .ok false := by
  have failure : eval (-1) spinning (.and (.signal "Out") (.apply "spin" [.signal "In"])) =
      .error (.unbound "Out") := rfl
  have value : eval 1 spinning (.apply "inv" [.signal "In"]) = .ok false := rfl
  refine ⟨failure, ?_, value, ?_⟩
  · rw [← failure]
    exact eval_eq_of_higher_limit (by decide) _ _ (by simp [failure])
  · rw [← value]
    exact eval_eq_of_higher_limit (by decide) _ _ (by simp [value])

end Expr

end SyncCircuit
