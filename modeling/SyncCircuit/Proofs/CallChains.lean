import Mathlib.Data.List.Perm.Subperm
import Mathlib.Logic.Relation
import SyncCircuit.Proofs.Evaluation

/-! # Chains of calls

How deep applications nest can be read off the definitions. A chain of calls starts with a function that an
expression applies, in the arguments of other applications or not, and goes on with functions that are
applied in the bodies of those before (`Expr.CallChain`). An evaluation that exceeds its limit has followed
a chain that is just too long, and one that yields a value has followed every chain to its end. So tables
without recursion need no more levels than they have definitions, and recursion never ends in a value.
-/

namespace SyncCircuit

namespace Definitions

/-- A function is applied in the body of another. -/
def Calls (definitions : Definitions) (f g : String) : Prop :=
  ∃ d, definitions.get? f = some d ∧ g ∈ d.body.functions

/-- A function leads back to itself, directly or through others. -/
def Recursive (definitions : Definitions) (f : String) : Prop :=
  Relation.TransGen definitions.Calls f f

end Definitions

namespace Expr

/-- Functions of which the first is applied in an expression and every further one in the body of the one
    before it. All but the last are defined. -/
inductive CallChain (definitions : Definitions) : Expr → List String → Prop where
  | last {e f} (applied : f ∈ e.functions) : CallChain definitions e [f]
  | call {e f d chain} (applied : f ∈ e.functions) (defined : definitions.get? f = some d)
      (rest : CallChain definitions d.body chain) : CallChain definitions e (f :: chain)

variable {definitions : Definitions} {e : Expr} {f g : String}
  {chain before : List String}

namespace CallChain

theorem ne_nil (h : e.CallChain definitions chain) : chain ≠ [] := by
  cases h <;> exact List.cons_ne_nil _ _

theorem extend (h : e.CallChain definitions (before ++ [f])) (calls : definitions.Calls f g) :
    e.CallChain definitions (before ++ [f] ++ [g]) := by
  obtain ⟨d, defined, inBody⟩ := calls
  induction before generalizing e with
  | nil =>
      cases h with
      | last applied => exact .call applied defined (.last inBody)
      | call _ _ rest => exact absurd rfl rest.ne_nil
  | cons first others ih =>
      generalize whole : first :: others ++ [f] = chain at h
      cases h with
      | last => simp at whole
      | call applied known rest =>
          obtain ⟨rfl, rfl⟩ := List.cons.inj whole
          exact .call applied known (ih rest)

theorem mem_names (h : e.CallChain definitions (before ++ [f])) :
    ∀ g ∈ before, g ∈ definitions.names := by
  induction before generalizing e with
  | nil => exact fun _ mem => nomatch mem
  | cons first others ih =>
      generalize whole : first :: others ++ [f] = chain at h
      cases h with
      | last => simp at whole
      | call applied known rest =>
          obtain ⟨rfl, rfl⟩ := List.cons.inj whole
          intro g mem
          rcases List.mem_cons.mp mem with rfl | later
          · exact (definitions.mem_names_iff g).mpr ⟨_, known⟩
          · exact ih rest g later

theorem called {d : Definition} (defined : definitions.get? f = some d)
    (h : d.body.CallChain definitions chain) : ∀ g ∈ chain, Relation.TransGen definitions.Calls f g := by
  generalize body : d.body = e at h
  induction h generalizing f d with
  | last applied =>
      subst body
      intro g mem
      rw [List.mem_singleton.mp mem]
      exact .single ⟨d, defined, applied⟩
  | call applied known rest ih =>
      subst body
      intro g mem
      rcases List.mem_cons.mp mem with rfl | later
      · exact .single ⟨d, defined, applied⟩
      · exact .head ⟨d, defined, applied⟩ (ih known rfl g later)

theorem nodup (acyclic : ∀ f, ¬ definitions.Recursive f) (h : e.CallChain definitions chain) :
    chain.Nodup := by
  induction h with
  | last => exact List.pairwise_singleton _ _
  | call applied defined rest ih =>
      refine List.nodup_cons.mpr ⟨fun again => ?_, ih⟩
      exact acyclic _ (called defined rest _ again)

end CallChain

theorem Applies.exists_chain (applies : e.Applies definitions f) :
    ∃ before, e.CallChain definitions (before ++ [f]) := by
  induction applies with
  | here mem => exact ⟨[], .last mem⟩
  | inside _ found mem ih =>
      obtain ⟨before, chain⟩ := ih
      exact ⟨before ++ [_], chain.extend ⟨_, found, mem⟩⟩

theorem Applies.long_chain (applies : e.Applies definitions f) (recursive : definitions.Recursive f)
    (length : Nat) : ∃ before, length ≤ before.length ∧ e.CallChain definitions (before ++ [f]) := by
  have onward : ∀ {g}, Relation.TransGen definitions.Calls f g → ∀ before,
      e.CallChain definitions (before ++ [f]) →
        ∃ more, before.length < more.length ∧ e.CallChain definitions (more ++ [g]) := by
    intro g path before chain
    induction path with
    | single calls => exact ⟨before ++ [f], by simp, chain.extend calls⟩
    | tail _ calls ih =>
        obtain ⟨more, longer, further⟩ := ih
        exact ⟨more ++ [_], by simp; omega, further.extend calls⟩
  induction length with
  | zero =>
      obtain ⟨before, chain⟩ := applies.exists_chain
      exact ⟨before, Nat.zero_le _, chain⟩
  | succ length ih =>
      obtain ⟨before, long, chain⟩ := ih
      obtain ⟨more, longer, chain⟩ := onward recursive before chain
      exact ⟨more, by omega, chain⟩

variable {limit reported : Int} {levels : Nat} {s : Scope}

/-- An evaluation runs out of levels at a function that it applies itself, or in the body of one. -/
theorem depthExceeded_cases
    (failure : evalWithin limit levels s e = .error (.depthExceeded f reported)) :
    (levels = 0 ∧ reported = limit ∧ f ∈ e.functions ∧ f ∈ s.definitions.names) ∨
      ∃ below g d values, levels = below + 1 ∧ g ∈ e.functions ∧ s.definitions.get? g = some d ∧
        evalWithin limit below (s.enter d values) d.body = .error (.depthExceeded f reported) := by
  rw [evalWithin_eq] at failure
  cases evalWith_failsAt e failure with
  | read h => cases Scope.read_eq_error h
  | entry applied h =>
      rcases entering_eq_error h with unresolved | ⟨none, cause, d, resolved⟩
      · rcases Scope.resolve_eq_error unresolved with cause | ⟨_, cause⟩ <;> cases cause
      · cases cause
        have defined := (Scope.resolve_eq_ok resolved).1
        exact .inl ⟨none, rfl, applied, (s.definitions.mem_names_iff f).mpr ⟨d, defined⟩⟩
  | body applied entered h =>
      obtain ⟨below, d, deeper, resolved, rfl⟩ := entering_eq_ok entered
      exact .inr ⟨below, _, d, _, deeper, applied, (Scope.resolve_eq_ok resolved).1, h⟩

/-- An evaluation that runs out of levels has followed a chain through all of them, to a function that is
    one too many. -/
theorem chain_of_depthExceeded
    (failure : evalWithin limit levels s e = .error (.depthExceeded f reported)) :
    reported = limit ∧ f ∈ s.definitions.names ∧
      ∃ before, before.length = levels ∧ e.CallChain s.definitions (before ++ [f]) := by
  induction levels generalizing s e with
  | zero =>
      rcases depthExceeded_cases failure with ⟨-, same, applied, known⟩ | ⟨_, _, _, _, deeper, -⟩
      · exact ⟨same, known, [], rfl, .last applied⟩
      · cases deeper
  | succ levels ih =>
      rcases depthExceeded_cases failure with ⟨none, -⟩ | ⟨_, g, d, values, deeper, applied, defined, inBody⟩
      · cases none
      · cases deeper
        obtain ⟨same, known, before, length, chain⟩ := ih inBody
        exact ⟨same, known, g :: before, congrArg (· + 1) length, .call applied defined chain⟩

theorem chain_length_le {a : Bool} (success : evalWithin limit levels s e = .ok a)
    (h : e.CallChain s.definitions chain) : chain.length ≤ levels := by
  generalize table : s.definitions = definitions at h
  induction h generalizing levels s a with
  | last applied =>
      obtain ⟨below, -, -, -, deeper, -⟩ := evalWithin_entered success applied
      exact deeper ▸ Nat.le_add_left 1 below
  | call applied defined rest ih =>
      obtain ⟨below, d, values, b, deeper, known, value⟩ := evalWithin_entered success applied
      cases (table ▸ defined).symm.trans known
      exact deeper ▸ Nat.succ_le_succ (ih value table)

theorem depth_suffices (acyclic : ∀ f, ¬ s.definitions.Recursive f)
    (enough : s.definitions.names.length ≤ levels) :
    evalWithin limit levels s e ≠ .error (.depthExceeded f reported) := by
  intro failure
  obtain ⟨-, known, before, length, chain⟩ := chain_of_depthExceeded failure
  have inside : before ++ [f] ⊆ s.definitions.names := by
    intro g mem
    rcases List.mem_append.mp mem with earlier | last
    · exact chain.mem_names g earlier
    · exact List.mem_singleton.mp last ▸ known
  have room := ((chain.nodup acyclic).subperm inside).length_le
  rw [List.length_append, List.length_singleton] at room
  omega

private theorem exists_forall₂_iff {α β : Type} {R : α → β → Prop} {xs : List α} :
    (∃ ys, List.Forall₂ R xs ys) ↔ ∀ x ∈ xs, ∃ y, R x y := by
  induction xs with
  | nil => simp
  | cons x rest ih =>
      rw [List.forall_mem_cons, ← ih]
      constructor
      · rintro ⟨_, _ | ⟨first, others⟩⟩
        exact ⟨⟨_, first⟩, _, others⟩
      · rintro ⟨⟨y, first⟩, ys, others⟩
        exact ⟨y :: ys, .cons first others⟩

theorem body_succeeds {d : Definition} {values others : List Bool} {a : Bool}
    (fits : values.length = d.arity) (count : others.length = values.length)
    (success : evalWithin limit levels (s.enter d values) d.body = .ok a) :
    ∃ b, evalWithin limit levels (s.enter d others) d.body = .ok b := by
  have unrelated : List.Forall₂ (Same False) values others :=
    List.forall₂_iff_zip.mpr ⟨count.symm, fun _ => False.elim⟩
  have follows : Follows (Same False) (fun _ => True)
      (evalWithin limit levels (s.enter d values) d.body)
      (evalWithin limit levels (s.enter d others) d.body) := by
    apply evalWithin_follows
    · exact fun _ => rfl
    · exact fun name _ => Scope.read_enter_follows (fun _ => .self _) unrelated fits
    · exact fun name _ => .self _
  rw [success] at follows
  obtain ⟨b, value, -⟩ := follows.of_ok
  exact ⟨b, value⟩

/-- Once an application has a value at some level, any other of the same function has one exactly if its
    arguments have values at that level, whatever is applied in them. -/
theorem apply_succeeds_iff {args others : List Expr} (count : others.length = args.length)
    (once : ∃ a, evalWithin limit levels s (.apply f args) = .ok a) :
    (∃ a, evalWithin limit levels s (.apply f others) = .ok a) ↔
      ∀ arg ∈ others, ∃ a, evalWithin limit levels s arg = .ok a := by
  rw [← exists_forall₂_iff]
  constructor
  · rintro ⟨b, success⟩
    obtain ⟨-, -, values, -, -, arguments, -⟩ := evalWithin_apply_iff.mp success
    exact ⟨values, arguments⟩
  · rintro ⟨results, evaluated⟩
    obtain ⟨a, success⟩ := once
    obtain ⟨below, d, values, deeper, resolved, arguments, value⟩ := evalWithin_apply_iff.mp success
    have fits : values.length = d.arity := arguments.length_eq ▸ (Scope.resolve_eq_ok resolved).2
    have same : results.length = values.length := by
      rw [← evaluated.length_eq, count, arguments.length_eq]
    obtain ⟨b, also⟩ := body_succeeds fits same value
    rw [← count] at resolved
    exact ⟨b, evalWithin_apply_iff.mpr ⟨below, d, results, deeper, resolved, evaluated, also⟩⟩

/-- The limit bounds the length of call chains. An evaluation that exceeds it reports it, and has followed a
    chain of one function more to the one that it names; if an evaluation yields a value, no chain of its
    expression is longer than the limit. So what is applied in arguments takes no levels from the
    application, a table without recursion stays within any limit that reaches its size, and an expression
    from which recursion is reached fails whatever the limit is. -/
theorem depth_measures_call_chains (s : Scope) (limit : Int) :
    (∀ e f reported, eval limit s e = .error (.depthExceeded f reported) →
      reported = limit ∧ ∃ chain, e.CallChain s.definitions chain ∧
        (chain.length : Int) = max limit 0 + 1 ∧ chain.getLast? = some f) ∧
    (∀ e a, eval limit s e = .ok a → ∀ chain, e.CallChain s.definitions chain →
      (chain.length : Int) ≤ max limit 0) ∧
    (∀ f args others, others.length = args.length → (∃ a, eval limit s (.apply f args) = .ok a) →
      ((∃ a, eval limit s (.apply f others) = .ok a) ↔
        ∀ arg ∈ others, ∃ a, eval limit s arg = .ok a)) ∧
    ((∀ f, ¬ s.definitions.Recursive f) → (s.definitions.names.length : Int) ≤ limit →
      ∀ e f reported, eval limit s e ≠ .error (.depthExceeded f reported)) ∧
    ∀ e f, e.Applies s.definitions f → s.definitions.Recursive f →
      ∃ cause, eval limit s e = .error cause := by
  refine ⟨?_, ?_, ?_, ?_, ?_⟩
  · intro e f reported failure
    obtain ⟨same, -, before, length, chain⟩ := chain_of_depthExceeded failure
    refine ⟨same, before ++ [f], chain, ?_, by simp⟩
    rw [List.length_append, List.length_singleton, length]
    omega
  · intro e a success chain follows
    have bound := chain_length_le success follows
    omega
  · intro f args others count once
    exact apply_succeeds_iff count once
  · intro acyclic enough e f reported
    exact depth_suffices acyclic (by omega)
  · intro e f applies recursive
    cases outcome : eval limit s e with
    | error cause => exact ⟨cause, rfl⟩
    | ok a =>
        -- a chain that is longer than the limit contradicts the value
        obtain ⟨before, long, chain⟩ := applies.long_chain recursive limit.toNat
        have bound := chain_length_le outcome chain
        rw [List.length_append, List.length_singleton] at bound
        omega

/-- A function whose body applies another one twice, one application in the argument of the other. -/
private def relays : Definitions :=
  .ofList [("inv", ⟨"inv", ["A"], .not (.signal "A")⟩),
    ("twice", ⟨"twice", ["B"], .apply "inv" [.apply "inv" [.signal "B"]]⟩)]

/-- Two functions that apply each other. -/
private def loops : Definitions :=
  .ofList [("ping", ⟨"ping", ["A"], .apply "pong" [.signal "A"]⟩),
    ("pong", ⟨"pong", ["A"], .apply "ping" [.signal "A"]⟩)]

private def driving (definitions : Definitions) : Scope where
  definitions := definitions
  globals := .ofList [("In", true)]

private theorem relays_acyclic (f : String) : ¬ relays.Recursive f := by
  have calls : ∀ {f g}, relays.Calls f g → f = "twice" ∧ g = "inv" := by
    rintro f g ⟨d, defined, applied⟩
    have known : f ∈ ["inv", "twice"] := (relays.mem_names_iff f).mpr ⟨d, defined⟩
    rcases List.mem_pair.mp known with rfl | rfl
    · cases defined
      cases applied
    · cases defined
      have member : g ∈ ["inv", "inv"] := applied
      simpa using member
  intro cycle
  obtain ⟨g, first, -⟩ := Relation.TransGen.head'_iff.mp cycle
  obtain ⟨h, -, last⟩ := Relation.TransGen.tail'_iff.mp cycle
  exact absurd ((calls first).1.symm.trans (calls last).2) (by decide)

theorem depth_measures_relays :
    eval 1 (driving relays) (.apply "twice" [.signal "In"]) = .error (.depthExceeded "inv" 1) ∧
      (∃ chain, CallChain relays (.apply "twice" [.signal "In"]) chain ∧
        (chain.length : Int) = 2 ∧ chain.getLast? = some "inv") ∧
      eval 2 (driving relays) (.apply "twice" [.signal "In"]) = .ok true ∧
      (∀ chain, CallChain relays (.apply "twice" [.signal "In"]) chain → (chain.length : Int) ≤ 2) ∧
      (∃ a, eval 1 (driving relays) (.apply "inv" [.apply "inv" [.apply "inv" [.signal "In"]]]) =
        .ok a) ∧
      (∀ e f reported, eval 2 (driving relays) e ≠ .error (.depthExceeded f reported)) ∧
      ∀ limit, ∃ cause, eval limit (driving loops) (.apply "ping" [.signal "In"]) = .error cause := by
  obtain ⟨exceeds, -, nests, -, -⟩ := depth_measures_call_chains (driving relays) 1
  obtain ⟨-, yields, -, enough, -⟩ := depth_measures_call_chains (driving relays) 2
  have failure : eval 1 (driving relays) (.apply "twice" [.signal "In"]) =
      .error (.depthExceeded "inv" 1) := rfl
  have value : eval 2 (driving relays) (.apply "twice" [.signal "In"]) = .ok true := rfl
  have once : eval 1 (driving relays) (.apply "inv" [.signal "In"]) = .ok false := rfl
  have nested : eval 1 (driving relays) (.apply "inv" [.apply "inv" [.signal "In"]]) = .ok true := rfl
  refine ⟨failure, (exceeds _ _ _ failure).2, value, yields _ _ value, ?_, ?_, ?_⟩
  · exact (nests "inv" [.signal "In"] [_] rfl ⟨_, once⟩).mpr (List.forall_mem_singleton.mpr ⟨_, nested⟩)
  · exact enough relays_acyclic (by decide +kernel)
  · intro limit
    obtain ⟨-, -, -, -, fails⟩ := depth_measures_call_chains (driving loops) limit
    apply fails _ "ping" (.here List.mem_cons_self)
    exact .tail (.single ⟨_, rfl, List.mem_cons_self⟩) ⟨_, rfl, List.mem_cons_self⟩

end Expr

end SyncCircuit
