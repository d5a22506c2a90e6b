import SyncCircuit.Proofs.Equations
import SyncCircuit.Proofs.NameClashes
import SyncCircuit.Proofs.Passes

/-! # Synchronous circuits

A circuit is a system of equations: in every cycle inputs have their samples, the output of a latch has
what the latch had in the cycle before, and every target has the value of its expression, all in one
valuation. If the outputs of latches have names of their own, the valuations that a run goes through
are the one and only solution (`Setup.run_solution_unique`), although the run writes them piece by
piece.
-/

namespace SyncCircuit

open Bindings (AgreeOn)

namespace Circuit

/-- No output of a latch is an input or a latch. -/
def OutputsApart (c : Circuit) : Prop :=
  ∀ latch ∈ c.latches, latchOutput latch ∉ c.inputs ∧ latchOutput latch ∉ c.latches

/-- Valuations, one for each cycle, that satisfy the equations of a circuit. -/
structure Solution (c : Circuit) (definitions : Definitions) (limit : Int)
    (values : List (Bindings Bool)) : Prop where
  inputs : ∀ (i : Nat) v, values[i]? = some v → ∀ x ∈ c.inputs, ∃ sample,
    c.stimulus x i = some sample ∧ v.get? x = some sample
  reset : ∀ v, values[0]? = some v → ∀ latch ∈ c.latches, v.get? (latchOutput latch) = some false
  delay : ∀ (i : Nat) v w, values[i]? = some v → values[i + 1]? = some w → ∀ latch ∈ c.latches, ∃ held,
    v.get? latch = some held ∧ w.get? (latchOutput latch) = some held
  updates : ∀ (i : Nat) v, values[i]? = some v → ∀ u ∈ c.updates, u.Holds definitions limit v

variable {c : Circuit} {definitions : Definitions} {limit : Int} {values other : List (Bindings Bool)}

namespace Solution

theorem agreeOn_inputs (left : c.Solution definitions limit values)
    (right : c.Solution definitions limit other) {i : Nat} {v w : Bindings Bool}
    (inLeft : values[i]? = some v) (inRight : other[i]? = some w) : AgreeOn c.inputs v w := by
  intro x input
  obtain ⟨sample, sampled, shown⟩ := left.inputs i v inLeft x input
  obtain ⟨_, also, shown'⟩ := right.inputs i w inRight x input
  cases sampled.symm.trans also
  exact ⟨sample, shown, shown'⟩

theorem agreeOn_cycle (left : c.Solution definitions limit values)
    (right : c.Solution definitions limit other) {f f' : Bindings Bool}
    (reference : Phase.applyUpdates definitions limit c.updates f = .ok () f')
    (start : ∀ name ∈ f.names, name ∈ c.inputs ∨ name ∈ c.latchOutputs) {i : Nat}
    {v w : Bindings Bool} (inLeft : values[i]? = some v) (inRight : other[i]? = some w)
    (outputs : AgreeOn c.latchOutputs v w) : AgreeOn f'.names v w := by
  apply agreeOn_of_holds reference (left.updates i v inLeft) (right.updates i w inRight)
  intro name mem
  cases start name mem with
  | inl input => exact left.agreeOn_inputs right inLeft inRight name input
  | inr output => exact outputs name output

/-- Solutions agree in every cycle on what is bound by a pass over the updates that starts from inputs and
    outputs of latches. -/
theorem agreeOn_pass (left : c.Solution definitions limit values)
    (right : c.Solution definitions limit other) {f f' : Bindings Bool}
    (reference : Phase.applyUpdates definitions limit c.updates f = .ok () f')
    (start : ∀ name ∈ f.names, name ∈ c.inputs ∨ name ∈ c.latchOutputs)
    (bound : ∀ (i : Nat) v, values[i]? = some v → ∀ name ∈ v.names, name ∈ f'.names) {i : Nat}
    {v w : Bindings Bool} (inLeft : values[i]? = some v) (inRight : other[i]? = some w) :
    AgreeOn f'.names v w := by
  -- latches carry the agreement from one cycle to the next
  induction i generalizing v w with
  | zero =>
      apply left.agreeOn_cycle right reference start inLeft inRight
      intro name output
      obtain ⟨latch, inside, rfl⟩ := List.mem_map.mp output
      exact ⟨false, left.reset v inLeft latch inside, right.reset w inRight latch inside⟩
  | succ i ih =>
      apply left.agreeOn_cycle right reference start inLeft inRight
      intro name output
      obtain ⟨latch, inside, rfl⟩ := List.mem_map.mp output
      have inside₁ : i < values.length := by
        have := (List.getElem?_eq_some_iff.mp inLeft).1
        omega
      have inside₂ : i < other.length := by
        have := (List.getElem?_eq_some_iff.mp inRight).1
        omega
      have before₁ := List.getElem?_eq_getElem inside₁
      have before₂ := List.getElem?_eq_getElem inside₂
      obtain ⟨held, here, delayed⟩ := left.delay i _ v before₁ inLeft latch inside
      obtain ⟨_, there, delayed'⟩ := right.delay i _ w before₂ inRight latch inside
      have known : latch ∈ values[i].names := (Bindings.mem_names_iff _ _).mpr ⟨held, here⟩
      obtain ⟨value, same, same'⟩ := ih before₁ before₂ latch (bound i _ before₁ latch known)
      cases here.symm.trans same
      cases there.symm.trans same'
      exact ⟨held, delayed, delayed'⟩

end Solution

namespace Reached

variable {v w : Bindings Bool} {cycle : Nat}

theorem holds (wellFormed : c.WellFormed) (reached : c.Reached definitions limit .empty cycle v) :
    ∀ u ∈ c.updates, u.Holds definitions limit v := by
  obtain ⟨f, f', reference, start⟩ := reached.first_pass
  obtain ⟨seeded, pass, covered⟩ := reached.pass
  apply Phase.applyUpdates_holds reference pass _ _ wellFormed.targets
  · intro name bound
    exact covered name ((start name).mp bound)
  · intro name bound target
    exact wellFormed.target_not_seeded target ((start name).mp bound)

end Reached

theorem solution_of_reached (wellFormed : c.WellFormed) (apart : c.OutputsApart)
    (reached : ∀ (i : Nat) v, values[i]? = some v → c.Reached definitions limit .empty i v) :
    c.Solution definitions limit values where
  inputs := by
    intro i v found x input
    obtain ⟨sample, sampled⟩ := (reached i v found).stimulus input
    have alone : ¬ (i = 0 ∧ x ∈ c.latchOutputs) := by
      intro clash
      obtain ⟨latch, mem, rfl⟩ := List.mem_map.mp clash.2
      exact (apart latch mem).1 input
    have shown := (reached i v found).get?_input wellFormed input
    rw [if_neg alone, sampled] at shown
    exact ⟨sample, sampled, shown⟩
  reset := by
    intro v found latch mem
    exact (reached 0 v found).get?_latchOutput_first wellFormed mem
  delay := by
    intro i v w found next latch mem
    have earlier := reached i v found
    have later := reached (i + 1) w next
    obtain ⟨held, value⟩ := earlier.latch_bound later mem
    obtain ⟨before, after, position⟩ := List.append_of_mem mem
    have notOutput : latch ∉ before.map latchOutput := by
      intro output
      obtain ⟨other, inside, same⟩ := List.mem_map.mp output
      have listed : other ∈ c.latches := by
        rw [position]
        exact List.mem_append_left _ inside
      exact (apart other listed).2 (same ▸ mem)
    have shown := earlier.get?_latchOutput_next wellFormed later position
    rw [if_neg (apart latch mem).1, Phase.copySource_eq_self notOutput, value] at shown
    exact ⟨held, value, shown⟩
  updates := by
    intro i v found
    exact (reached i v found).holds wellFormed

theorem solution_unique (wellFormed : c.WellFormed) (apart : c.OutputsApart)
    (reached : ∀ (i : Nat) v, values[i]? = some v → c.Reached definitions limit .empty i v)
    (names : List.Forall₂ (fun v w => ∀ name, name ∈ v.names ↔ name ∈ w.names) values other)
    (solution : c.Solution definitions limit other) :
    List.Forall₂ (fun v w => ∀ name, v.get? name = w.get? name) values other := by
  have own := solution_of_reached wellFormed apart reached
  rw [List.forall₂_iff_get] at names ⊢
  refine ⟨names.1, ?_⟩
  intro i inside₁ inside₂ name
  have left : values[i]? = some (values.get ⟨i, inside₁⟩) := List.getElem?_eq_getElem inside₁
  have right : other[i]? = some (other.get ⟨i, inside₂⟩) := List.getElem?_eq_getElem inside₂
  obtain ⟨f, f', reference, start⟩ := (reached i _ left).first_pass
  have covers : ∀ (j : Nat) v, values[j]? = some v → ∀ name ∈ v.names, name ∈ f'.names := by
    intro j v found name bound
    rw [(Phase.applyUpdates_wrote reference).mem_names, start, ← List.mem_append, ← List.mem_append]
    exact ((reached j v found).mem_names name).mp bound |>.resolve_left (by simp)
  by_cases bound : name ∈ (values.get ⟨i, inside₁⟩).names
  · obtain ⟨value, here, there⟩ := own.agreeOn_pass solution reference
      (fun name mem => (start name).mp mem) covers left right name (covers i _ left name bound)
    rw [here, there]
  · have unbound := (names.2 i inside₁ inside₂ name).not.mp bound
    rw [(Bindings.get?_eq_none_iff _ _).mpr bound, (Bindings.get?_eq_none_iff _ _).mpr unbound]

end Circuit

namespace Setup

/-- The valuations that a completed run reports, one for each cycle, satisfy the equations of the circuit,
    so that another pass over the updates would change none of them, and nothing else over the same
    names satisfies them. -/
theorem run_solution_unique (u : Setup) {s t : Session} (fresh : s.Fresh u)
    (accepted : u.circuit.checkStructure = .ok ()) (apart : u.circuit.OutputsApart)
    (completed : u.run s = .ok () t) :
    ∃ values : List (Bindings Bool),
      t.cycles = values.mapIdx (fun cycle v => ((cycle : Int), v)) ∧
      values.length = max 1 t.results.length ∧
      u.circuit.Solution s.simulator.definitions s.simulator.depthLimit values ∧
      (∀ v ∈ values, Phase.applyUpdates s.simulator.definitions s.simulator.depthLimit
        u.circuit.updates v = .ok () v) ∧
      ∀ other, List.Forall₂ (fun v w => ∀ name, name ∈ v.names ↔ name ∈ w.names) values other →
        u.circuit.Solution s.simulator.definitions s.simulator.depthLimit other →
        List.Forall₂ (fun v w => ∀ name, v.get? name = w.get? name) values other := by
  have wellFormed := u.circuit.checkStructure_eq_ok_iff.mp accepted
  obtain ⟨values, run⟩ := (u.ensures_run s).of_ok completed
  have reached : ∀ (i : Nat) v, values[i]? = some v →
      u.circuit.Reached s.simulator.definitions s.simulator.depthLimit .empty i v := by
    rw [← fresh.vars]
    exact run.reached
  have solution := Circuit.solution_of_reached wellFormed apart reached
  refine ⟨values, ?_, run.cycles, solution, ?_, ?_⟩
  · rw [run.cycles_eq, fresh.cycles, List.nil_append]
  · intro v mem
    obtain ⟨i, found⟩ := List.mem_iff_getElem?.mp mem
    exact Phase.applyUpdates_eq_self (solution.updates i v found)
  · intro other names satisfied
    exact Circuit.solution_unique wellFormed apart reached names satisfied

private def exclusiveOr : Definition :=
  ⟨"Xor", ["a", "b"],
    .or (.and (.signal "a") (.not (.signal "b"))) (.and (.not (.signal "a")) (.signal "b"))⟩

/-- A latch that changes in the cycles in which it is told to. -/
private def toggle : Circuit where
  name := "toggle"
  inputs := ["In"]
  outputs := ["Out"]
  latches := ["L"]
  definitions := [exclusiveOr]
  updates := [⟨"L", .apply "Xor" [.signal "In", .signal "L'"]⟩, ⟨"Out", .signal "L"⟩]
  traces := [⟨"In", [true, false, true]⟩]

theorem run_solution_toggle :
    (Session.start (Bindings.empty.put "Xor" exclusiveOr)).Fresh (standard toggle) ∧
      toggle.checkStructure = .ok () ∧ toggle.OutputsApart ∧
      (standard toggle).run.succeeds (.start (Bindings.empty.put "Xor" exclusiveOr)) = true ∧
      ∃ values : List (Bindings Bool),
        values.length = 3 ∧
        toggle.Solution (Bindings.empty.put "Xor" exclusiveOr) Expr.defaultDepth values := by
  have fresh : (Session.start (Bindings.empty.put "Xor" exclusiveOr)).Fresh (standard toggle) := ⟨rfl, rfl⟩
  have accepted : toggle.checkStructure = .ok () := by decide +kernel
  have apart : toggle.OutputsApart := by
    unfold Circuit.OutputsApart
    decide +kernel
  have succeeds :
      (standard toggle).run.succeeds (.start (Bindings.empty.put "Xor" exclusiveOr)) = true := by
    decide +kernel
  have length : ((standard toggle).run.after
      (.start (Bindings.empty.put "Xor" exclusiveOr))).results.length = 3 := by
    decide +kernel
  obtain ⟨values, -, count, solution, -⟩ :=
    run_solution_unique (standard toggle) fresh accepted apart (Operation.eq_ok_of_succeeds succeeds)
  rw [length] at count
  exact ⟨fresh, accepted, apart, succeeds, values, count, solution⟩

end Setup

end SyncCircuit
