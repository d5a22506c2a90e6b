import SyncCircuit.Proofs.Results
import SyncCircuit.Proofs.Synchronous

/-! # The order of updates

Updates are applied one after another, and an update that reads a target of the same cycle must come after
it. So an order can fail, and two orders that do not fail write their targets over quite different
variables. At the end of a cycle the difference is gone: the valuation satisfies the equations of all
updates, in which their order plays no part, and the equations have one solution
(`Setup.update_order_immaterial`).
-/

namespace SyncCircuit

open Bindings (AgreeOn)

namespace Circuit

/-- The same circuit with other updates. -/
def withUpdates (c : Circuit) (updates : List Update) : Circuit :=
  { c with updates }

variable {c : Circuit} {updates : List Update} {definitions : Definitions} {limit : Int}
  {v w : Bindings Bool} {cycle : Nat}

theorem mem_targets_withUpdates (order : updates.Perm c.updates) (name : String) :
    name ∈ (c.withUpdates updates).targets ↔ name ∈ c.targets :=
  (order.map Update.target).mem_iff

theorem WellFormed.withUpdates (wellFormed : c.WellFormed) (order : updates.Perm c.updates) :
    (c.withUpdates updates).WellFormed where
  declared := wellFormed.declared
  targets := (order.map Update.target).nodup_iff.mpr wellFormed.targets
  target_not_input name target :=
    wellFormed.target_not_input name ((mem_targets_withUpdates order name).mp target)
  target_not_latchOutput name target :=
    wellFormed.target_not_latchOutput name ((mem_targets_withUpdates order name).mp target)
  parameters := wellFormed.parameters

namespace Reached

/-- Cycles under two orders that agree away from the targets agree on the targets as well. -/
theorem get?_eq_of_untouched (wellFormed : c.WellFormed) (order : updates.Perm c.updates)
    (left : c.Reached definitions limit .empty cycle v)
    (right : (c.withUpdates updates).Reached definitions limit .empty cycle w)
    (untouched : ∀ name ∉ c.targets, v.get? name = w.get? name) (name : String) :
    v.get? name = w.get? name := by
  obtain ⟨f, f', reference, start⟩ := left.first_pass
  have seeds : AgreeOn f.names v w := by
    intro source bound
    have seeded := (start source).mp bound
    have driven : source ∈ c.driven := List.mem_append_left _ (List.mem_append.mpr seeded)
    obtain ⟨value, found⟩ := (v.mem_names_iff source).mp ((left.mem_names source).mpr (.inr driven))
    have apart : source ∉ c.targets := fun target => wellFormed.target_not_seeded target seeded
    exact ⟨value, found, untouched source apart ▸ found⟩
  have holds : ∀ u ∈ c.updates, u.Holds definitions limit w := fun u mem =>
    right.holds (wellFormed.withUpdates order) u (order.mem_iff.mpr mem)
  have agree := agreeOn_of_holds reference (left.holds wellFormed) holds seeds
  by_cases target : name ∈ c.targets
  · have bound := ((Phase.applyUpdates_wrote reference).mem_names name).mpr (.inr target)
    obtain ⟨value, inV, inW⟩ := agree name bound
    rw [inV, inW]
  · exact untouched name target

theorem get?_eq_withUpdates (wellFormed : c.WellFormed) (order : updates.Perm c.updates)
    (left : c.Reached definitions limit .empty cycle v)
    (right : (c.withUpdates updates).Reached definitions limit .empty cycle w) :
    ∀ name, v.get? name = w.get? name := by
  -- what is no target is written before the updates, from the stimulus and the cycle before
  induction left generalizing w with
  | first h =>
      cases right with
      | first h' =>
          apply get?_eq_of_untouched wellFormed order (.first h) (.first h')
          intro name untouched
          rw [firstPhase_get? h untouched,
            firstPhase_get? h' ((mem_targets_withUpdates order name).not.mpr untouched)]
          rfl
  | next earlier h ih =>
      cases right with
      | next earlier' h' =>
          apply get?_eq_of_untouched wellFormed order (earlier.next h) (earlier'.next h')
          intro name untouched
          rw [nextPhase_get? h untouched,
            nextPhase_get? h' ((mem_targets_withUpdates order name).not.mpr untouched), ih earlier']
          rfl

end Reached

end Circuit

namespace Setup

/-- If two orders of the updates both let a run of a new simulator complete, the runs show the same values
    in every cycle and publish the same results, whatever their settings are. -/
theorem update_order_immaterial (u v : Setup) {updates : List Update}
    (circuit : v.circuit = u.circuit.withUpdates updates) (order : updates.Perm u.circuit.updates)
    (accepted : u.circuit.checkStructure = .ok ()) {s s' t t' : Session} (fresh : s.Fresh u)
    (fresh' : t.Fresh v) (completed : u.run s = .ok () s') (completed' : v.run t = .ok () t') :
    t'.results = s'.results ∧ ∃ values values' : List (Bindings Bool),
      s'.cycles = values.mapIdx (fun cycle f => ((cycle : Int), f)) ∧
      t'.cycles = values'.mapIdx (fun cycle f => ((cycle : Int), f)) ∧
      List.Forall₂ (fun f g => ∀ name, f.get? name = g.get? name) values values' := by
  have wellFormed := u.circuit.checkStructure_eq_ok_iff.mp accepted
  obtain ⟨values, run⟩ := (u.ensures_run s).of_ok completed
  obtain ⟨values', run'⟩ := (v.ensures_run t).of_ok completed'
  have definitions : t.simulator.definitions = s.simulator.definitions :=
    fresh.definitions_eq fresh' (by rw [circuit]; rfl)
  have length : v.circuit.runLength = u.circuit.runLength := by
    rw [circuit]
    rfl
  have same : List.Forall₂ (fun f g => ∀ name, f.get? name = g.get? name) values values' := by
    apply run.forall₂ run' length
    intro i f g reaches reaches'
    rw [Reaches, fresh.vars] at reaches
    rw [Reaches, fresh'.vars, definitions, circuit] at reaches'
    exact (reaches.deeper (Int.le_max_left _ t.simulator.depthLimit)).get?_eq_withUpdates wellFormed
      order (reaches'.deeper (Int.le_max_right s.simulator.depthLimit _))
  refine ⟨?_, values, values', ?_, ?_, same⟩
  · apply run.results_eq run' length _ same
    rw [circuit]
    rfl
  · rw [run.cycles_eq, fresh.cycles, List.nil_append]
  · rw [run'.cycles_eq, fresh'.cycles, List.nil_append]

/-- A function that reads a signal beside its parameter. -/
private def enabling : Definition :=
  ⟨"Enabled", ["x"], .and (.signal "x") (.signal "Enable")⟩

/-- The function reads a target, so one update must precede the other. -/
private def enabledLatch : Circuit where
  name := "enabled"
  inputs := ["In", "Hold"]
  outputs := ["Out"]
  latches := ["L"]
  definitions := [enabling]
  updates := [⟨"Enable", .not (.signal "Hold")⟩, ⟨"L", .apply "Enabled" [.signal "In"]⟩,
    ⟨"Out", .or (.signal "L'") (.signal "In")⟩]
  traces := [⟨"In", [true, false, true]⟩, ⟨"Hold", [false, false, true]⟩]

private def outputFirst : Circuit :=
  enabledLatch.withUpdates [⟨"Out", .or (.signal "L'") (.signal "In")⟩,
    ⟨"Enable", .not (.signal "Hold")⟩, ⟨"L", .apply "Enabled" [.signal "In"]⟩]

theorem update_order_immaterial_enabled :
    outputFirst.updates.Perm enabledLatch.updates ∧ enabledLatch.checkStructure = .ok () ∧
      (standard enabledLatch).run.succeeds (.start (Bindings.empty.put "Enabled" enabling)) = true ∧
      (standard outputFirst).run.succeeds (.start (Bindings.empty.put "Enabled" enabling)) = true ∧
      ((standard outputFirst).run.after (.start (Bindings.empty.put "Enabled" enabling))).results =
        ((standard enabledLatch).run.after
          (.start (Bindings.empty.put "Enabled" enabling))).results := by
  have order : outputFirst.updates.Perm enabledLatch.updates :=
    (List.Perm.swap _ _ _).trans ((List.Perm.swap _ _ _).cons _)
  have accepted : enabledLatch.checkStructure = .ok () := by decide +kernel
  have completed : (standard enabledLatch).run.succeeds
      (.start (Bindings.empty.put "Enabled" enabling)) = true := by decide +kernel
  have completed' : (standard outputFirst).run.succeeds
      (.start (Bindings.empty.put "Enabled" enabling)) = true := by decide +kernel
  refine ⟨order, accepted, completed, completed', ?_⟩
  exact (update_order_immaterial (standard enabledLatch) (standard outputFirst) rfl order accepted
    ⟨rfl, rfl⟩ ⟨rfl, rfl⟩ (Operation.eq_ok_of_succeeds completed)
    (Operation.eq_ok_of_succeeds completed')).1

end Setup

end SyncCircuit
