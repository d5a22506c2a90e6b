import SyncCircuit.Proofs.Runs

/-! # Publication

A run may stop at many points, and what it has recorded by then can be of any shape: outputs are recorded
one after another, and those before one that is not bound have a sample more than those after it. None of
this is seen outside. Either the results of the circuit are those that it had before the run, or the run
has announced its end and they are the outputs of all its cycles.
-/

namespace SyncCircuit

namespace Setup

open Operation

variable {u : Setup} {s t : Session} {values : List (Bindings Bool)}

theorem finished_not_mem_report (u : Setup) (earlier : Results) (values : List (Bindings Bool))
    (circuit : String) (results : Results) :
    Hook.finished circuit results ∉ u.report earlier values := by
  intro mem
  rcases List.mem_cons.mp mem with started | later
  · cases started
  · obtain ⟨cycle, inside, ended⟩ := List.mem_mapIdx.mp later
    cases ended

/-- The results are the outputs of the cycles that the monitor was told of, with a sample for each. -/
structure Publishes (u : Setup) (t : Session) (values : List (Bindings Bool)) : Prop where
  length : t.results.length = t.simulator.length
  signals : t.results.outputs.map (·.signal) = u.circuit.outputs.eraseDups
  samples : ∀ output ∈ t.results.outputs, output.values.map some = values.map (·.get? output.signal)
  accepted : ∀ output ∈ t.results.outputs,
    Trace.ofSamples output.signal (output.values.map .bool) = .ok output

theorem Completed.publishes (completed : u.Completed s t values) : u.Publishes t values where
  length := completed.settled.symm
  signals := completed.signals
  samples := completed.outputs
  accepted output _ := output.ofSamples_bool

/-- A run that fails before it announces its end leaves the results as they were. If it announces its end,
    whether the monitor then objects or not, the results are its own: its number of cycles, and a trace of
    every output, whose samples are the values that the monitor was told at the ends of the cycles. There
    is no third way. -/
theorem results_published_or_kept (u : Setup) (s : Session) :
    ∃ told, (u.run.after s).hooks = s.hooks ++ told ∧
      ((∃ e, u.run.ending s = .error e) ∧
          (∀ circuit results, Hook.finished circuit results ∉ told) ∧
          (u.run.after s).results = s.results ∨
        ∃ values,
          told = u.report s.results values ++ [.finished u.circuit.name (u.run.after s).results] ∧
          (u.run.ending s = .ok () ∨ ∃ reason, u.run.ending s = .error (.aborted reason) ∧
            u.settings.monitor.objection (.finished u.circuit.name (u.run.after s).results) =
              some reason) ∧
          u.Publishes (u.run.after s) values) := by
  unfold Operation.ending Operation.after
  cases found : u.run s with
  | ok _ t =>
      obtain ⟨values, completed⟩ := (u.ensures_run s).of_ok found
      refine ⟨_, completed.hooks.trans (List.append_assoc ..), .inr ⟨values, rfl, .inl rfl, ?_⟩⟩
      exact completed.publishes
  | error e t =>
      rcases (u.ensures_run s).of_error found with
        ⟨values, told, -⟩ | ⟨⟨values, completed⟩, reason, objected, rfl⟩
      · refine ⟨_, told.hooks, .inl ⟨⟨e, rfl⟩, ?_, told.results⟩⟩
        exact u.finished_not_mem_report s.results values
      · refine ⟨_, completed.hooks.trans (List.append_assoc ..), .inr ⟨values, rfl, ?_, ?_⟩⟩
        · exact .inr ⟨reason, rfl, objected⟩
        · exact completed.publishes

end Setup

end SyncCircuit
