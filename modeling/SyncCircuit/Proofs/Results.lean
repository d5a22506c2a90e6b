import SyncCircuit.Proofs.Runs

/-! # Published results

A completed run publishes a number of cycles, which is the length of the first trace, and a trace of every
output with one sample for each cycle that was computed. The two numbers agree unless the first trace
is empty: the first cycle is computed in any case.

The results of a run are a function of the valuations that its cycles ended with
(`Setup.Completed.outputs_eq`), so runs are compared by comparing these.
-/

namespace SyncCircuit

theorem Circuit.runLength_eq_ok {c : Circuit} {length : Nat} (h : c.runLength = .ok length) :
    ∃ first rest, c.traces = first :: rest ∧ first.length = length := by
  unfold runLength at h
  cases found : c.traces with
  | nil => simp [found] at h
  | cons first rest =>
      by_cases even : c.traceLengths.values.Pairwise (· = ·)
      · exact ⟨first, rest, rfl, by simpa [found, even] using h⟩
      · simp [found, even] at h

namespace Setup

section Completed

variable {u v : Setup} {s₀ s t₀ t : Session} {values values' : List (Bindings Bool)}

theorem Completed.outputs_eq (completed : u.Completed s₀ s values) :
    s.results.outputs =
      u.circuit.outputs.eraseDups.map fun x => ⟨x, values.filterMap (·.get? x)⟩ := by
  have recorded : ∀ output ∈ s.results.outputs,
      ⟨output.signal, values.filterMap (·.get? output.signal)⟩ = output := by
    intro output mem
    have samples := congrArg (List.filterMap id) (completed.outputs output mem)
    simp only [List.filterMap_map, Function.comp_def, id_eq, List.filterMap_some] at samples
    rw [← samples]
  rw [← completed.signals, List.map_map]
  exact ((List.map_congr_left recorded).trans (List.map_id _)).symm

theorem Completed.output_eq (completed : u.Completed s₀ s values) {x : String}
    (output : x ∈ u.circuit.outputs) :
    s.results.output x = .ok ⟨x, values.filterMap (·.get? x)⟩ := by
  have found : u.circuit.outputs.eraseDups.find? (· == x) = some x := by
    cases found : u.circuit.outputs.eraseDups.find? (· == x) with
    | none => simpa using List.find?_eq_none.mp found x (List.mem_eraseDups.mpr output)
    | some y =>
        have same : y = x := by simpa using List.find?_some found
        rw [same]
  rw [Results.output, completed.outputs_eq, List.find?_map]
  simp only [Function.comp_def, found, Option.map_some]

theorem Completed.length_eq (left : u.Completed s₀ s values) (right : v.Completed t₀ t values')
    (length : v.circuit.runLength = u.circuit.runLength) : t.results.length = s.results.length := by
  rw [left.length, right.length] at length
  exact Except.ok.inj length

theorem Completed.forall₂ {R : Bindings Bool → Bindings Bool → Prop}
    (left : u.Completed s₀ s values) (right : v.Completed t₀ t values')
    (length : v.circuit.runLength = u.circuit.runLength)
    (related : ∀ i f g, u.Reaches s₀.simulator i f → v.Reaches t₀.simulator i g → R f g) :
    List.Forall₂ R values values' := by
  rw [List.forall₂_iff_get]
  refine ⟨by rw [left.cycles, right.cycles, left.length_eq right length], ?_⟩
  intro i inside inside'
  exact related i _ _ (left.reached i _ (List.getElem?_eq_getElem inside))
    (right.reached i _ (List.getElem?_eq_getElem inside'))

theorem filterMap_get?_eq {x : String}
    (same : List.Forall₂ (fun f g => f.get? x = g.get? x) values values') :
    values.filterMap (·.get? x) = values'.filterMap (·.get? x) := by
  induction same with
  | nil => rfl
  | cons here _ ih => rw [List.filterMap_cons, List.filterMap_cons, here, ih]

/-- Completed runs of the same length that show the same values of the same outputs publish the same
    results. -/
theorem Completed.results_eq (left : u.Completed s₀ s values) (right : v.Completed t₀ t values')
    (length : v.circuit.runLength = u.circuit.runLength)
    (outputs : v.circuit.outputs = u.circuit.outputs)
    (same : List.Forall₂ (fun f g => ∀ x, f.get? x = g.get? x) values values') :
    t.results = s.results := by
  have recorded : t.results.outputs = s.results.outputs := by
    rw [left.outputs_eq, right.outputs_eq, outputs]
    apply List.map_congr_left
    intro x _
    rw [filterMap_get?_eq (same.imp fun _ _ all => all x)]
  exact congrArg₂ Results.mk (left.length_eq right length) recorded

end Completed

/-- Every output of a completed run has a sample for each cycle, and at least one. These are as many as
    the published length says, exactly if the first trace is not empty or nothing is put out. -/
theorem output_length_iff (u : Setup) {s t : Session} (completed : u.run s = .ok () t) :
    (∀ output ∈ t.results.outputs, output.length = max 1 t.results.length) ∧
      ((∀ output ∈ t.results.outputs, output.length = t.results.length) ↔
        u.circuit.outputs = [] ∨
          ∃ first rest, u.circuit.traces = first :: rest ∧ 0 < first.length) := by
  obtain ⟨values, run⟩ := (u.ensures_run s).of_ok completed
  obtain ⟨first, rest, traces, length⟩ := Circuit.runLength_eq_ok run.length
  have samples : ∀ output ∈ t.results.outputs, output.length = max 1 t.results.length := by
    intro output mem
    rw [← run.cycles, Trace.length]
    simpa using congrArg List.length (run.outputs output mem)
  refine ⟨samples, ?_, ?_⟩
  · intro equal
    cases outputs : u.circuit.outputs with
    | nil => exact .inl rfl
    | cons signal more =>
        right
        have published : signal ∈ t.results.outputs.map (·.signal) := by
          rw [run.signals, outputs, List.mem_eraseDups]
          exact List.mem_cons_self
        obtain ⟨output, mem, -⟩ := List.mem_map.mp published
        have least := samples output mem
        have most := equal output mem
        exact ⟨first, rest, traces, by omega⟩
  · intro covered output mem
    cases covered with
    | inl none =>
        have published : output.signal ∈ u.circuit.outputs.eraseDups := by
          rw [← run.signals]
          exact List.mem_map_of_mem mem
        simp [none] at published
    | inr driven =>
        obtain ⟨other, more, also, positive⟩ := driven
        cases traces.symm.trans also
        have least := samples output mem
        omega

/-- A circuit without inputs, driven by an empty trace. -/
private def undrivenOutput : Circuit where
  name := "undriven"
  outputs := ["Out"]
  latches := ["L"]
  updates := [⟨"Out", .signal "L'"⟩]
  traces := [⟨"In", []⟩]

theorem output_length_undriven :
    (standard undrivenOutput).run.succeeds (.start .empty) = true ∧
      ∀ output ∈ ((standard undrivenOutput).run.after (.start .empty)).results.outputs,
        output.length = 1 := by
  have succeeds : (standard undrivenOutput).run.succeeds (.start .empty) = true := by
    decide +kernel
  have length : ((standard undrivenOutput).run.after (.start .empty)).results.length = 0 := by
    decide +kernel
  refine ⟨succeeds, ?_⟩
  intro output mem
  rw [(output_length_iff _ (Operation.eq_ok_of_succeeds succeeds)).1 output mem, length]
  rfl

/-- The published length is zero and the output has a sample. -/
theorem undriven_output_has_sample :
    (standard undrivenOutput).run.succeeds (.start .empty) = true ∧
      ((standard undrivenOutput).run.after (.start .empty)).results =
        { length := 0, outputs := [⟨"Out", [false]⟩] } :=
  ⟨by decide +kernel, by decide +kernel⟩

end Setup

end SyncCircuit
