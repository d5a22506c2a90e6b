import SyncCircuit.Proofs.TraceLengths

/-! # Progress after the first cycle

Failures depend on names, never on values, and names are only ever added. So the first cycle of a new
simulator decides for all others: if it succeeds, a later cycle can fail at a latch that nothing drives,
which shows in the second cycle at once, or at the end of the trace of an input. No later update and no
later output fails.
-/

namespace SyncCircuit

namespace Setup

open Operation

variable {u : Setup} {s t r : Session} {e : SimError} {cycle : Nat} {v : Bindings Bool}

/-- What a first cycle that succeeds has found. -/
structure Opened (u : Setup) (s t : Session) : Prop where
  checked : u.settings.checkStructure = true → u.circuit.checkStructure = .ok ()
  settled : u.circuit.runLength = .ok t.simulator.length
  computed : u.circuit.firstPhase s.simulator.definitions s.simulator.depthLimit s.simulator.vars =
    .ok () t.simulator.vars
  outputs : ∀ signal ∈ u.circuit.outputs, signal ∈ t.simulator.vars.names

theorem opened_of_firstCycle (h : u.firstCycle s = .ok () t) : u.Opened s t := by
  have ensures : u.firstCycle.Ensures s (fun _ t => u.Opened s t) (fun _ _ => True) := by
    apply ensures_opening
    · exact fun _ _ _ => trivial
    · exact fun _ _ _ => trivial
    · exact fun _ _ _ _ => trivial
    · exact fun _ _ _ _ _ => trivial
    · intro vars length checked settled computed
      apply (u.ensures_endCycle_simulator _ 0).mono _ fun _ _ _ => trivial
      rintro _ t ⟨simulator, bound⟩
      rw [names_history_ready] at bound
      refine ⟨checked, ?_, ?_, ?_⟩ <;> rw [simulator]
      · exact settled
      · exact computed
      · exact fun signal mem => bound signal (List.mem_eraseDups.mpr mem)
    · intro t r opened alike _
      refine ⟨opened.checked, ?_, ?_, ?_⟩ <;> rw [alike.simulator]
      · exact opened.settled
      · exact opened.computed
      · exact opened.outputs
  exact ensures.of_ok h

theorem opened_of_run (h : u.run s = .ok () t) :
    ∃ r q, r.simulator = s.simulator ∧ u.Opened r q := by
  obtain ⟨_, _, got, h⟩ := bind_ok h
  cases got
  obtain ⟨_, r, announced, h⟩ := bind_ok h
  obtain ⟨_, q, first, -⟩ := bind_ok h
  refine ⟨r, q, ?_, opened_of_firstCycle first⟩
  rw [announce_eq] at announced
  split at announced
  · cases announced
  · cases announced
    rfl

/-- A run completes if all its cycles can be computed, the first of them binds the outputs, and the
    monitor does not object. -/
theorem succeeds_of_reaches {length : Nat}
    (checked : u.settings.checkStructure = true → u.circuit.checkStructure = .ok ())
    (settled : u.circuit.runLength = .ok length)
    (computed : ∀ i < max 1 length, ∃ v, u.Reaches s.simulator i v)
    (outputs : ∀ v, u.Reaches s.simulator 0 v → ∀ signal ∈ u.circuit.outputs, signal ∈ v.names)
    (readable : u.Readable s)
    (quiet : ∀ occasion ∈ (u.run.after s).hooks, u.settings.monitor.objection occasion = none) :
    u.run.succeeds s = true := by
  by_contra failure
  obtain ⟨e, failed⟩ := eq_error_of_fails (by simpa using failure)
  obtain ⟨first, computedFirst⟩ := computed 0 (by omega)
  obtain ⟨values, told, obstacle⟩ | ⟨⟨values, completed⟩, reason, objected, -⟩ :=
    (u.ensures_run s).of_error failed
  · cases obstacle with
    | malformed asked refused => cases (checked asked).symm.trans refused
    | lengths failure => cases settled.symm.trans failure
    | first failure =>
        cases computedFirst with
        | first success => cases success.symm.trans failure
    | next reached _ also inside failure =>
        cases settled.symm.trans also
        obtain ⟨v, later⟩ := computed _ (Nat.lt_of_lt_of_le inside (Nat.le_max_right 1 length))
        cases failure.symm.trans (reached.step later)
    | output reached recorded unbound =>
        have bound := (computedFirst.mem_names _).mp (outputs first computedFirst _ recorded)
        exact unbound ((reached.mem_names _).mpr bound)
    | objection heard objected =>
        have called := told.hooks ▸ List.mem_append_right s.hooks heard
        cases (quiet _ called).symm.trans objected
    | dump unread => exact unread.1 readable
  · have called : .finished u.circuit.name (u.run.after s).results ∈ (u.run.after s).hooks := by
      rw [completed.hooks]
      exact List.mem_append_right _ List.mem_cons_self
    cases (quiet _ called).symm.trans objected

theorem Reaches.reached (fresh : s.Fresh u) (reaches : u.Reaches s.simulator cycle v) :
    u.circuit.Reached s.simulator.definitions s.simulator.depthLimit .empty cycle v := by
  rw [← fresh.vars]
  exact reaches

theorem Opened.outputs_driven (fresh : s.Fresh u) (opened : u.Opened s t) :
    ∀ signal ∈ u.circuit.outputs, signal ∈ u.circuit.driven := by
  intro signal mem
  have first : u.Reaches s.simulator 0 t.simulator.vars := .first opened.computed
  exact (first.reached fresh).mem_driven.mp (opened.outputs signal mem)

theorem driven_of_reaches (fresh : s.Fresh u)
    (reaches : u.Reaches s.simulator (cycle + 1) v) :
    ∀ latch ∈ u.circuit.latches, latch ∈ u.circuit.driven := by
  intro latch mem
  cases reaches.reached fresh with
  | next earlier h =>
      obtain ⟨value, found⟩ := earlier.latch_bound (.next earlier h) mem
      exact earlier.mem_driven.mp ((Bindings.mem_names_iff _ _).mpr ⟨value, found⟩)

section FirstCycle

variable (fresh : s.Fresh u) (quiet : ∀ occasion, u.settings.monitor.objection occasion = none)
  (readable : u.Readable s) (opened : u.Opened s t)
include fresh quiet readable opened

theorem Opened.stopped_later (h : u.run s = .error e r) :
    ∃ values cycle before vars, u.Told s r values ∧ values.length = cycle + 1 ∧
      u.Reaches s.simulator cycle before ∧ cycle + 1 < t.simulator.length ∧
      u.circuit.nextPhase s.simulator.definitions s.simulator.depthLimit (cycle + 1 : Nat) before =
        .error e vars := by
  obtain ⟨values, told, obstacle⟩ | ⟨-, reason, objected, -⟩ := (u.ensures_run s).of_error h
  · cases obstacle with
    | malformed asked refused => cases (opened.checked asked).symm.trans refused
    | lengths failure => cases opened.settled.symm.trans failure
    | first failure => cases opened.computed.symm.trans failure
    | next reached count settled inside failure =>
        cases opened.settled.symm.trans settled
        exact ⟨values, _, _, _, told, count, reached, inside, failure⟩
    | output reached recorded unbound =>
        have driven := opened.outputs_driven fresh _ recorded
        exact absurd ((reached.reached fresh).mem_driven.mpr driven) unbound
    | objection _ objected => cases (quiet _).symm.trans objected
    | dump unread => exact absurd readable unread.1
  · cases (quiet _).symm.trans objected

theorem Opened.error_cases (h : u.run s = .error e r) :
    (∃ latch ∈ u.circuit.latches, latch ∉ u.circuit.driven ∧ e = .eval (.unbound latch)) ∨
      ∃ x ∈ u.circuit.inputs, ∃ i, e = .traceExhausted x i := by
  obtain ⟨values, cycle, before, vars, -, -, reaches, -, failure⟩ :=
    opened.stopped_later fresh quiet readable h
  have reached := reaches.reached fresh
  obtain ⟨latch, mem, unbound, cause⟩ | ⟨x, input, failed⟩ | ⟨copied, seeded, first, second, third⟩ :=
    Circuit.nextPhase_error failure
  · exact .inl ⟨latch, mem, fun driven => unbound (reached.mem_driven.mpr driven), cause⟩
  · exact .inr ⟨x, input, _, (Circuit.sampleAt_error failed).1⟩
  · obtain ⟨w, success⟩ := reached.applyUpdates_seeded first second
    cases third.symm.trans success

theorem Opened.succeeds_of_driven
    (latches : t.simulator.length ≤ 1 ∨ ∀ latch ∈ u.circuit.latches, latch ∈ u.circuit.driven)
    (inputs : ∀ x ∈ u.circuit.inputs, ∃ trace, u.circuit.inputTrace x = some trace ∧
      t.simulator.length ≤ trace.length) : u.run.succeeds s = true := by
  by_contra failure
  obtain ⟨e, failed⟩ := eq_error_of_fails (by simpa using failure)
  obtain ⟨values, cycle, before, vars, -, -, reaches, inside, stop⟩ :=
    opened.stopped_later fresh quiet readable failed
  have samples : ∀ x ∈ u.circuit.inputs, ∃ value,
      u.circuit.sampleAt (cycle + 1 : Nat) x = .ok value := by
    intro x input
    obtain ⟨trace, driving, long⟩ := inputs x input
    rw [Trace.length] at long
    have reaches : cycle + 1 < trace.values.length := by omega
    refine ⟨trace.values[cycle + 1], Circuit.sampleAt_ok ?_⟩
    rw [Circuit.stimulus, driving, Option.bind_some, List.getElem?_eq_getElem reaches]
  obtain ⟨w, success⟩ := (reaches.reached fresh).nextPhase_ok_of_driven
    (latches.resolve_left (by omega)) samples
  cases stop.symm.trans success

omit quiet readable in
theorem Opened.driven_of_succeeds (success : u.run.succeeds s = true) :
    (t.simulator.length ≤ 1 ∨ ∀ latch ∈ u.circuit.latches, latch ∈ u.circuit.driven) ∧
      ∀ x ∈ u.circuit.inputs, ∃ trace, u.circuit.inputTrace x = some trace ∧
        t.simulator.length ≤ trace.length := by
  obtain ⟨values, completed⟩ := (u.ensures_run s).of_ok (eq_ok_of_succeeds success)
  have cycles := completed.cycles
  have settled := Except.ok.inj (opened.settled.symm.trans completed.length)
  rw [← settled] at cycles
  constructor
  · by_cases one : t.simulator.length ≤ 1
    · exact .inl one
    · have second : 1 < values.length := by omega
      exact .inr (driven_of_reaches fresh (completed.reached 1 _ (List.getElem?_eq_getElem second)))
  · intro x input
    have last : values.length - 1 < values.length := by omega
    obtain ⟨sample, sampled⟩ :=
      (completed.reached _ _ (List.getElem?_eq_getElem last)).stimulus input
    cases driving : u.circuit.inputTrace x with
    | none => simp [Circuit.stimulus, driving] at sampled
    | some trace =>
        rw [Circuit.stimulus, driving, Option.bind_some, List.getElem?_eq_some_iff] at sampled
        obtain ⟨inside, -⟩ := sampled
        refine ⟨trace, rfl, ?_⟩
        rw [Trace.length]
        omega

/-- A latch that nothing drives stops a run in its second cycle. -/
theorem Opened.stops_at_undriven (two : 2 ≤ t.simulator.length) {before after : List String}
    {latch : String} (position : u.circuit.latches = before ++ latch :: after)
    (earlier : ∀ other ∈ before, other ∈ u.circuit.driven) (undriven : latch ∉ u.circuit.driven) :
    ∃ r v, u.run s = .error (.eval (.unbound latch)) r ∧ r.cycles = [(0, v)] := by
  have mem : latch ∈ u.circuit.latches := by simp [position]
  have failure : u.run.succeeds s = false := by
    by_contra success
    have driven := (opened.driven_of_succeeds fresh (by simpa using success)).1
    exact undriven (driven.resolve_left (by omega) latch mem)
  obtain ⟨e, failed⟩ := eq_error_of_fails failure
  obtain ⟨values, cycle, v, vars, told, count, reaches, -, stop⟩ :=
    opened.stopped_later fresh quiet readable failed
  cases cycle with
  | succ cycle => exact absurd (driven_of_reaches fresh reaches latch mem) undriven
  | zero =>
      have reached := reaches.reached fresh
      have outputs : ∀ other ∈ before, latchOutput other ∈ v.names := by
        intro other inside
        have output : latchOutput other ∈ u.circuit.latchOutputs :=
          List.mem_map_of_mem (position ▸ List.mem_append_left _ inside)
        apply reached.mem_driven.mpr
        simp only [Circuit.driven, List.mem_append]
        exact .inl (.inr output)
      obtain ⟨copied, unbound⟩ := Phase.copyLatches_unbound outputs
        (fun other inside => reached.mem_driven.mpr (earlier other inside))
        (fun bound => undriven (reached.mem_driven.mp bound))
      rw [← position] at unbound
      cases stop.symm.trans (bind_of_error unbound)
      obtain ⟨first, rfl⟩ := List.length_eq_one_iff.mp count
      refine ⟨_, first, failed, ?_⟩
      rw [told.cycles_eq, fresh.cycles]
      rfl

end FirstCycle

/-- If the first cycle of a new simulator succeeds, a run completes exactly if it has no second cycle or
    every latch is driven, and if the trace of every input is long enough. Otherwise it stops at such a
    latch, the first one, in the second cycle, or at the end of a trace; no later update or output
    fails. Of the monitor it is assumed that it never objects, and on a bench nothing else is
    (`Bench.Reachable.simulate_completes_iff`). -/
theorem run_completes_iff (u : Setup) {s t : Session} (fresh : s.Fresh u)
    (quiet : ∀ occasion, u.settings.monitor.objection occasion = none) (readable : u.Readable s)
    (initialized : u.firstCycle s = .ok () t) :
    (u.run.succeeds s = true ↔
      (t.simulator.length ≤ 1 ∨ ∀ latch ∈ u.circuit.latches, latch ∈ u.circuit.driven) ∧
      ∀ x ∈ u.circuit.inputs, ∃ trace, u.circuit.inputTrace x = some trace ∧
        t.simulator.length ≤ trace.length) ∧
    (2 ≤ t.simulator.length → ∀ before latch after, u.circuit.latches = before ++ latch :: after →
      (∀ other ∈ before, other ∈ u.circuit.driven) → latch ∉ u.circuit.driven →
      ∃ r v, u.run s = .error (.eval (.unbound latch)) r ∧ r.cycles = [(0, v)]) ∧
    (∀ e r, u.run s = .error e r →
      (∃ latch ∈ u.circuit.latches, latch ∉ u.circuit.driven ∧ e = .eval (.unbound latch)) ∨
        ∃ x ∈ u.circuit.inputs, ∃ i, e = .traceExhausted x i) ∧
    ∀ cycle v copied seeded, u.Reaches s.simulator cycle v →
      Phase.copyLatches u.circuit.latches v = .ok () copied →
      Phase.seed (u.circuit.sampleAt (cycle + 1 : Nat)) u.circuit.inputs copied = .ok () seeded →
      ∃ w, Phase.applyUpdates s.simulator.definitions s.simulator.depthLimit u.circuit.updates seeded =
          .ok () w ∧ ∀ signal ∈ u.circuit.outputs, signal ∈ w.names := by
  have opened := opened_of_firstCycle initialized
  refine ⟨⟨?_, ?_⟩, ?_, ?_, ?_⟩
  · exact opened.driven_of_succeeds fresh
  · rintro ⟨latches, inputs⟩
    exact opened.succeeds_of_driven fresh quiet readable latches inputs
  · intro two before latch after position earlier undriven
    exact opened.stops_at_undriven fresh quiet readable two position earlier undriven
  · intro e r failed
    exact opened.error_cases fresh quiet readable failed
  · intro cycle v copied seeded reaches first second
    have reached := reaches.reached fresh
    obtain ⟨w, third⟩ := reached.applyUpdates_seeded first second
    refine ⟨w, third, fun signal mem => ?_⟩
    have next : u.circuit.Reached s.simulator.definitions s.simulator.depthLimit .empty (cycle + 1) w :=
      .next reached ((bind_of_ok first).trans ((bind_of_ok second).trans third))
    exact next.mem_driven.mpr (opened.outputs_driven fresh signal mem)

/-- Two latches of which the second is not driven. -/
private def undrivenLatch : Circuit where
  name := "undriven"
  inputs := ["In"]
  latches := ["A", "B"]
  updates := [⟨"A", .or (.signal "In") (.signal "B'")⟩]
  traces := [⟨"In", [true, false]⟩]

theorem run_completes_undriven :
    (standard undrivenLatch).firstCycle.succeeds (.start .empty) = true ∧
      (standard undrivenLatch).run.succeeds (.start .empty) = false ∧
      ∃ r v, (standard undrivenLatch).run (.start .empty) = .error (.eval (.unbound "B")) r ∧
        r.cycles = [(0, v)] := by
  have succeeds : (standard undrivenLatch).firstCycle.succeeds (.start .empty) = true := by
    decide +kernel
  have length : ((standard undrivenLatch).firstCycle.after (.start .empty)).simulator.length = 2 := by
    decide +kernel
  obtain ⟨completes, undriven, -, -⟩ := run_completes_iff (standard undrivenLatch)
    (s := .start .empty) ⟨rfl, rfl⟩ (fun _ => rfl) (fun _ watching => nomatch watching)
    (eq_ok_of_succeeds succeeds)
  rw [length] at completes undriven
  refine ⟨succeeds, ?_, undriven (Nat.le_refl 2) ["A"] "B" [] rfl (by decide) (by decide)⟩
  by_contra success
  have driven := (completes.mp (by simpa using success)).1
  exact absurd driven (by decide)

end Setup

end SyncCircuit
