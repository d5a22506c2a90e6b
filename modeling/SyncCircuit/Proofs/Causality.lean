import SyncCircuit.Proofs.Lockstep
import SyncCircuit.Proofs.Progress

/-! # Causality

A cycle depends on the samples up to it and on none that come later. If all traces are cut after some
cycle, the circuit goes through the same valuations up to there (`Circuit.Reached.truncate`) and stops,
and what it puts out is the beginning of what it put out before (`Setup.run_truncated`).
-/

namespace SyncCircuit

/-- The first samples of a trace. -/
def Trace.truncate (count : Nat) (t : Trace) : Trace :=
  { t with values := t.values.take count }

theorem Trace.length_truncate (count : Nat) (t : Trace) :
    (t.truncate count).length = min count t.length :=
  List.length_take

namespace Circuit

/-- The same circuit, driven by the first samples of each trace only. -/
def truncate (count : Nat) (c : Circuit) : Circuit :=
  c.withTraces (c.traces.map (·.truncate count))

variable {c : Circuit} {count cycle length : Nat} {definitions : Definitions} {limit : Int}
  {start v : Bindings Bool}

theorem inputTrace_truncate (count : Nat) (c : Circuit) (x : String) :
    (c.truncate count).inputTrace x = (c.inputTrace x).map (·.truncate count) :=
  List.find?_map

theorem firstSample_truncate (positive : 0 < count) (x : String) :
    (c.truncate count).firstSample x = c.firstSample x := by
  rw [firstSample, firstSample, inputTrace_truncate]
  cases c.inputTrace x with
  | none => rfl
  | some t =>
      have first : (t.values.take count).head? = t.values.head? := by
        rw [List.head?_take, if_neg (by omega)]
      simp only [Option.map_some, Option.bind_some, Trace.truncate, first]

theorem sampleAt_truncate (inside : cycle < count) (x : String) :
    (c.truncate count).sampleAt (cycle : Nat) x = c.sampleAt (cycle : Nat) x := by
  rw [sampleAt, sampleAt, inputTrace_truncate]
  cases c.inputTrace x with
  | none => rfl
  | some t =>
      have same : (t.truncate count).sample? (cycle : Nat) = t.sample? (cycle : Nat) := by
        rw [Trace.sample?_ofNat, Trace.sample?_ofNat, Trace.truncate,
          List.getElem?_take_of_lt inside]
      have beyond : (((t.truncate count).length : Nat) : Int) ≤ cycle ↔ (t.length : Int) ≤ cycle := by
        rw [Trace.length_truncate]
        omega
      simp only [Option.map_some, same, beyond]

theorem traceLengths_truncate (count : Nat) (c : Circuit) :
    (c.truncate count).traceLengths = c.traceLengths.map (min count) := by
  rw [traceLengths, traceLengths, Bindings.map_ofList, truncate, withTraces, List.map_map,
    List.map_map]
  simp only [Function.comp_def, Trace.length_truncate]
  rfl

theorem runLength_truncate (settled : c.runLength = .ok length) :
    (c.truncate count).runLength = .ok (min count length) := by
  obtain ⟨first, rest, traces, rfl⟩ := runLength_eq_ok settled
  have even : (c.truncate count).traceLengths.values.Pairwise (· = ·) := by
    have values : (c.traceLengths.map (min count)).values = c.traceLengths.values.map (min count) := by
      simp only [Bindings.values, Bindings.map, Bindings.mapWithName, List.map_map]
      rfl
    rw [traceLengths_truncate, values]
    exact (pairwise_traceLengths settled).map _ fun _ _ same => congrArg _ same
  have cut : (c.truncate count).traces = first.truncate count :: rest.map (·.truncate count) := by
    rw [truncate, withTraces, traces]
    rfl
  rw [runLength, cut]
  simp only [even, if_true, Trace.length_truncate]

theorem firstPhase_truncate (positive : 0 < count) :
    (c.truncate count).firstPhase definitions limit = c.firstPhase definitions limit := by
  have samples : (c.truncate count).firstSample = c.firstSample :=
    funext (firstSample_truncate positive)
  rw [firstPhase, firstPhase, samples]
  rfl

theorem nextPhase_truncate (inside : cycle < count) :
    (c.truncate count).nextPhase definitions limit (cycle : Nat) =
      c.nextPhase definitions limit (cycle : Nat) := by
  have samples : (c.truncate count).sampleAt (cycle : Nat) = c.sampleAt (cycle : Nat) :=
    funext (sampleAt_truncate inside)
  rw [nextPhase, nextPhase, samples]
  rfl

/-- Up to the cut, cycles end as they do without it. -/
theorem Reached.truncate (reached : c.Reached definitions limit start cycle v)
    (inside : cycle < count) : (c.truncate count).Reached definitions limit start cycle v := by
  induction reached with
  | first h =>
      rw [← firstPhase_truncate inside] at h
      exact .first h
  | next earlier h ih =>
      rw [← nextPhase_truncate inside] at h
      exact .next (ih (by omega)) h

end Circuit

namespace Setup

open Operation

variable {u v : Setup} {s t r q : Session} {count : Nat} {values values' : List (Bindings Bool)}

section Truncated

variable (circuit : v.circuit = u.circuit.truncate count) (settings : v.settings = u.settings)
  (fresh : s.Fresh u) (fresh' : t.Fresh v)
include circuit settings fresh fresh'

theorem Reaches.truncate {i : Nat} {f : Bindings Bool} (reaches : u.Reaches s.simulator i f)
    (inside : i < count) : v.Reaches t.simulator i f := by
  have definitions : t.simulator.definitions = s.simulator.definitions :=
    fresh.definitions_eq fresh' (by rw [circuit]; rfl)
  rw [Reaches, fresh.vars] at reaches
  rw [Reaches, circuit, definitions, fresh.depthLimit_eq fresh' settings, fresh'.vars]
  exact Circuit.Reached.truncate reaches inside

/-- The first cycles of a completed run can be computed without the rest, so a run over them completes. -/
theorem succeeds_truncated (whole : u.run s = .ok () r) (positive : 1 ≤ count)
    (inside : count ≤ r.results.length) (readable : v.Readable t)
    (quiet : ∀ occasion ∈ (v.run.after t).hooks, v.settings.monitor.objection occasion = none) :
    v.run.succeeds t = true := by
  obtain ⟨values, completed⟩ := (u.ensures_run s).of_ok whole
  obtain ⟨begun, ended, simulator, opened⟩ := opened_of_run whole
  have first : u.Reaches s.simulator 0 ended.simulator.vars := by
    rw [← simulator]
    exact .first opened.computed
  have settled : v.circuit.runLength = .ok count := by
    rw [circuit, Circuit.runLength_truncate completed.length, Nat.min_eq_left inside]
  apply succeeds_of_reaches _ settled _ _ readable quiet
  · intro asked
    rw [circuit, Circuit.truncate, Circuit.checkStructure_withTraces]
    exact opened.checked (settings ▸ asked)
  · intro i early
    have computed : i < values.length := by
      rw [completed.cycles]
      omega
    have reaches := completed.reached i _ (List.getElem?_eq_getElem computed)
    exact ⟨_, reaches.truncate circuit settings fresh fresh' (by omega)⟩
  · intro f reaches signal output
    cases reaches.unique (first.truncate circuit settings fresh fresh' (by omega))
    rw [circuit] at output
    exact opened.outputs signal output

theorem Completed.prefix_truncated (whole : u.Completed s r values) (part : v.Completed t q values')
    (positive : 1 ≤ count) (inside : count ≤ r.results.length) (length : q.results.length = count) :
    values' <+: values := by
  rw [List.prefix_iff_getElem?]
  intro i early
  have cycles := whole.cycles
  have cycles' := part.cycles
  have computed : i < values.length := by omega
  have reaches := whole.reached i _ (List.getElem?_eq_getElem computed)
  have reaches' := part.reached i _ (List.getElem?_eq_getElem early)
  rw [List.getElem?_eq_getElem computed,
    reaches'.unique (reaches.truncate circuit settings fresh fresh' (by omega))]

omit settings fresh fresh' in
theorem Completed.length_truncated (whole : u.Completed s r values) (part : v.Completed t q values')
    (inside : count ≤ r.results.length) : q.results.length = count := by
  have settled := part.length
  rw [circuit, Circuit.runLength_truncate whole.length, Nat.min_eq_left inside] at settled
  exact (Except.ok.inj settled).symm

theorem Completed.outputs_truncated (whole : u.Completed s r values) (part : v.Completed t q values')
    (positive : 1 ≤ count) (inside : count ≤ r.results.length) :
    List.Forall₂ (fun whole part => part.signal = whole.signal ∧ part.length = count ∧
        part.values <+: whole.values) r.results.outputs q.results.outputs ∧ q.cycles <+: r.cycles := by
  have length := whole.length_truncated circuit part inside
  have first := whole.prefix_truncated circuit settings fresh fresh' part positive inside length
  constructor
  · have samples : ∀ output ∈ q.results.outputs, output.length = count := by
      intro output mem
      have each := congrArg List.length (part.outputs output mem)
      have cycles := part.cycles
      simp only [List.length_map] at each
      rw [Trace.length]
      omega
    have signals : v.circuit.outputs = u.circuit.outputs := by
      rw [circuit]
      rfl
    rw [part.outputs_eq] at samples ⊢
    rw [whole.outputs_eq, signals, List.forall₂_map_left_iff, List.forall₂_map_right_iff,
      List.forall₂_same]
    rw [signals] at samples
    intro x mem
    exact ⟨rfl, samples _ (List.mem_map_of_mem mem), first.filterMap _⟩
  · obtain ⟨rest, rfl⟩ := first
    rw [whole.cycles_eq, part.cycles_eq, fresh.cycles, fresh'.cycles, List.mapIdx_append]
    exact List.prefix_append _ _

end Truncated

/-- If a run of a new simulator completes, it also completes over any number of first samples, with that
    number of cycles. These end as they did before, and the outputs are the first samples of what they
    were. Of the monitor it is assumed that it objects to none of the calls of the shorter run, and on a
    bench nothing else is (`Bench.Reachable.simulate_truncated`). -/
theorem run_truncated (u v : Setup) {count : Nat} (circuit : v.circuit = u.circuit.truncate count)
    (settings : v.settings = u.settings) {s t : Session} (fresh : s.Fresh u)
    (fresh' : t.Fresh v) (readable : v.Readable t) (completed : u.run.succeeds s = true)
    (positive : 1 ≤ count) (inside : count ≤ (u.run.after s).results.length)
    (quiet : ∀ occasion ∈ (v.run.after t).hooks, v.settings.monitor.objection occasion = none) :
    v.run.succeeds t = true ∧ (v.run.after t).results.length = count ∧
    List.Forall₂ (fun whole part => part.signal = whole.signal ∧ part.length = count ∧
        part.values <+: whole.values)
      (u.run.after s).results.outputs (v.run.after t).results.outputs ∧
    (v.run.after t).cycles <+: (u.run.after s).cycles := by
  have whole := eq_ok_of_succeeds completed
  have succeeds := succeeds_truncated circuit settings fresh fresh' whole positive inside readable quiet
  obtain ⟨values, run⟩ := (u.ensures_run s).of_ok whole
  obtain ⟨values', part⟩ := (v.ensures_run t).of_ok (eq_ok_of_succeeds succeeds)
  exact ⟨succeeds, run.length_truncated circuit part inside,
    run.outputs_truncated circuit settings fresh fresh' part positive inside⟩

/-- A delay whose input has a second trace, shorter than the first. -/
private def repeatedTrace : Circuit where
  name := "repeated"
  inputs := ["In"]
  outputs := ["Out"]
  latches := ["L"]
  updates := [⟨"L", .not (.signal "In")⟩, ⟨"Out", .or (.signal "L'") (.signal "In")⟩]
  traces := [⟨"In", [true, false, true]⟩, ⟨"In", [true]⟩]

theorem run_truncated_repeated :
    (standard repeatedTrace).run.succeeds (.start .empty) = true ∧
      (standard (repeatedTrace.truncate 2)).run.succeeds (.start .empty) = true ∧
      ((standard (repeatedTrace.truncate 2)).run.after (.start .empty)).results.length = 2 ∧
      ((standard (repeatedTrace.truncate 2)).run.after (.start .empty)).cycles <+:
        ((standard repeatedTrace).run.after (.start .empty)).cycles := by
  have completed : (standard repeatedTrace).run.succeeds (.start .empty) = true := by decide +kernel
  have length : ((standard repeatedTrace).run.after (.start .empty)).results.length = 3 := by
    decide +kernel
  obtain ⟨succeeds, shorter, -, cycles⟩ := run_truncated (standard repeatedTrace)
    (standard (repeatedTrace.truncate 2)) rfl rfl (s := .start .empty) (t := .start .empty) ⟨rfl, rfl⟩
    ⟨rfl, rfl⟩ (fun _ watching => nomatch watching) completed (by omega) (by omega) fun _ _ => rfl
  exact ⟨completed, succeeds, shorter, cycles⟩

end Setup

end SyncCircuit
