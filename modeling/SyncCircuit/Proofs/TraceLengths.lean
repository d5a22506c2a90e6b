import Mathlib.Data.List.Pairwise
import SyncCircuit.Proofs.Failures
import SyncCircuit.Proofs.NameClashes
import SyncCircuit.Proofs.Results

/-! # Lengths of traces

A simulation settles its number of cycles from the first trace, after it has compared the lengths of all
traces by signal. Of several traces of one signal the comparison keeps the last length, while an input is
driven by the first trace. So a trace that differs from the others is missed exactly if another trace of
the same signal hides it, and then a run can come to the end of a trace.
-/

namespace SyncCircuit

namespace Circuit

variable {c : Circuit} {length : Nat} {e : SimError}

def OneLengthPerSignal (c : Circuit) : Prop :=
  ∀ t ∈ c.traces, ∀ t' ∈ c.traces, t.signal = t'.signal → t.length = t'.length

theorem pairwise_traceLengths (h : c.runLength = .ok length) :
    c.traceLengths.values.Pairwise (· = ·) := by
  unfold runLength at h
  split at h
  · cases h
  · split at h
    · assumption
    · cases h

theorem length_mem_traceLengths (once : c.OneLengthPerSignal) {t : Trace} (mem : t ∈ c.traces) :
    t.length ∈ c.traceLengths.values := by
  have named : t.signal ∈ c.traceLengths.names := by
    rw [traceLengths, Bindings.names_ofList, List.mem_eraseDups, List.map_map]
    exact List.mem_map_of_mem mem
  obtain ⟨entry, inside, name⟩ := List.mem_map.mp named
  obtain ⟨other, also, rfl⟩ := List.mem_map.mp (Bindings.mem_of_mem_ofList inside)
  rw [once t mem other also name.symm]
  exact List.mem_map_of_mem inside

/-- The comparison of lengths is complete exactly if no signal has traces of different lengths. -/
theorem all_length_iff (h : c.runLength = .ok length) :
    (∀ t ∈ c.traces, t.length = length) ↔ c.OneLengthPerSignal := by
  constructor
  · intro all t mem t' mem' _
    rw [all t mem, all t' mem']
  · intro once t mem
    obtain ⟨first, rest, traces, rfl⟩ := runLength_eq_ok h
    have leading : first ∈ c.traces := traces ▸ List.mem_cons_self
    have equal := (pairwise_traceLengths h).forall_of_forall fun _ _ => rfl
    exact equal (length_mem_traceLengths once mem) (length_mem_traceLengths once leading)

end Circuit

namespace Setup

open Operation

variable {u : Setup} {s t : Session} {x : String} {i : Int} {trace : Trace} {length : Nat}

theorem ensures_settled (u : Setup) (s : Session) :
    u.firstCycle.Ensures s (fun _ t => u.circuit.runLength = .ok t.simulator.length)
      (fun e t => e.refuses = true ∨ u.circuit.runLength = .ok t.simulator.length) := by
  apply ensures_opening
  · intro cause _ _
    exact .inl rfl
  · intro e vars failure
    obtain ⟨x, -, missing⟩ := Phase.seed_error failure
    rw [Circuit.firstSample_error missing]
    exact .inl rfl
  · intro e vars _ failure
    exact .inl (Circuit.runLength_refuses failure)
  · intro e vars length settled _
    exact .inr settled
  · intro vars length _ settled _
    apply (u.ensures_endCycle_simulator _ 0).mono
    · rintro _ t ⟨simulator, -⟩
      rw [simulator]
      exact settled
    · rintro e t ⟨history, simulator⟩
      rw [simulator]
      exact .inr settled
  · intro t r settled alike _
    rw [alike.simulator]
    exact settled

theorem exhausted_short (h : u.run s = .error (.traceExhausted x i) t) :
    x ∈ u.circuit.inputs ∧ ∃ trace length, u.circuit.inputTrace x = some trace ∧
      u.circuit.runLength = .ok length ∧ i = trace.length ∧ trace.length < length := by
  obtain ⟨values, -, obstacle⟩ | ⟨-, reason, -, aborted⟩ := (u.ensures_run s).of_error h
  · cases obstacle with
    | lengths failure => cases Circuit.runLength_refuses failure
    | first failure =>
        obtain ⟨_, missing⟩ | ⟨_, cause⟩ := Circuit.firstPhase_error failure
        · cases missing
        · cases cause
    | next reached count settled inside failure =>
        obtain ⟨_, -, -, cause⟩ | ⟨y, input, failed⟩ | ⟨_, _, -, -, updates⟩ :=
          Circuit.nextPhase_error failure
        · cases cause
        · obtain ⟨exhausted, none⟩ := Circuit.sampleAt_error failed
          cases exhausted
          obtain ⟨sample, before⟩ := reached.stimulus input
          rw [Circuit.stimulus] at none before
          cases driving : u.circuit.inputTrace x with
          | none => simp [driving] at before
          | some trace =>
              rw [driving, Option.bind_some, List.getElem?_eq_some_iff] at before
              rw [driving, Option.bind_some, List.getElem?_eq_none_iff] at none
              obtain ⟨present, -⟩ := before
              refine ⟨input, trace, _, rfl, settled, ?_, ?_⟩
              · rw [Trace.length]
                omega
              · rw [Trace.length]
                omega
        · obtain ⟨_, cause⟩ := Phase.applyUpdates_error updates
          cases cause
    | dump unread =>
        obtain ⟨-, _, cause⟩ := unread
        cases cause
  · cases aborted

theorem not_succeeds_of_short (input : x ∈ u.circuit.inputs)
    (driving : u.circuit.inputTrace x = some trace) (settled : u.circuit.runLength = .ok length)
    (short : trace.length < length) : u.run.succeeds s = false := by
  by_contra success
  obtain ⟨values, completed⟩ := (u.ensures_run s).of_ok
    (eq_ok_of_succeeds (by simpa using success))
  have cycles := completed.cycles
  cases settled.symm.trans completed.length
  have last : trace.length < values.length := by omega
  obtain ⟨sample, sampled⟩ := (completed.reached trace.length _
    (List.getElem?_eq_getElem last)).stimulus input
  rw [Circuit.stimulus, driving, Option.bind_some, List.getElem?_eq_some_iff] at sampled
  obtain ⟨inside, -⟩ := sampled
  rw [Trace.length] at inside
  omega

/-- Past the comparison of lengths, all traces have the settled length exactly if no signal has traces of
    different lengths. A run can only come to the end of a trace if some signal has; then the first trace
    of an input has been used up and is shorter than the first of all, and with such an input no run
    completes. -/
theorem trace_check_complete_iff (u : Setup) (s : Session) :
    u.firstCycle.Ensures s
      (fun _ t => (∀ trace ∈ u.circuit.traces, trace.length = t.simulator.length) ↔
        u.circuit.OneLengthPerSignal)
      (fun e t => e.refuses = true ∨
        ((∀ trace ∈ u.circuit.traces, trace.length = t.simulator.length) ↔
          u.circuit.OneLengthPerSignal)) ∧
    (∀ x i t, u.run s = .error (.traceExhausted x i) t → ¬ u.circuit.OneLengthPerSignal ∧
      x ∈ u.circuit.inputs ∧ ∃ trace length, u.circuit.inputTrace x = some trace ∧
        u.circuit.runLength = .ok length ∧ i = trace.length ∧ trace.length < length) ∧
    (∀ x trace length, x ∈ u.circuit.inputs → u.circuit.inputTrace x = some trace →
      u.circuit.runLength = .ok length → trace.length < length → u.run.succeeds s = false) := by
  refine ⟨?_, ?_, ?_⟩
  · apply (u.ensures_settled s).mono
    · exact fun _ t settled => Circuit.all_length_iff settled
    · exact fun e t settled => settled.imp_right Circuit.all_length_iff
  · intro x i t exhausted
    obtain ⟨input, trace, length, driving, settled, used, short⟩ := exhausted_short exhausted
    refine ⟨fun once => ?_, input, trace, length, driving, settled, used, short⟩
    have all := (Circuit.all_length_iff settled).mpr once trace (List.mem_of_find?_eq_some driving)
    omega
  · exact fun x trace length => not_succeeds_of_short

/-- A signal with two traces, of which the first is longer than the second and than the input's. -/
private def hiddenLength : Circuit where
  name := "hidden"
  inputs := ["In"]
  traces := [⟨"X", [true, true]⟩, ⟨"X", [true]⟩, ⟨"In", [true]⟩]

theorem trace_check_complete_hidden :
    ¬ hiddenLength.OneLengthPerSignal ∧
      (standard hiddenLength).run.succeeds (.start .empty) = false := by
  have settled : hiddenLength.runLength = .ok 2 := rfl
  constructor
  · intro once
    cases once ⟨"X", [true, true]⟩ (by simp [hiddenLength]) ⟨"X", [true]⟩ (by simp [hiddenLength]) rfl
  · exact (trace_check_complete_iff (standard hiddenLength) (.start .empty)).2.2 "In" ⟨"In", [true]⟩ 2
      (by decide) (by decide) settled (by decide)

/-- The first cycle accepts traces of different lengths, and the run comes to the end of one. -/
theorem hidden_length_exhausts_input :
    (standard hiddenLength).firstCycle.succeeds (.start .empty) = true ∧
      ((standard hiddenLength).firstCycle.after (.start .empty)).simulator.length = 2 ∧
      hiddenLength.traces.map Trace.length = [2, 1, 1] ∧
      ∃ t, (standard hiddenLength).run (.start .empty) = .error (.traceExhausted "In" 1) t := by
  refine ⟨by decide +kernel, by decide +kernel, by decide +kernel, _, rfl⟩

end Setup

end SyncCircuit
