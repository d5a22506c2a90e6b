import Mathlib.Data.Set.Basic
import SyncCircuit.Proofs.TwoRuns

/-! # Other samples

The same circuit with other samples in some of its traces, whose signals and lengths stay
(`Circuit.Resampled`). No sample decides how a run ends: everything that can fail looks at names, at
lengths and at expressions as they are written, so runs under different samples go through the same steps
(`Setup.ending_independent_of_samples`).
-/

namespace SyncCircuit

/-- A trace of the same signal and length, with other samples at most if the signal is one of these. -/
structure Trace.Resampled (signals : Set String) (t t' : Trace) : Prop where
  signal : t'.signal = t.signal
  length : t'.length = t.length
  kept : t.signal ∉ signals → t' = t

theorem find?_rel {α : Type} {R : α → α → Prop} {p : α → Bool} {as bs : List α}
    (related : List.Forall₂ R as bs) (alike : ∀ a b, R a b → p b = p a) :
    Option.Rel R (as.find? p) (bs.find? p) := by
  induction related with
  | nil => exact .none
  | @cons a b _ _ first _ ih =>
      rw [List.find?_cons, List.find?_cons, alike a b first]
      cases p a with
      | true => exact .some first
      | false => exact ih

private theorem getElem?_rel {as bs : List Bool} (lengths : bs.length = as.length) (i : Nat) :
    Option.Rel (Same False) as[i]? bs[i]? := by
  by_cases inside : i < as.length
  · rw [List.getElem?_eq_getElem inside, List.getElem?_eq_getElem (lengths ▸ inside)]
    exact .some False.elim
  · rw [List.getElem?_eq_none (by omega), List.getElem?_eq_none (by omega)]
    exact .none

theorem Trace.Resampled.sample? {signals : Set String} {t t' : Trace} (same : t.Resampled signals t')
    (i : Int) : Option.Rel (Same False) (t.sample? i) (t'.sample? i) := by
  have lengths : t'.values.length = t.values.length := same.length
  cases i with
  | ofNat i => exact getElem?_rel lengths i
  | negSucc i => exact getElem?_rel (by simp [lengths]) i

namespace Circuit

/-- The same circuit, apart from samples of these signals. -/
structure Resampled (signals : Set String) (c c' : Circuit) : Prop where
  circuit : c' = c.withTraces c'.traces
  traces : List.Forall₂ (Trace.Resampled signals) c.traces c'.traces

namespace Resampled

variable {signals : Set String} {c c' : Circuit} (resampled : c.Resampled signals c')
include resampled

theorem definitions : c'.definitions = c.definitions := by
  rw [resampled.circuit]
  rfl

theorem inputTrace (x : String) :
    Option.Rel (Trace.Resampled signals) (c.inputTrace x) (c'.inputTrace x) :=
  find?_rel resampled.traces fun _ _ same => by rw [same.signal]

theorem traceLengths : c'.traceLengths = c.traceLengths := by
  have pairs : c.traces.map (fun t => (t.signal, t.length)) =
      c'.traces.map fun t => (t.signal, t.length) := by
    have related := resampled.traces
    generalize c.traces = ts at related ⊢
    generalize c'.traces = ts' at related ⊢
    induction related with
    | nil => rfl
    | cons same _ ih => rw [List.map_cons, List.map_cons, ih, same.signal, same.length]
  rw [Circuit.traceLengths, Circuit.traceLengths, pairs]

theorem runLength : c'.runLength = c.runLength := by
  have related := resampled.traces
  unfold Circuit.runLength
  rw [resampled.traceLengths]
  generalize c.traces = ts at related ⊢
  generalize c'.traces = ts' at related ⊢
  cases related with
  | nil => rfl
  | cons same _ => simp only [same.length]

theorem firstSample (x : String) : SameSample False (c.firstSample x) (c'.firstSample x) := by
  have related := resampled.inputTrace x
  unfold Circuit.firstSample
  generalize c.inputTrace x = first at related ⊢
  generalize c'.inputTrace x = second at related ⊢
  cases related with
  | none => exact .failure
  | @some t t' same =>
      have samples := getElem?_rel same.length 0
      simp only [Option.bind_some, List.head?_eq_getElem?]
      generalize t.values[0]? = sample at samples ⊢
      generalize t'.values[0]? = sample' at samples ⊢
      cases samples with
      | none => exact .failure
      | some same => exact .value same

theorem sampleAt (cycle : Int) (x : String) :
    SameSample False (c.sampleAt cycle x) (c'.sampleAt cycle x) := by
  have related := resampled.inputTrace x
  unfold Circuit.sampleAt
  generalize c.inputTrace x = first at related ⊢
  generalize c'.inputTrace x = second at related ⊢
  cases related with
  | none => exact .failure
  | @some t t' same =>
      simp only [same.length]
      split
      · exact .failure
      split
      · exact .failure
      have samples := same.sample? cycle
      generalize t.sample? cycle = sample at samples ⊢
      generalize t'.sample? cycle = sample' at samples ⊢
      cases samples with
      | none => exact .failure
      | some same => exact .value same

theorem stimulus_eq {x : String} (kept : x ∉ signals) (cycle : Nat) :
    c'.stimulus x cycle = c.stimulus x cycle := by
  have related := resampled.inputTrace x
  have signal : ∀ t, c.inputTrace x = some t → t.signal = x := by
    intro t found
    simpa using List.find?_some found
  unfold Circuit.stimulus
  generalize c.inputTrace x = first at related signal ⊢
  generalize c'.inputTrace x = second at related ⊢
  cases related with
  | none => rfl
  | @some t _ same => rw [same.kept (signal t rfl ▸ kept)]

end Resampled

end Circuit

namespace Setup

open Operation

variable {u v : Setup} {s t : Session} {signals : Set String}

theorem twins_of_resampled (circuits : u.circuit.Resampled signals v.circuit)
    (settings : v.settings = u.settings) : u.Twins False v where
  circuit := circuits.circuit
  checkStructure := by rw [settings]
  length := circuits.runLength
  firstSample := circuits.firstSample
  sampleAt := circuits.sampleAt

/-- Runs under other samples end alike, and tell the monitor alike, unless it answers otherwise. -/
theorem run_resampled (circuits : u.circuit.Resampled signals v.circuit)
    (settings : v.settings = u.settings) (fresh : s.Fresh u) (fresh' : t.Fresh v)
    (readable : u.Readable s) (readable' : v.Readable t)
    (answers : ∀ (k : Nat) (a b : Hook), (u.run.after s).hooks[k]? = some a →
      (v.run.after t).hooks[k]? = some b →
      u.settings.monitor.objection a = v.settings.monitor.objection b) :
    u.run.ending s = v.run.ending t ∧ ToldAlike False (u.run.after s) (v.run.after t) := by
  apply run_alike (twins_of_resampled circuits settings)
  · exact filling_of_fresh fresh fresh' circuits.definitions settings readable readable'
  · rintro ⟨k, a, b, atS, atT, differ⟩
    exact differ (answers k a b atS atT)

/-- How a run of a new simulator ends does not depend on samples: with others in any of its traces it
    completes as well, or fails with the same error, after the same cycles. In each of them the same
    signals are bound. Of the monitor, which sees values, it is assumed that it answers the calls of both
    runs alike; one that never objects does, and on a bench nothing else is assumed
    (`Bench.Reachable.simulate_resampled`). -/
theorem ending_independent_of_samples (u v : Setup)
    (circuits : u.circuit.Resampled Set.univ v.circuit) (settings : v.settings = u.settings)
    {s t : Session} (fresh : s.Fresh u) (fresh' : t.Fresh v) (readable : u.Readable s)
    (readable' : v.Readable t)
    (answers : ∀ (k : Nat) (a b : Hook), (u.run.after s).hooks[k]? = some a →
      (v.run.after t).hooks[k]? = some b →
      u.settings.monitor.objection a = v.settings.monitor.objection b) :
    v.run.ending t = u.run.ending s ∧
    (v.run.after t).cycles.length = (u.run.after s).cycles.length ∧
    List.Forall₂ (fun a b => a.1 = b.1 ∧ ∀ name, name ∈ a.2.names ↔ name ∈ b.2.names)
      (u.run.after s).cycles (v.run.after t).cycles := by
  obtain ⟨ending, told⟩ := run_resampled circuits settings fresh fresh' readable readable' answers
  have cycles := told.cycles_twins
  refine ⟨ending.symm, cycles.length_eq.symm, cycles.imp ?_⟩
  intro a b same
  exact ⟨same.1, same.2.mem_names⟩

private def conjunction : Definition :=
  ⟨"Both", ["a", "b"], .and (.signal "a") (.signal "b")⟩

/-- A gate before a latch that nothing drives. -/
private def gatedInput : Circuit where
  name := "gated"
  inputs := ["In", "Gate"]
  outputs := ["Out"]
  latches := ["L"]
  definitions := [conjunction]
  updates := [⟨"Out", .or (.apply "Both" [.signal "In", .signal "Gate"]) (.signal "L'")⟩]
  traces := [⟨"In", [true, true]⟩, ⟨"Gate", [true, false]⟩]

private def gateClosed : Circuit :=
  gatedInput.withTraces [⟨"In", [false, true]⟩, ⟨"Gate", [false, false]⟩]

theorem ending_independent_of_gate :
    gatedInput.Resampled Set.univ gateClosed ∧
      (standard gatedInput).run.ending (.start (Bindings.empty.put "Both" conjunction)) =
        .error (.eval (.unbound "L")) ∧
      (standard gateClosed).run.ending (.start (Bindings.empty.put "Both" conjunction)) =
        .error (.eval (.unbound "L")) ∧
      ((standard gateClosed).run.after (.start (Bindings.empty.put "Both" conjunction))).cycles.length =
        1 := by
  have resampled : gatedInput.Resampled Set.univ gateClosed :=
    ⟨rfl, .cons ⟨rfl, rfl, fun other => absurd (Set.mem_univ _) other⟩
      (.cons ⟨rfl, rfl, fun other => absurd (Set.mem_univ _) other⟩ .nil)⟩
  have fails : (standard gatedInput).run.ending (.start (Bindings.empty.put "Both" conjunction)) =
      .error (.eval (.unbound "L")) := rfl
  have once : ((standard gatedInput).run.after
      (.start (Bindings.empty.put "Both" conjunction))).cycles.length = 1 := by decide +kernel
  obtain ⟨ending, cycles, -⟩ := ending_independent_of_samples (standard gatedInput)
    (standard gateClosed) resampled rfl (s := .start (Bindings.empty.put "Both" conjunction))
    (t := .start (Bindings.empty.put "Both" conjunction)) ⟨rfl, rfl⟩ ⟨rfl, rfl⟩
    (fun _ watching => nomatch watching) (fun _ watching => nomatch watching) fun _ _ _ _ _ => rfl
  exact ⟨resampled, fails, ending.trans fails, cycles.trans once⟩

end Setup

end SyncCircuit
