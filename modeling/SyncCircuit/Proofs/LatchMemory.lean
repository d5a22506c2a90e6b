import SyncCircuit.Proofs.NameClashes
import SyncCircuit.Proofs.Passes

/-! # Latches as the only memory

Variables are never cleared, so the values of one cycle are still there in the next. Nothing but a latch
reads them: the first cycle started with nothing bound and got through, so every update reads only what
the same cycle has written before. Hence two cycles end with the same values if the latches held the same
values before them and the inputs have the same samples in them.
-/

namespace SyncCircuit

open Bindings (AgreeOn)

theorem Phase.copySource_mem {latches : List String} {name : String}
    (output : name ∈ latches.map latchOutput) : copySource latches name ∈ latches := by
  induction latches with
  | nil => simp at output
  | cons latch rest ih =>
      rw [copySource]
      by_cases later : name ∈ rest.map latchOutput
      · split
        · exact List.mem_cons_self
        · exact List.mem_cons_of_mem _ (ih later)
      · have here : name = latchOutput latch := (List.mem_cons.mp output).resolve_right later
        rw [copySource_eq_self later, if_pos here]
        exact List.mem_cons_self

namespace Circuit

variable {c : Circuit} {definitions : Definitions} {limit limit' : Int} {traces : List Trace}
  {i j : Nat} {v v' w w' g h : Bindings Bool}

/-- Two passes that start with the same values of inputs and outputs of latches end with the same values,
    even if the one may nest applications deeper than the other. -/
theorem Reached.get?_eq_of_passes (left : c.Reached definitions limit .empty i v)
    (right : (c.withTraces traces).Reached definitions limit' .empty j w)
    (passV : Phase.applyUpdates definitions limit c.updates g = .ok () v)
    (passW : Phase.applyUpdates definitions limit' c.updates h = .ok () w)
    (agree : ∀ name, name ∈ c.inputs ∨ name ∈ c.latchOutputs →
      ∃ value, g.get? name = some value ∧ h.get? name = some value) (name : String) :
    v.get? name = w.get? name := by
  obtain ⟨f, f', reference, start⟩ := left.first_pass
  have seeds : AgreeOn f.names g h := fun name bound => agree name ((start name).mp bound)
  obtain ⟨_, _, alsoV, alsoW, same⟩ := Phase.applyUpdates_agree
    (Phase.applyUpdates_deeper (Int.le_max_left limit limit') reference) seeds
  cases alsoV.symm.trans (Phase.applyUpdates_deeper (Int.le_max_left limit limit') passV)
  cases alsoW.symm.trans (Phase.applyUpdates_deeper (Int.le_max_right limit limit') passW)
  by_cases driven : name ∈ c.driven
  · have bound : name ∈ f'.names := by
      rw [(Phase.applyUpdates_wrote reference).mem_names, start, ← List.mem_append, ← List.mem_append]
      exact driven
    obtain ⟨value, inV, inW⟩ := same name bound
    rw [inV, inW]
  · have unboundV : name ∉ v.names := fun bound =>
      driven (((left.mem_names name).mp bound).resolve_left (by simp))
    have unboundW : name ∉ w.names := fun bound =>
      driven (((right.mem_names name).mp bound).resolve_left (by simp))
    rw [(v.get?_eq_none_iff name).mpr unboundV, (w.get?_eq_none_iff name).mpr unboundW]

theorem nextPhase_seeds (next : c.nextPhase definitions limit (i : Nat) v = .ok () v') :
    ∃ seeded, Phase.applyUpdates definitions limit c.updates seeded = .ok () v' ∧
      ∀ name, seeded.get? name =
        if name ∈ c.inputs then c.stimulus name i else v.get? (Phase.copySource c.latches name) := by
  obtain ⟨copied, seeded, first, second, third⟩ := nextPhase_ok next
  refine ⟨seeded, third, fun name => ?_⟩
  rw [Phase.seed_get? second, Phase.copyLatches_get? first, sampleAt_toOption]

theorem Reached.get?_eq_of_latches (beforeV : c.Reached definitions limit .empty i v)
    (afterV : c.Reached definitions limit .empty (i + 1) v')
    (beforeW : (c.withTraces traces).Reached definitions limit' .empty j w)
    (afterW : (c.withTraces traces).Reached definitions limit' .empty (j + 1) w')
    (latches : ∀ latch ∈ c.latches, v.get? latch = w.get? latch)
    (samples : ∀ x ∈ c.inputs, c.stimulus x (i + 1) = (c.withTraces traces).stimulus x (j + 1))
    (name : String) : v'.get? name = w'.get? name := by
  obtain ⟨g, passV, seedsV⟩ := nextPhase_seeds (beforeV.step afterV)
  obtain ⟨h, passW, seedsW⟩ := nextPhase_seeds (beforeW.step afterW)
  apply afterV.get?_eq_of_passes afterW passV passW
  intro name written
  rw [seedsV, seedsW]
  by_cases input : name ∈ c.inputs
  · have input' : name ∈ (c.withTraces traces).inputs := input
    obtain ⟨sample, sampled⟩ := afterV.stimulus input
    refine ⟨sample, ?_, ?_⟩
    · rw [if_pos input, sampled]
    · rw [if_pos input', ← samples name input, sampled]
  · have input' : name ∉ (c.withTraces traces).inputs := input
    have source := Phase.copySource_mem (written.resolve_left input)
    obtain ⟨held, value⟩ := beforeV.latch_bound afterV source
    refine ⟨held, ?_, ?_⟩
    · rw [if_neg input, value]
    · rw [if_neg input']
      exact (latches _ source).symm.trans value

theorem Reached.samples_of_no_latches (none : c.latches = [])
    (reached : c.Reached definitions limit .empty i v) :
    ∃ seeded, Phase.applyUpdates definitions limit c.updates seeded = .ok () v ∧
      ∀ x ∈ c.inputs, seeded.get? x = c.stimulus x i := by
  cases reached with
  | first h =>
      obtain ⟨seeded, reset, first, second, third⟩ := firstPhase_ok h
      refine ⟨reset, third, fun x input => ?_⟩
      rw [Phase.resetLatches_get? second, Phase.seed_get? first, firstSample_toOption]
      simp [none, input]
  | next earlier h =>
      obtain ⟨seeded, pass, seeds⟩ := nextPhase_seeds h
      exact ⟨seeded, pass, fun x input => by rw [seeds, if_pos input]⟩

theorem Reached.get?_eq_of_no_latches (none : c.latches = [])
    (left : c.Reached definitions limit .empty i v)
    (right : (c.withTraces traces).Reached definitions limit' .empty j w)
    (samples : ∀ x ∈ c.inputs, c.stimulus x i = (c.withTraces traces).stimulus x j)
    (name : String) : v.get? name = w.get? name := by
  obtain ⟨g, passV, seedsV⟩ := left.samples_of_no_latches none
  have noneW : (c.withTraces traces).latches = [] := none
  obtain ⟨h, passW, seedsW⟩ := right.samples_of_no_latches noneW
  apply left.get?_eq_of_passes right passV passW
  intro name written
  have input : name ∈ c.inputs := written.resolve_right (by simp [latchOutputs, none])
  obtain ⟨sample, sampled⟩ := left.stimulus input
  refine ⟨sample, ?_, ?_⟩
  · rw [seedsV name input, sampled]
  · rw [seedsW name input, ← samples name input, sampled]

end Circuit

namespace Setup

/-- A run tells the monitor that a cycle ended with a valuation. -/
def Reports (u : Setup) (s : Session) (cycle : Nat) (values : Bindings Bool) : Prop :=
  ((cycle : Int), values) ∈ (u.run.after s).cycles

instance (u : Setup) (s : Session) (cycle : Nat) (values : Bindings Bool) :
    Decidable (u.Reports s cycle values) :=
  inferInstanceAs (Decidable (_ ∈ _))

theorem Reports.reached {u : Setup} {s : Session} {cycle : Nat} {values : Bindings Bool}
    (fresh : s.Fresh u) (reports : u.Reports s cycle values) :
    u.circuit.Reached s.simulator.definitions s.simulator.depthLimit .empty cycle values := by
  obtain ⟨all, told, reached⟩ := u.cycles_run s
  rw [Reports, told, fresh.cycles, List.nil_append, List.mem_mapIdx] at reports
  obtain ⟨k, inside, same⟩ := reports
  obtain ⟨number, rfl⟩ := Prod.mk.inj same
  cases Int.ofNat_inj.mp number
  rw [← fresh.vars]
  exact reached _ _ (List.getElem?_eq_getElem inside)

/-- Two cycles, of one run or of runs under different stimuli and settings, end with the same values if
    the latches held the same before and the inputs show the same samples. If there are no latches, equal
    samples are enough, in the first cycle too. -/
theorem latches_determine_cycle (u₁ u₂ : Setup) {traces : List Trace}
    (circuit : u₂.circuit = u₁.circuit.withTraces traces) {s₁ s₂ : Session}
    (fresh₁ : s₁.Fresh u₁) (fresh₂ : s₂.Fresh u₂) :
    (∀ i j v v' w w', u₁.Reports s₁ i v → u₁.Reports s₁ (i + 1) v' →
      u₂.Reports s₂ j w → u₂.Reports s₂ (j + 1) w' →
      (∀ latch ∈ u₁.circuit.latches, v.get? latch = w.get? latch) →
      (∀ x ∈ u₁.circuit.inputs, u₁.circuit.stimulus x (i + 1) = u₂.circuit.stimulus x (j + 1)) →
      ∀ name, v'.get? name = w'.get? name) ∧
    (u₁.circuit.latches = [] → ∀ i j v w, u₁.Reports s₁ i v → u₂.Reports s₂ j w →
      (∀ x ∈ u₁.circuit.inputs, u₁.circuit.stimulus x i = u₂.circuit.stimulus x j) →
      ∀ name, v.get? name = w.get? name) := by
  have definitions : s₂.simulator.definitions = s₁.simulator.definitions :=
    fresh₁.definitions_eq fresh₂ (by rw [circuit]; rfl)
  have reached₂ : ∀ {j w}, u₂.Reports s₂ j w → (u₁.circuit.withTraces traces).Reached
      s₁.simulator.definitions s₂.simulator.depthLimit .empty j w := by
    intro j w reports
    rw [← definitions, ← circuit]
    exact reports.reached fresh₂
  rw [circuit]
  constructor
  · intro i j v v' w w' atI nextI atJ nextJ latches samples
    exact (atI.reached fresh₁).get?_eq_of_latches (nextI.reached fresh₁) (reached₂ atJ)
      (reached₂ nextJ) latches samples
  · intro none i j v w atI atJ samples
    exact (atI.reached fresh₁).get?_eq_of_no_latches none (reached₂ atJ) samples

private def gatedLatches : Circuit where
  name := "gated"
  inputs := ["In", "Gate"]
  outputs := ["Out"]
  latches := ["A", "A'"]
  updates := [⟨"A", .signal "In"⟩, ⟨"Out", .and (.signal "A''") (.signal "Gate")⟩]
  traces := [⟨"In", [true, true]⟩, ⟨"Gate", [true, true]⟩]

private def gatedLater : Setup where
  circuit := gatedLatches.withTraces [⟨"In", [false, true, true]⟩, ⟨"Gate", [true, false, true]⟩]
  settings := { depthLimit := 0, checkStructure := false }

theorem latches_determine_cycle_gated :
    ∃ v v' w w' : Bindings Bool,
      (standard gatedLatches).Reports (.start .empty) 0 v ∧
      (standard gatedLatches).Reports (.start .empty) 1 v' ∧
      gatedLater.Reports (.start .empty 0) 1 w ∧ gatedLater.Reports (.start .empty 0) 2 w' ∧
      v.get? "Gate" ≠ w.get? "Gate" ∧ (∀ latch ∈ ["A", "A'"], v.get? latch = w.get? latch) ∧
      ∀ name, v'.get? name = w'.get? name := by
  let v := Bindings.ofList [("In", true), ("Gate", true), ("A'", false), ("A''", false), ("A", true),
    ("Out", false)]
  let w := v.put "Gate" false
  let next := Bindings.ofList [("In", true), ("Gate", true), ("A'", true), ("A''", true), ("A", true),
    ("Out", true)]
  have fresh : (Session.start .empty).Fresh (standard gatedLatches) := ⟨rfl, rfl⟩
  have fresh' : (Session.start .empty 0).Fresh gatedLater := ⟨rfl, rfl⟩
  have reports : (standard gatedLatches).Reports (.start .empty) 0 v ∧
      (standard gatedLatches).Reports (.start .empty) 1 next ∧
      gatedLater.Reports (.start .empty 0) 1 w ∧ gatedLater.Reports (.start .empty 0) 2 next := by
    decide +kernel
  obtain ⟨first, second, first', second'⟩ := reports
  have latches : ∀ latch ∈ ["A", "A'"], v.get? latch = w.get? latch := by decide +kernel
  refine ⟨v, next, w, next, first, second, first', second', by decide +kernel, latches, ?_⟩
  exact (latches_determine_cycle (standard gatedLatches) gatedLater rfl fresh fresh').1 0 1 v next w next
    first second first' second' latches (by decide +kernel)

end Setup

end SyncCircuit
