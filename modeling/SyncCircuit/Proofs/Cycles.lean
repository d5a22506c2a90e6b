import SyncCircuit.Proofs.Phases

/-! # Cycles

The variables go through a cycle in three phases, first in another order than later. Here a cycle is one
computation on the variables, and `Circuit.Reached` relates a cycle number to the valuation that the
cycle ends with. For every name that no update writes, one equation says what a cycle makes of it, in
terms of the stimulus and of the valuation before.
-/

namespace SyncCircuit

open Bindings (Wrote)

theorem bind_ok {ε σ α β : Type} {x : EStateM ε σ α} {f : α → EStateM ε σ β} {s t : σ} {b : β}
    (h : (x >>= f) s = .ok b t) : ∃ a r, x s = .ok a r ∧ f a r = .ok b t := by
  simp only [bind, EStateM.bind] at h
  cases first : x s with
  | error e r => simp [first] at h
  | ok a r => exact ⟨a, r, rfl, by simpa [first] using h⟩

theorem bind_of_ok {ε σ α β : Type} {x : EStateM ε σ α} {f : α → EStateM ε σ β} {s r : σ} {a : α}
    (h : x s = .ok a r) : (x >>= f) s = f a r := by
  simp only [bind, EStateM.bind, h]

theorem bind_of_error {ε σ α β : Type} {x : EStateM ε σ α} {f : α → EStateM ε σ β} {s r : σ} {e : ε}
    (h : x s = .error e r) : (x >>= f) s = .error e r := by
  simp only [bind, EStateM.bind, h]

namespace Circuit

/-- The sample that an input has for a cycle, if its trace reaches so far. -/
def stimulus (c : Circuit) (signal : String) (cycle : Nat) : Option Bool :=
  (c.inputTrace signal).bind (·.values[cycle]?)

def driven (c : Circuit) : List String :=
  c.inputs ++ c.latchOutputs ++ c.targets

/-- The same circuit with another stimulus. -/
def withTraces (c : Circuit) (traces : List Trace) : Circuit :=
  { c with traces }

theorem firstSample_toOption (c : Circuit) (signal : String) :
    (c.firstSample signal).toOption = c.stimulus signal 0 := by
  simp only [firstSample, stimulus, List.head?_eq_getElem?]
  cases (c.inputTrace signal).bind (·.values[0]?) <;> rfl

theorem sampleAt_toOption (c : Circuit) (signal : String) (cycle : Nat) :
    (c.sampleAt cycle signal).toOption = c.stimulus signal cycle := by
  simp only [sampleAt, stimulus]
  cases c.inputTrace signal with
  | none => rfl
  | some t =>
      have notBelow : ¬ (cycle : Int) < Trace.leastIndex := by
        simp only [Trace.leastIndex]
        omega
      simp only [Option.bind_some, notBelow, if_false, Trace.sample?_ofNat]
      by_cases beyond : t.values.length ≤ cycle
      · simp [Trace.length, beyond, Except.toOption]
      · have inside : cycle < t.values.length := by omega
        simp [Trace.length, beyond, inside, Except.toOption]

/-- The first cycle: samples, zeros, updates. -/
def firstPhase (c : Circuit) (definitions : Definitions) (limit : Int) : Phase Unit := do
  Phase.seed c.firstSample c.inputs
  Phase.resetLatches c.latches
  Phase.applyUpdates definitions limit c.updates

/-- A later cycle: copies, samples, updates. -/
def nextPhase (c : Circuit) (definitions : Definitions) (limit : Int) (cycle : Int) : Phase Unit := do
  Phase.copyLatches c.latches
  Phase.seed (c.sampleAt cycle) c.inputs
  Phase.applyUpdates definitions limit c.updates

section Cycle

variable {c : Circuit} {definitions : Definitions} {limit : Int} {cycle : Nat} {f g : Bindings Bool}

theorem firstPhase_ok (h : c.firstPhase definitions limit f = .ok () g) :
    ∃ seeded reset, Phase.seed c.firstSample c.inputs f = .ok () seeded ∧
      Phase.resetLatches c.latches seeded = .ok () reset ∧
      Phase.applyUpdates definitions limit c.updates reset = .ok () g := by
  obtain ⟨_, seeded, first, h⟩ := bind_ok h
  obtain ⟨_, reset, second, third⟩ := bind_ok h
  exact ⟨seeded, reset, first, second, third⟩

theorem nextPhase_ok {cycle : Int} (h : c.nextPhase definitions limit cycle f = .ok () g) :
    ∃ copied seeded, Phase.copyLatches c.latches f = .ok () copied ∧
      Phase.seed (c.sampleAt cycle) c.inputs copied = .ok () seeded ∧
      Phase.applyUpdates definitions limit c.updates seeded = .ok () g := by
  obtain ⟨_, copied, first, h⟩ := bind_ok h
  obtain ⟨_, seeded, second, third⟩ := bind_ok h
  exact ⟨copied, seeded, first, second, third⟩

/-- A first cycle, away from the targets of updates. Zeros are written over samples. -/
theorem firstPhase_get? (h : c.firstPhase definitions limit f = .ok () g) {name : String}
    (untouched : name ∉ c.targets) :
    g.get? name =
      if name ∈ c.latchOutputs then some false
      else if name ∈ c.inputs then c.stimulus name 0 else f.get? name := by
  obtain ⟨seeded, reset, first, second, third⟩ := firstPhase_ok h
  rw [(Phase.applyUpdates_wrote third).get?_eq untouched, Phase.resetLatches_get? second,
    Phase.seed_get? first, firstSample_toOption]
  rfl

/-- A later cycle, away from the targets of updates. Samples are written over copies. -/
theorem nextPhase_get? (h : c.nextPhase definitions limit cycle f = .ok () g) {name : String}
    (untouched : name ∉ c.targets) :
    g.get? name =
      if name ∈ c.inputs then c.stimulus name cycle
      else f.get? (Phase.copySource c.latches name) := by
  obtain ⟨copied, seeded, first, second, third⟩ := nextPhase_ok h
  rw [(Phase.applyUpdates_wrote third).get?_eq untouched, Phase.seed_get? second,
    Phase.copyLatches_get? first, sampleAt_toOption]

theorem firstPhase_wrote (h : c.firstPhase definitions limit f = .ok () g) : Wrote c.driven f g := by
  obtain ⟨seeded, reset, first, second, third⟩ := firstPhase_ok h
  exact ((Phase.seed_wrote first).append (Phase.resetLatches_wrote second)).append
    (Phase.applyUpdates_wrote third)

theorem nextPhase_wrote {cycle : Int} (h : c.nextPhase definitions limit cycle f = .ok () g) :
    Wrote (c.latchOutputs ++ c.inputs ++ c.targets) f g := by
  obtain ⟨copied, seeded, first, second, third⟩ := nextPhase_ok h
  exact ((Phase.copyLatches_wrote first).append (Phase.seed_wrote second)).append
    (Phase.applyUpdates_wrote third)

theorem mem_written_iff_driven (c : Circuit) (name : String) :
    name ∈ c.latchOutputs ++ c.inputs ++ c.targets ↔ name ∈ c.driven := by
  simp only [driven, List.mem_append, or_comm (a := name ∈ c.inputs)]

theorem firstPhase_names (h : c.firstPhase definitions limit f = .ok () g) (name : String) :
    name ∈ g.names ↔ name ∈ f.names ∨ name ∈ c.driven :=
  (firstPhase_wrote h).mem_names name

theorem nextPhase_names {cycle : Int} (h : c.nextPhase definitions limit cycle f = .ok () g)
    (name : String) : name ∈ g.names ↔ name ∈ f.names ∨ name ∈ c.driven := by
  rw [(nextPhase_wrote h).mem_names, mem_written_iff_driven]

end Cycle

/-- Starting from some variables, a cycle ends with a valuation. -/
inductive Reached (c : Circuit) (definitions : Definitions) (limit : Int) (start : Bindings Bool) :
    Nat → Bindings Bool → Prop where
  | first {values} (h : c.firstPhase definitions limit start = .ok () values) :
      Reached c definitions limit start 0 values
  | next {cycle before values} (earlier : Reached c definitions limit start cycle before)
      (h : c.nextPhase definitions limit (cycle + 1 : Nat) before = .ok () values) :
      Reached c definitions limit start (cycle + 1) values

namespace Reached

variable {c : Circuit} {definitions : Definitions} {limit : Int} {start v w : Bindings Bool}
  {cycle : Nat}

theorem unique (left : c.Reached definitions limit start cycle v)
    (right : c.Reached definitions limit start cycle w) : v = w := by
  induction left generalizing w with
  | first h =>
      cases right with
      | first also =>
          cases h.symm.trans also
          rfl
  | next earlier h ih =>
      cases right with
      | next before also =>
          cases ih before
          cases h.symm.trans also
          rfl

theorem step (before : c.Reached definitions limit start cycle v)
    (after : c.Reached definitions limit start (cycle + 1) w) :
    c.nextPhase definitions limit (cycle + 1 : Nat) v = .ok () w := by
  cases after with
  | next earlier h =>
      cases before.unique earlier
      exact h

theorem mem_names (reached : c.Reached definitions limit start cycle v) (name : String) :
    name ∈ v.names ↔ name ∈ start.names ∨ name ∈ c.driven := by
  induction reached with
  | first h => exact firstPhase_names h name
  | next earlier h ih => rw [nextPhase_names h, ih, or_assoc, or_self]

end Reached

end Circuit

end SyncCircuit
