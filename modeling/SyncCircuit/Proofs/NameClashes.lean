import SyncCircuit.Proofs.Runs
import SyncCircuit.Proofs.WellFormed

/-! # Inputs, latches and the names they share

Samples, latches and updates write into one set of names. The structural rules keep updates away from
inputs and from the outputs of latches. They do not keep the output of a latch away from an input or
from another latch, so two writers can meet in one name:

- In the first cycle latches are reset after the samples are written, and later the samples are written
  after the latches are copied.
- A latch that is copied writes its output before the next latch is read.

The theorems say exactly what is seen at the end of each cycle, with and without such clashes.
-/

namespace SyncCircuit

namespace Circuit

variable {c : Circuit} {definitions : Definitions} {limit : Int} {start v w : Bindings Bool}
  {cycle : Nat}

theorem WellFormed.latches_nodup (wellFormed : c.WellFormed) : c.latches.Nodup :=
  (List.nodup_append.mp wellFormed.declared).2.1

namespace Reached

theorem stimulus (reached : c.Reached definitions limit start cycle v) {signal : String}
    (input : signal ∈ c.inputs) : ∃ value, c.stimulus signal cycle = some value := by
  cases reached with
  | first h =>
      obtain ⟨seeded, reset, first, -, -⟩ := firstPhase_ok h
      obtain ⟨value, sampled⟩ := Phase.seed_samples first signal input
      exact ⟨value, by rw [← firstSample_toOption, sampled, Except.toOption]⟩
  | next earlier h =>
      obtain ⟨copied, seeded, -, second, -⟩ := nextPhase_ok h
      obtain ⟨value, sampled⟩ := Phase.seed_samples second signal input
      exact ⟨value, by rw [← sampleAt_toOption, sampled, Except.toOption]⟩

theorem get?_input (wellFormed : c.WellFormed) (reached : c.Reached definitions limit start cycle v)
    {signal : String} (input : signal ∈ c.inputs) :
    v.get? signal =
      if cycle = 0 ∧ signal ∈ c.latchOutputs then some false else c.stimulus signal cycle := by
  have untouched : signal ∉ c.targets := fun target => wellFormed.target_not_input signal target input
  cases reached with
  | first h =>
      rw [firstPhase_get? h untouched]
      simp [input]
  | next earlier h =>
      rw [nextPhase_get? h untouched]
      simp [input]

theorem get?_latchOutput_first (wellFormed : c.WellFormed)
    (reached : c.Reached definitions limit start 0 v) {latch : String} (mem : latch ∈ c.latches) :
    v.get? (latchOutput latch) = some false := by
  have output : latchOutput latch ∈ c.latchOutputs := List.mem_map_of_mem mem
  cases reached with
  | first h =>
      rw [firstPhase_get? h fun target => wellFormed.target_not_latchOutput _ target output,
        if_pos output]

/-- The output of a latch shows a sample, if it is an input as well. Otherwise it shows what the input
    of the latch held when its turn to be copied came. -/
theorem get?_latchOutput_next (wellFormed : c.WellFormed)
    (earlier : c.Reached definitions limit start cycle v)
    (reached : c.Reached definitions limit start (cycle + 1) w) {before after : List String}
    {latch : String} (position : c.latches = before ++ latch :: after) :
    w.get? (latchOutput latch) =
      if latchOutput latch ∈ c.inputs then c.stimulus (latchOutput latch) (cycle + 1)
      else v.get? (Phase.copySource before latch) := by
  have mem : latch ∈ c.latches := by simp [position]
  have output : latchOutput latch ∈ c.latchOutputs := List.mem_map_of_mem mem
  have distinct := wellFormed.latches_nodup
  rw [position] at distinct
  rw [nextPhase_get? (earlier.step reached)
    fun target => wellFormed.target_not_latchOutput _ target output, position,
    Phase.copySource_latchOutput distinct]

theorem latch_bound (earlier : c.Reached definitions limit start cycle v)
    (reached : c.Reached definitions limit start (cycle + 1) w) {latch : String}
    (mem : latch ∈ c.latches) : ∃ value, v.get? latch = some value := by
  obtain ⟨copied, seeded, first, -, -⟩ := nextPhase_ok (earlier.step reached)
  apply (v.mem_names_iff latch).mp
  cases Phase.copyLatches_inputs first latch mem with
  | inl bound => exact bound
  | inr output =>
      apply (earlier.mem_names latch).mpr
      right
      simp only [driven, List.mem_append]
      exact .inl (.inr output)

end Reached

end Circuit

namespace Setup

/-- At the end of every cycle that a run reports, an input shows its sample, with one exception: in the
    first cycle, an input that is named like the output of a latch shows zero. -/
theorem input_shows_sample_iff (u : Setup) {s : Session} (fresh : s.Fresh u)
    (accepted : u.circuit.checkStructure = .ok ()) :
    ∃ values : List (Bindings Bool),
      (u.run.after s).cycles = values.mapIdx (fun cycle v => ((cycle : Int), v)) ∧
      ∀ i v, values[i]? = some v → ∀ x ∈ u.circuit.inputs, ∃ sample,
        u.circuit.stimulus x i = some sample ∧
        v.get? x = some (if i = 0 ∧ x ∈ u.circuit.latchOutputs then false else sample) ∧
        (v.get? x = some sample ↔ ¬ (i = 0 ∧ x ∈ u.circuit.latchOutputs ∧ sample = true)) := by
  have wellFormed := u.circuit.checkStructure_eq_ok_iff.mp accepted
  obtain ⟨values, told, reached⟩ := u.cycles_run s
  rw [fresh.cycles, List.nil_append] at told
  refine ⟨values, told, ?_⟩
  intro i v found x input
  have ended := reached i v found
  obtain ⟨sample, sampled⟩ := ended.stimulus input
  have shown := ended.get?_input wellFormed input
  refine ⟨sample, sampled, ?_⟩
  by_cases clash : i = 0 ∧ x ∈ u.circuit.latchOutputs
  · rw [if_pos clash] at shown
    cases sample <;> simp [shown, clash]
  · rw [if_neg clash, sampled] at shown
    rw [if_neg clash]
    refine ⟨shown, fun _ other => clash ⟨other.1, other.2.1⟩, fun _ => shown⟩

/-- A latch whose output is also an input. -/
private def sharedName : Circuit where
  name := "shared"
  inputs := ["L'", "In"]
  latches := ["L"]
  updates := [⟨"L", .signal "In"⟩]
  traces := [⟨"L'", [true, true]⟩, ⟨"In", [true, false]⟩]

theorem input_shows_sample_shared :
    (Session.start .empty).Fresh (standard sharedName) ∧ sharedName.checkStructure = .ok () ∧
      ∃ values : List (Bindings Bool),
        ((standard sharedName).run.after (.start .empty)).cycles =
          values.mapIdx (fun cycle v => ((cycle : Int), v)) ∧
        ∀ v, values[1]? = some v → v.get? "L'" = some true := by
  have fresh : (Session.start .empty).Fresh (standard sharedName) := ⟨rfl, rfl⟩
  have accepted : sharedName.checkStructure = .ok () := by decide +kernel
  obtain ⟨values, told, law⟩ :=
    input_shows_sample_iff (standard sharedName) fresh accepted
  refine ⟨fresh, accepted, values, told, ?_⟩
  intro v found
  obtain ⟨sample, sampled, shown, -⟩ := law 1 v found "L'" (by decide)
  have second : sharedName.stimulus "L'" 1 = some true := by decide +kernel
  rw [shown, if_neg (by simp), ← sampled]
  exact second

/-- In the first cycle the reset of the latch hides a sample. -/
theorem reset_hides_sample :
    (Session.start .empty).Fresh (standard sharedName) ∧ sharedName.checkStructure = .ok () ∧
      sharedName.stimulus "L'" 0 = some true ∧
      ((standard sharedName).run.after (.start .empty)).cycles.map
        (fun ended => (ended.1, ended.2.get? "L'")) = [(0, some false), (1, some true)] :=
  ⟨⟨rfl, rfl⟩, by decide +kernel, by decide +kernel, by decide +kernel⟩

/-- The output of a latch is zero in the first cycle, and in a later one it is what the latch was in the
    cycle before, with two exceptions. An output that is also an input shows the sample instead. A
    latch that is the output of a latch before it in the list is overwritten before it is copied, and
    then the copy starts from another signal. -/
theorem latchOutput_delays_iff (u : Setup) {s : Session} (fresh : s.Fresh u)
    (accepted : u.circuit.checkStructure = .ok ()) :
    ∃ values : List (Bindings Bool),
      (u.run.after s).cycles = values.mapIdx (fun cycle v => ((cycle : Int), v)) ∧
      ∀ before latch after, u.circuit.latches = before ++ latch :: after →
        (∀ v, values[0]? = some v → v.get? (latchOutput latch) = some false) ∧
        ∀ i v w, values[i]? = some v → values[i + 1]? = some w → ∃ held, v.get? latch = some held ∧
          (w.get? (latchOutput latch) = some held ↔
            (latchOutput latch ∈ u.circuit.inputs →
              u.circuit.stimulus (latchOutput latch) (i + 1) = some held) ∧
            (latchOutput latch ∉ u.circuit.inputs → latch ∈ before.map latchOutput →
              v.get? (Phase.copySource before latch) = some held)) := by
  have wellFormed := u.circuit.checkStructure_eq_ok_iff.mp accepted
  obtain ⟨values, told, reached⟩ := u.cycles_run s
  rw [fresh.cycles, List.nil_append] at told
  refine ⟨values, told, ?_⟩
  intro before latch after position
  have mem : latch ∈ u.circuit.latches := by simp [position]
  constructor
  · intro v found
    exact (reached 0 v found).get?_latchOutput_first wellFormed mem
  · intro i v w found next
    have earlier := reached i v found
    have later := reached (i + 1) w next
    obtain ⟨held, value⟩ := earlier.latch_bound later mem
    refine ⟨held, value, ?_⟩
    rw [earlier.get?_latchOutput_next wellFormed later position]
    by_cases input : latchOutput latch ∈ u.circuit.inputs
    · simp [input]
    by_cases overwritten : latch ∈ before.map latchOutput
    · simp [input, overwritten]
    · simp [input, overwritten, Phase.copySource_eq_self overwritten, value]

/-- Two latches, of which the second is named like the output of the first. -/
private def chainedLatches : Circuit where
  name := "chained"
  inputs := ["In"]
  outputs := ["Out"]
  latches := ["A", "A'"]
  updates := [⟨"A", .signal "In"⟩, ⟨"Out", .signal "A''"⟩]
  traces := [⟨"In", [true, false, false]⟩]

theorem latchOutput_delays_chained :
    (Session.start .empty).Fresh (standard chainedLatches) ∧ chainedLatches.checkStructure = .ok () ∧
      ∃ values : List (Bindings Bool),
        ((standard chainedLatches).run.after (.start .empty)).cycles =
          values.mapIdx (fun cycle v => ((cycle : Int), v)) ∧
        ∀ i v w, values[i]? = some v → values[i + 1]? = some w →
          ∃ held, v.get? "A" = some held ∧ w.get? "A'" = some held := by
  have fresh : (Session.start .empty).Fresh (standard chainedLatches) := ⟨rfl, rfl⟩
  have accepted : chainedLatches.checkStructure = .ok () := by decide +kernel
  obtain ⟨values, told, law⟩ :=
    latchOutput_delays_iff (standard chainedLatches) fresh accepted
  refine ⟨fresh, accepted, values, told, ?_⟩
  intro i v w found next
  obtain ⟨held, value, delayed⟩ := (law [] "A" ["A'"] rfl).2 i v w found next
  refine ⟨held, value, delayed.mpr ⟨fun input => ?_, fun _ overwritten => ?_⟩⟩
  · exact absurd input (by decide)
  · simp at overwritten

/-- The second latch passes on in one cycle what should take two. -/
theorem chained_latch_skips_cycle :
    (Session.start .empty).Fresh (standard chainedLatches) ∧ chainedLatches.checkStructure = .ok () ∧
      ((standard chainedLatches).run.after (.start .empty)).cycles.map
        (fun ended => (ended.1, ended.2.get? "A'", ended.2.get? "A''")) =
          [(0, some false, some false), (1, some true, some true), (2, some false, some false)] :=
  ⟨⟨rfl, rfl⟩, by decide +kernel, by decide +kernel⟩

end Setup

end SyncCircuit
