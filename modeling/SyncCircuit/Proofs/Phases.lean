import SyncCircuit.Proofs.Strictness
import SyncCircuit.Proofs.Writes
import SyncCircuit.Simulation.Phase

/-! # What the phases of a cycle write

Each phase is a pass over a list of names or updates. Its first step is given by one equation, and what
the whole pass makes of the variables follows by induction over the list. The updates are compared
with an earlier pass that succeeded: from it one knows that every expression reads only names that
were bound at its turn.
-/

namespace SyncCircuit

open Bindings (Wrote)

namespace Phase

theorem seed_cons (sample : String → Except SimError Bool) (signal : String) (rest : List String)
    (f : Bindings Bool) :
    seed sample (signal :: rest) f =
      match sample signal with
      | .ok value => seed sample rest (f.put signal value)
      | .error e => .error e f := by
  cases found : sample signal with
  | error e =>
      simp only [seed, outcome, found]
      rfl
  | ok value =>
      simp only [seed, outcome, found]
      rfl

theorem resetLatches_cons (latch : String) (rest : List String) (f : Bindings Bool) :
    resetLatches (latch :: rest) f = resetLatches rest (f.put (latchOutput latch) false) := rfl

theorem copyLatches_cons (latch : String) (rest : List String) (f : Bindings Bool) :
    copyLatches (latch :: rest) f =
      match f.get? latch with
      | some value => copyLatches rest (f.put (latchOutput latch) value)
      | none => .error (.eval (.unbound latch)) f := by
  cases found : f.get? latch <;>
    simp only [copyLatches, read, found, bind, EStateM.bind, assign]

theorem applyUpdates_cons (definitions : Definitions) (limit : Int) (u : Update) (rest : List Update)
    (f : Bindings Bool) :
    applyUpdates definitions limit (u :: rest) f =
      match u.value.eval limit { definitions, globals := f } with
      | .ok value => applyUpdates definitions limit rest (f.put u.target value)
      | .error cause => .error (.eval cause) f := by
  cases found : u.value.eval limit { definitions, globals := f } <;>
    simp only [applyUpdates, eval, found, bind, EStateM.bind, assign]

theorem seed_cons_ok {sample : String → Except SimError Bool} {signal : String} {rest : List String}
    {f g : Bindings Bool} (h : seed sample (signal :: rest) f = .ok () g) :
    ∃ value, sample signal = .ok value ∧ seed sample rest (f.put signal value) = .ok () g := by
  rw [seed_cons] at h
  cases found : sample signal with
  | error e => simp [found] at h
  | ok value => exact ⟨value, rfl, by simpa [found] using h⟩

theorem copyLatches_cons_ok {latch : String} {rest : List String} {f g : Bindings Bool}
    (h : copyLatches (latch :: rest) f = .ok () g) :
    ∃ value, f.get? latch = some value ∧
      copyLatches rest (f.put (latchOutput latch) value) = .ok () g := by
  rw [copyLatches_cons] at h
  cases found : f.get? latch with
  | none => simp [found] at h
  | some value => exact ⟨value, rfl, by simpa [found] using h⟩

theorem applyUpdates_cons_ok {definitions : Definitions} {limit : Int} {u : Update}
    {rest : List Update} {f g : Bindings Bool}
    (h : applyUpdates definitions limit (u :: rest) f = .ok () g) :
    ∃ value, u.value.eval limit { definitions, globals := f } = .ok value ∧
      applyUpdates definitions limit rest (f.put u.target value) = .ok () g := by
  rw [applyUpdates_cons] at h
  cases found : u.value.eval limit { definitions, globals := f } with
  | error cause => simp [found] at h
  | ok value => exact ⟨value, rfl, by simpa [found] using h⟩

theorem seed_samples {sample : String → Except SimError Bool} {inputs : List String}
    {f g : Bindings Bool} (h : seed sample inputs f = .ok () g) :
    ∀ signal ∈ inputs, ∃ value, sample signal = .ok value := by
  induction inputs generalizing f with
  | nil => simp
  | cons first rest ih =>
      obtain ⟨value, found, h⟩ := seed_cons_ok h
      intro signal mem
      rcases List.mem_cons.mp mem with rfl | later
      · exact ⟨value, found⟩
      · exact ih h signal later

theorem seed_get? {sample : String → Except SimError Bool} {inputs : List String}
    {f g : Bindings Bool} (h : seed sample inputs f = .ok () g) (name : String) :
    g.get? name = if name ∈ inputs then (sample name).toOption else f.get? name := by
  induction inputs generalizing f with
  | nil =>
      cases h
      simp
  | cons first rest ih =>
      obtain ⟨value, found, h⟩ := seed_cons_ok h
      rw [ih h, Bindings.get?_put]
      by_cases here : name = first
      · simp [here, found, Except.toOption]
      · simp [here]

theorem resetLatches_get? {latches : List String} {f g : Bindings Bool}
    (h : resetLatches latches f = .ok () g) (name : String) :
    g.get? name = if name ∈ latches.map latchOutput then some false else f.get? name := by
  induction latches generalizing f with
  | nil =>
      cases h
      simp
  | cons latch rest ih =>
      rw [resetLatches_cons] at h
      rw [ih h, Bindings.get?_put]
      by_cases here : name = latchOutput latch
      · simp [here]
      · simp [here]

/-- The signal whose value before the latches are copied is the value of a signal afterwards. A latch
    that is copied first may write the input of a latch that is copied later. -/
def copySource : List String → String → String
  | [], signal => signal
  | latch :: rest, signal =>
      if copySource rest signal = latchOutput latch then latch else copySource rest signal

theorem copySource_append (first second : List String) (signal : String) :
    copySource (first ++ second) signal = copySource first (copySource second signal) := by
  induction first with
  | nil => rfl
  | cons latch rest ih => simp only [List.cons_append, copySource, ih]

theorem copySource_eq_self {latches : List String} {signal : String}
    (absent : signal ∉ latches.map latchOutput) : copySource latches signal = signal := by
  induction latches with
  | nil => rfl
  | cons latch rest ih =>
      rw [List.map_cons, List.mem_cons, not_or] at absent
      rw [copySource, ih absent.2, if_neg absent.1]

theorem copySource_latchOutput {before after : List String} {latch : String}
    (distinct : (before ++ latch :: after).Nodup) :
    copySource (before ++ latch :: after) (latchOutput latch) = copySource before latch := by
  have last : latchOutput latch ∉ after.map latchOutput := by
    intro mem
    obtain ⟨other, inside, same⟩ := List.mem_map.mp mem
    have absent := (List.nodup_cons.mp (List.nodup_append.mp distinct).2.1).1
    exact absent (latchOutput_injective same ▸ inside)
  rw [copySource_append, copySource, copySource_eq_self last, if_pos rfl]

/-- Copying moves values along `copySource`, whatever the names of the latches are. -/
theorem copyLatches_get? {latches : List String} {f g : Bindings Bool}
    (h : copyLatches latches f = .ok () g) (name : String) :
    g.get? name = f.get? (copySource latches name) := by
  induction latches generalizing f with
  | nil =>
      cases h
      rfl
  | cons latch rest ih =>
      obtain ⟨value, found, h⟩ := copyLatches_cons_ok h
      rw [ih h, Bindings.get?_put, copySource]
      split
      · exact found.symm
      · rfl

theorem copyLatches_inputs {latches : List String} {f g : Bindings Bool}
    (h : copyLatches latches f = .ok () g) :
    ∀ latch ∈ latches, latch ∈ f.names ∨ latch ∈ latches.map latchOutput := by
  induction latches generalizing f with
  | nil => simp
  | cons first rest ih =>
      obtain ⟨value, found, h⟩ := copyLatches_cons_ok h
      intro latch mem
      rcases List.mem_cons.mp mem with rfl | later
      · exact .inl ((f.mem_names_iff latch).mpr ⟨value, found⟩)
      · rw [List.map_cons, List.mem_cons, ← or_assoc, ← Bindings.mem_names_put]
        exact ih h latch later

theorem seed_wrote {sample : String → Except SimError Bool} {inputs : List String}
    {f g : Bindings Bool} (h : seed sample inputs f = .ok () g) : Wrote inputs f g := by
  induction inputs generalizing f with
  | nil =>
      cases h
      exact .nil
  | cons first rest ih =>
      obtain ⟨value, -, h⟩ := seed_cons_ok h
      exact .cons value (ih h)

theorem resetLatches_wrote {latches : List String} {f g : Bindings Bool}
    (h : resetLatches latches f = .ok () g) : Wrote (latches.map latchOutput) f g := by
  induction latches generalizing f with
  | nil =>
      cases h
      exact .nil
  | cons latch rest ih => exact .cons false (ih h)

theorem copyLatches_wrote {latches : List String} {f g : Bindings Bool}
    (h : copyLatches latches f = .ok () g) : Wrote (latches.map latchOutput) f g := by
  induction latches generalizing f with
  | nil =>
      cases h
      exact .nil
  | cons latch rest ih =>
      obtain ⟨value, -, h⟩ := copyLatches_cons_ok h
      exact .cons value (ih h)

theorem applyUpdates_wrote {definitions : Definitions} {limit : Int} {us : List Update}
    {f g : Bindings Bool} (h : applyUpdates definitions limit us f = .ok () g) :
    Wrote (us.map (·.target)) f g := by
  induction us generalizing f with
  | nil =>
      cases h
      exact .nil
  | cons u rest ih =>
      obtain ⟨value, -, h⟩ := applyUpdates_cons_ok h
      exact .cons value (ih h)

end Phase

end SyncCircuit
