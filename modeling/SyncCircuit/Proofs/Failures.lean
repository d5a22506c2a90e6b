import SyncCircuit.Proofs.Passes

/-! # Failures of the phases

Each phase fails in its own way: samples at a trace, copies at a latch that is not bound, updates at an
expression. Zeros never fail. After a first cycle from an empty start, later cycles fail only at latches
that nothing drives and at traces that are too short (`Circuit.Reached.nextPhase_ok_of_driven`): their
updates get through (`Circuit.Reached.applyUpdates_seeded`).
-/

namespace SyncCircuit

/-- The circuit or its traces are refused before any cycle is computed. -/
def SimError.refuses : SimError → Bool
  | .malformed _ | .missingTrace _ | .noTraces | .unevenTraces _ => true
  | _ => false

theorem Circuit.runLength_refuses {c : Circuit} {e : SimError} (h : c.runLength = .error e) :
    e.refuses = true := by
  unfold runLength at h
  split at h
  · cases h
    rfl
  · split at h
    · cases h
    · cases h
      rfl

namespace Phase

variable {sample : String → Except SimError Bool} {inputs latches before after : List String}
  {latch : String} {f g : Bindings Bool} {e : SimError}

theorem seed_ok (samples : ∀ x ∈ inputs, ∃ value, sample x = .ok value) (f : Bindings Bool) :
    ∃ g, seed sample inputs f = .ok () g := by
  induction inputs generalizing f with
  | nil => exact ⟨f, rfl⟩
  | cons first rest ih =>
      obtain ⟨value, found⟩ := samples first List.mem_cons_self
      rw [seed_cons, found]
      exact ih (fun x mem => samples x (List.mem_cons_of_mem _ mem)) _

theorem seed_error (h : seed sample inputs f = .error e g) : ∃ x ∈ inputs, sample x = .error e := by
  induction inputs generalizing f with
  | nil => cases h
  | cons first rest ih =>
      rw [seed_cons] at h
      cases found : sample first with
      | error cause =>
          rw [found] at h
          cases h
          exact ⟨first, List.mem_cons_self, found⟩
      | ok value =>
          rw [found] at h
          obtain ⟨x, mem, failed⟩ := ih h
          exact ⟨x, List.mem_cons_of_mem _ mem, failed⟩

theorem resetLatches_ok (latches : List String) (f : Bindings Bool) :
    ∃ g, resetLatches latches f = .ok () g := by
  induction latches generalizing f with
  | nil => exact ⟨f, rfl⟩
  | cons latch rest ih => exact ih _

theorem copyLatches_ok (bound : ∀ latch ∈ latches, latch ∈ f.names) :
    ∃ g, copyLatches latches f = .ok () g := by
  induction latches generalizing f with
  | nil => exact ⟨f, rfl⟩
  | cons latch rest ih =>
      obtain ⟨value, found⟩ := (f.mem_names_iff latch).mp (bound latch List.mem_cons_self)
      rw [copyLatches_cons, found]
      apply ih
      intro other mem
      exact (f.mem_names_put _ _ _).mpr (.inl (bound other (List.mem_cons_of_mem _ mem)))

theorem copyLatches_error (h : copyLatches latches f = .error e g) :
    ∃ latch ∈ latches, latch ∉ f.names ∧ e = .eval (.unbound latch) := by
  induction latches generalizing f with
  | nil => cases h
  | cons latch rest ih =>
      rw [copyLatches_cons] at h
      cases found : f.get? latch with
      | none =>
          rw [found] at h
          cases h
          exact ⟨latch, List.mem_cons_self, (Bindings.get?_eq_none_iff _ latch).mp found, rfl⟩
      | some value =>
          rw [found] at h
          obtain ⟨other, mem, unbound, cause⟩ := ih h
          refine ⟨other, List.mem_cons_of_mem _ mem, fun bound => unbound ?_, cause⟩
          exact (f.mem_names_put _ _ _).mpr (.inl bound)

/-- Copies stop at the first latch that is not bound, if the outputs of the latches before it are. -/
theorem copyLatches_unbound (outputs : ∀ other ∈ before, latchOutput other ∈ f.names)
    (bound : ∀ other ∈ before, other ∈ f.names) (unbound : latch ∉ f.names) :
    ∃ g, copyLatches (before ++ latch :: after) f = .error (.eval (.unbound latch)) g := by
  induction before generalizing f with
  | nil =>
      rw [List.nil_append, copyLatches_cons, (f.get?_eq_none_iff latch).mpr unbound]
      exact ⟨f, rfl⟩
  | cons first rest ih =>
      obtain ⟨value, found⟩ := (f.mem_names_iff first).mp (bound first List.mem_cons_self)
      rw [List.cons_append, copyLatches_cons, found]
      -- the copy writes a name that is bound already
      have same : ∀ name, name ∈ (f.put (latchOutput first) value).names ↔ name ∈ f.names := by
        intro name
        rw [f.mem_names_put]
        constructor
        · rintro (old | rfl)
          · exact old
          · exact outputs first List.mem_cons_self
        · exact .inl
      apply ih
      · exact fun other mem => (same _).mpr (outputs other (List.mem_cons_of_mem _ mem))
      · exact fun other mem => (same _).mpr (bound other (List.mem_cons_of_mem _ mem))
      · exact fun now => unbound ((same _).mp now)

theorem applyUpdates_error {definitions : Definitions} {limit : Int} {us : List Update}
    (h : applyUpdates definitions limit us f = .error e g) : ∃ cause, e = .eval cause := by
  induction us generalizing f with
  | nil => cases h
  | cons u rest ih =>
      rw [applyUpdates_cons] at h
      cases found : u.value.eval limit { definitions, globals := f } with
      | error cause =>
          rw [found] at h
          cases h
          exact ⟨cause, rfl⟩
      | ok value =>
          rw [found] at h
          exact ih h

end Phase

namespace Circuit

variable {c : Circuit} {definitions : Definitions} {limit : Int} {f g v : Bindings Bool} {e : SimError}
  {cycle : Nat}

theorem firstSample_error {x : String} (h : c.firstSample x = .error e) : e = .missingTrace x := by
  unfold firstSample at h
  split at h
  · cases h
  · exact (Except.error.inj h).symm

theorem sampleAt_error {x : String} (h : c.sampleAt (cycle : Nat) x = .error e) :
    e = .traceExhausted x cycle ∧ c.stimulus x cycle = none := by
  refine ⟨?_, by rw [← sampleAt_toOption, h, Except.toOption]⟩
  unfold sampleAt at h
  split at h
  · exact (Except.error.inj h).symm
  · split at h
    · exact (Except.error.inj h).symm
    · rename_i t _ reaches
      split at h
      · rename_i below
        simp only [Trace.leastIndex] at below
        omega
      · rw [Trace.sample?_ofNat] at h
        have inside : cycle < t.values.length := by
          rw [Trace.length] at reaches
          omega
        simp [inside] at h

theorem sampleAt_ok {x : String} {value : Bool} (h : c.stimulus x cycle = some value) :
    c.sampleAt (cycle : Nat) x = .ok value := by
  have present := c.sampleAt_toOption x cycle
  rw [h] at present
  cases found : c.sampleAt (cycle : Nat) x with
  | error e => simp [found, Except.toOption] at present
  | ok other =>
      simp only [found, Except.toOption, Option.some.injEq] at present
      rw [present]

theorem firstPhase_error (h : c.firstPhase definitions limit f = .error e g) :
    (∃ x, e = .missingTrace x) ∨ ∃ cause, e = .eval cause := by
  unfold firstPhase at h
  cases first : Phase.seed c.firstSample c.inputs f with
  | error cause vars =>
      cases (bind_of_error first).symm.trans h
      obtain ⟨x, -, missing⟩ := Phase.seed_error first
      exact .inl ⟨x, firstSample_error missing⟩
  | ok _ seeded =>
      obtain ⟨reset, second⟩ := Phase.resetLatches_ok c.latches seeded
      rw [bind_of_ok first, bind_of_ok second] at h
      exact .inr (Phase.applyUpdates_error h)

theorem nextPhase_error {cycle : Int} (h : c.nextPhase definitions limit cycle f = .error e g) :
    (∃ latch ∈ c.latches, latch ∉ f.names ∧ e = .eval (.unbound latch)) ∨
      (∃ x ∈ c.inputs, c.sampleAt cycle x = .error e) ∨
      ∃ copied seeded, Phase.copyLatches c.latches f = .ok () copied ∧
        Phase.seed (c.sampleAt cycle) c.inputs copied = .ok () seeded ∧
        Phase.applyUpdates definitions limit c.updates seeded = .error e g := by
  unfold nextPhase at h
  cases first : Phase.copyLatches c.latches f with
  | error cause vars =>
      cases (bind_of_error first).symm.trans h
      exact .inl (Phase.copyLatches_error first)
  | ok _ copied =>
      rw [bind_of_ok first] at h
      cases second : Phase.seed (c.sampleAt cycle) c.inputs copied with
      | error cause vars =>
          cases (bind_of_error second).symm.trans h
          exact .inr (.inl (Phase.seed_error second))
      | ok _ seeded =>
          rw [bind_of_ok second] at h
          exact .inr (.inr ⟨copied, seeded, rfl, second, h⟩)

namespace Reached

variable {copied seeded : Bindings Bool} {i : Int}

theorem mem_driven (reached : c.Reached definitions limit .empty cycle v) {name : String} :
    name ∈ v.names ↔ name ∈ c.driven := by
  rw [reached.mem_names]
  simp

/-- Once latches are copied and inputs have their samples, every update can be evaluated. -/
theorem applyUpdates_seeded (reached : c.Reached definitions limit .empty cycle v)
    (first : Phase.copyLatches c.latches v = .ok () copied)
    (second : Phase.seed (c.sampleAt i) c.inputs copied = .ok () seeded) :
    ∃ w, Phase.applyUpdates definitions limit c.updates seeded = .ok () w := by
  obtain ⟨f, f', reference, start⟩ := reached.first_pass
  apply Phase.applyUpdates_bound reference
  intro name bound
  rw [(Phase.seed_wrote second).mem_names, (Phase.copyLatches_wrote first).mem_names]
  exact ((start name).mp bound).symm.imp_left .inr

theorem nextPhase_ok_of_driven (reached : c.Reached definitions limit .empty cycle v)
    (latches : ∀ latch ∈ c.latches, latch ∈ c.driven)
    (samples : ∀ x ∈ c.inputs, ∃ value, c.sampleAt i x = .ok value) :
    ∃ w, c.nextPhase definitions limit i v = .ok () w := by
  obtain ⟨copied, first⟩ := Phase.copyLatches_ok fun latch mem =>
    reached.mem_driven.mpr (latches latch mem)
  obtain ⟨seeded, second⟩ := Phase.seed_ok samples copied
  obtain ⟨w, third⟩ := reached.applyUpdates_seeded first second
  exact ⟨w, (bind_of_ok first).trans ((bind_of_ok second).trans third)⟩

end Reached

end Circuit

end SyncCircuit
