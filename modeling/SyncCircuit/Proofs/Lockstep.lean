import SyncCircuit.Proofs.Passes

/-! # Phases in step

The phases of two circuits that differ at most in their samples are compared step by step. They succeed
together or fail with the same error (`InStep`), as long as both bind the same names; where values are
compared too, they stay the same.

The variables need not start alike. On one side nothing is bound; on the other there may be whatever a
pass over the updates can leave (`Circuit.Confined`). Such leftovers do not matter: an update that fails
on the first side has no leftover to read, because no pass ever got beyond it.
-/

namespace SyncCircuit

/-- Two computations end in the same way, and leave related states. -/
inductive InStep {ε σ τ : Type} (Q : σ → τ → Prop) (E : ε → σ → τ → Prop) :
    EStateM.Result ε σ Unit → EStateM.Result ε τ Unit → Prop where
  | ok {s t} (h : Q s t) : InStep Q E (.ok () s) (.ok () t)
  | error {e s t} (h : E e s t) : InStep Q E (.error e s) (.error e t)

namespace InStep

variable {ε σ τ : Type} {P Q : σ → τ → Prop} {E : ε → σ → τ → Prop} {s : σ} {t : τ}

theorem bind {x : EStateM ε σ Unit} {y : EStateM ε τ Unit} {f : Unit → EStateM ε σ Unit}
    {g : Unit → EStateM ε τ Unit} (first : InStep P E (x s) (y t))
    (rest : ∀ s' t', P s' t' → InStep Q E (f () s') (g () t')) :
    InStep Q E ((x >>= f) s) ((y >>= g) t) := by
  simp only [Bind.bind, EStateM.bind]
  generalize x s = left at first
  generalize y t = right at first
  cases first with
  | ok related => exact rest _ _ related
  | error related => exact .error related

theorem mono {E' : ε → σ → τ → Prop} {x : EStateM.Result ε σ Unit} {y : EStateM.Result ε τ Unit}
    (h : InStep P E x y) (success : ∀ s t, P s t → Q s t) (failure : ∀ e s t, E e s t → E' e s t) :
    InStep Q E' x y := by
  cases h with
  | ok related => exact .ok (success _ _ related)
  | error related => exact .error (failure _ _ _ related)

end InStep

/-- Two samples are both there, or missing for the same reason. -/
inductive SameSample (exact : Prop) : Except SimError Bool → Except SimError Bool → Prop where
  | value {a b} (same : Same exact a b) : SameSample exact (.ok a) (.ok b)
  | failure {e} : SameSample exact (.error e) (.error e)

namespace Phase

variable {exact : Prop} {f g : Bindings Bool}

theorem seed_inStep {R : Bindings Bool → Bindings Bool → Prop}
    (put : ∀ {f g}, R f g → ∀ name {a b}, Same exact a b → R (f.put name a) (g.put name b))
    {sample sample' : String → Except SimError Bool}
    (samples : ∀ x, SameSample exact (sample x) (sample' x)) (inputs : List String) (start : R f g) :
    InStep R (fun _ _ _ => True) (seed sample inputs f) (seed sample' inputs g) := by
  induction inputs generalizing f g with
  | nil => exact .ok start
  | cons x rest ih =>
      rw [seed_cons, seed_cons]
      have related := samples x
      generalize sample x = first at related
      generalize sample' x = second at related
      cases related with
      | failure => exact .error trivial
      | value same => exact ih (put start x same)

theorem resetLatches_inStep (latches : List String) (below : f.Below exact g) :
    InStep (Bindings.Below exact) (fun _ _ _ => True) (resetLatches latches f)
      (resetLatches latches g) := by
  induction latches generalizing f g with
  | nil => exact .ok below
  | cons latch rest ih => exact ih (below.put (latchOutput latch) fun _ => rfl)

theorem copyLatches_inStep (latches : List String) (twins : f.Twins exact g) :
    InStep (Bindings.Twins exact) (fun _ _ _ => True) (copyLatches latches f)
      (copyLatches latches g) := by
  induction latches generalizing f g with
  | nil => exact .ok twins
  | cons latch rest ih =>
      rw [copyLatches_cons, copyLatches_cons]
      have related := twins latch
      generalize f.get? latch = first at related
      generalize g.get? latch = second at related
      cases related with
      | none => exact .error trivial
      | some same => exact ih (twins.put (latchOutput latch) same)

/-- The second pass may start with more bound, but with nothing that the first pass does not bind before it
    stops. -/
theorem applyUpdates_inStep {definitions : Definitions} {limit : Int} {us : List Update}
    (below : f.Below exact g)
    (names : ∀ name ∈ g.names, name ∈ ((applyUpdates definitions limit us).after f).names) :
    InStep (Bindings.Twins exact) (fun _ _ _ => True) (applyUpdates definitions limit us f)
      (applyUpdates definitions limit us g) := by
  induction us generalizing f g with
  | nil => exact .ok (below.twins names)
  | cons u rest ih =>
      rw [after_applyUpdates_cons] at names
      rw [applyUpdates_cons, applyUpdates_cons]
      cases inF : u.value.eval limit { definitions, globals := f } with
      | ok a =>
          rw [inF] at names
          have follows := inF ▸ Expr.eval_below below u.value
          obtain ⟨b, inG, same⟩ := follows.of_ok
          rw [inG]
          apply ih (below.put u.target same)
          intro name bound
          rcases (g.mem_names_put _ _ _).mp bound with old | rfl
          · exact names name old
          · exact subset_names_after_applyUpdates _ ((f.mem_names_put _ _ _).mpr (.inr rfl))
      | error cause =>
          -- the first pass stops here, so the second side has no name in hand that the first lacks
          rw [inF] at names
          have follows := inF ▸ Expr.eval_twins (below.twins names) u.value
          generalize u.value.eval limit { definitions, globals := g } = second at follows
          cases follows with
          | failure => exact .error trivial
          | excuse spared => exact spared.elim

end Phase

namespace Circuit

variable {exact : Prop} {c : Circuit} {definitions : Definitions} {limit : Int} {f g : Bindings Bool}

/-- Some values for what a pass over the updates starts from. -/
def reference (c : Circuit) : Bindings Bool :=
  Bindings.ofList ((c.inputs ++ c.latchOutputs).map (·, false))

/-- Nothing is bound that a pass over the updates cannot bind from a new start. -/
def Confined (c : Circuit) (definitions : Definitions) (limit : Int) (vars : Bindings Bool) : Prop :=
  ∀ name ∈ vars.names,
    name ∈ ((Phase.applyUpdates definitions limit c.updates).after c.reference).names

theorem mem_names_reference (c : Circuit) (name : String) :
    name ∈ c.reference.names ↔ name ∈ c.inputs ∨ name ∈ c.latchOutputs := by
  rw [reference, Bindings.names_ofList, List.mem_eraseDups, List.map_map]
  simp

theorem Confined.put (confined : c.Confined definitions limit f) {name : String}
    (start : name ∈ c.inputs ∨ name ∈ c.latchOutputs) (value : Bool) :
    c.Confined definitions limit (f.put name value) := by
  intro asked bound
  rcases (f.mem_names_put _ _ _).mp bound with old | rfl
  · exact confined asked old
  · exact Phase.subset_names_after_applyUpdates _ ((c.mem_names_reference _).mpr start)

theorem Confined.put_latchOutput (confined : c.Confined definitions limit f) {latch : String}
    (mem : latch ∈ c.latches) (value : Bool) :
    c.Confined definitions limit (f.put (latchOutput latch) value) :=
  confined.put (.inr (List.mem_map_of_mem mem)) value

theorem keeps_confined_seed (sample : String → Except SimError Bool) :
    (Phase.seed sample c.inputs).Keeps (c.Confined definitions limit) :=
  Phase.keeps_seed fun _ _ mem value confined => confined.put (.inl mem) value

theorem keeps_confined_resetLatches :
    (Phase.resetLatches c.latches).Keeps (c.Confined definitions limit) :=
  Phase.keeps_resetLatches fun _ _ mem value confined => confined.put_latchOutput mem value

theorem keeps_confined_copyLatches :
    (Phase.copyLatches c.latches).Keeps (c.Confined definitions limit) :=
  Phase.keeps_copyLatches fun _ _ mem value confined => confined.put_latchOutput mem value

theorem keeps_confined_applyUpdates :
    (Phase.applyUpdates definitions limit c.updates).Keeps (c.Confined definitions limit) :=
  fun _ confined => Phase.names_after_applyUpdates confined

theorem Confined.names_after (confined : c.Confined definitions limit g)
    (start : ∀ name, name ∈ f.names ↔ name ∈ c.inputs ∨ name ∈ c.latchOutputs) :
    ∀ name ∈ g.names, name ∈ ((Phase.applyUpdates definitions limit c.updates).after f).names := by
  intro name bound
  apply Phase.names_after_applyUpdates _ name (confined name bound)
  intro other known
  rw [mem_names_reference, ← start] at known
  exact Phase.subset_names_after_applyUpdates other known

theorem checkStructure_withTraces (c : Circuit) (traces : List Trace) :
    (c.withTraces traces).checkStructure = c.checkStructure := by
  have targets : ∀ names seen, (c.withTraces traces).checkTargets seen names =
      c.checkTargets seen names := by
    intro names
    induction names with
    | nil => exact fun _ => rfl
    | cons target rest ih =>
        intro seen
        simp only [checkTargets, ih]
        rfl
  simp only [checkStructure, targets]
  rfl

theorem nextPhase_inStep {traces : List Trace} {cycle : Int}
    (samples : ∀ x, SameSample exact (c.sampleAt cycle x) ((c.withTraces traces).sampleAt cycle x))
    (twins : f.Twins exact g) :
    InStep (Bindings.Twins exact) (fun _ _ _ => True) (c.nextPhase definitions limit cycle f)
      ((c.withTraces traces).nextPhase definitions limit cycle g) := by
  apply (Phase.copyLatches_inStep c.latches twins).bind
  intro f' g' copied
  apply (Phase.seed_inStep Bindings.Twins.put samples c.inputs copied).bind
  intro f'' g'' seeded
  apply Phase.applyUpdates_inStep seeded.below
  intro name bound
  exact Phase.subset_names_after_applyUpdates name ((seeded.mem_names name).mpr bound)

end Circuit

end SyncCircuit
