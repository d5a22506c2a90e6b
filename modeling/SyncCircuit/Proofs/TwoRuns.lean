import SyncCircuit.Proofs.Invariants
import SyncCircuit.Proofs.Lockstep

/-! # Two runs side by side

Two simulators of circuits that differ at most in their samples, one of them new and the other perhaps
used before, take the same steps and tell their monitors the same, until both are done or fail with the
same error. Only the monitors can part them, by different answers to calls of the same number
(`Setup.Parted`); what was told is never taken back, so such calls can be seen at the end.
-/

namespace SyncCircuit

/-- Calls of a monitor that tell it the same, apart from earlier results and the order of signals. -/
inductive Hook.Alike (exact : Prop) : Hook → Hook → Prop where
  | started {circuit r r'} : Alike exact (.started circuit r) (.started circuit r')
  | cycleEnded {cycle v w} (values : v.Twins exact w) :
      Alike exact (.cycleEnded cycle v) (.cycleEnded cycle w)
  | finished {circuit r r'} (results : exact → r = r') :
      Alike exact (.finished circuit r) (.finished circuit r')

/-- What a simulator would publish now. -/
def Simulator.results (sim : Simulator) : Results where
  length := sim.length
  outputs := sim.history.entries.map fun entry => ⟨entry.1, entry.2⟩

namespace Setup

open Operation

/-- Setups that differ at most in samples, monitors and what is dumped. -/
structure Twins (exact : Prop) (u v : Setup) : Prop where
  circuit : v.circuit = u.circuit.withTraces v.circuit.traces
  checkStructure : v.settings.checkStructure = u.settings.checkStructure
  length : v.circuit.runLength = u.circuit.runLength
  firstSample : ∀ x, SameSample exact (u.circuit.firstSample x) (v.circuit.firstSample x)
  sampleAt : ∀ cycle x, SameSample exact (u.circuit.sampleAt cycle x) (v.circuit.sampleAt cycle x)

section Twins

variable {exact : Prop} {u v : Setup} (twins : u.Twins exact v)
include twins

theorem Twins.inputs : v.circuit.inputs = u.circuit.inputs := by
  rw [twins.circuit]
  rfl

theorem Twins.latches : v.circuit.latches = u.circuit.latches := by
  rw [twins.circuit]
  rfl

theorem Twins.updates : v.circuit.updates = u.circuit.updates := by
  rw [twins.circuit]
  rfl

theorem Twins.outputs : v.circuit.outputs = u.circuit.outputs := by
  rw [twins.circuit]
  rfl

theorem Twins.name : v.circuit.name = u.circuit.name := by
  rw [twins.circuit]
  rfl

end Twins

def ToldAlike (exact : Prop) (s t : Session) : Prop :=
  List.Forall₂ (Hook.Alike exact) s.hooks t.hooks

theorem ToldAlike.cycles_twins {exact : Prop} {s t : Session} (told : ToldAlike exact s t) :
    List.Forall₂ (fun a b => a.1 = b.1 ∧ a.2.Twins exact b.2) s.cycles t.cycles := by
  rw [ToldAlike] at told
  unfold Session.cycles
  generalize s.hooks = hooks at told ⊢
  generalize t.hooks = hooks' at told ⊢
  induction told with
  | nil => exact .nil
  | cons alike _ ih =>
      cases alike with
      | started => exact ih
      | cycleEnded values => exact .cons ⟨rfl, values⟩ ih
      | finished results => exact ih

/-- Two runs have done the same so far. -/
structure Abreast (exact : Prop) (u v : Setup) (s t : Session) : Prop where
  told : ToldAlike exact s t
  definitions : t.simulator.definitions = s.simulator.definitions
  depthLimit : t.simulator.depthLimit = s.simulator.depthLimit
  vars : s.simulator.vars.Twins exact t.simulator.vars
  length : t.simulator.length = s.simulator.length
  outputs : t.simulator.history.names = s.simulator.history.names
  history : exact → t.simulator.history = s.simulator.history
  readable : u.Readable s
  readable' : v.Readable t

variable {exact : Prop} {u v : Setup} {s s' t t' : Session}

theorem Abreast.alike (abreast : u.Abreast exact v s t) (left : u.Alike s s') (right : v.Alike t t') :
    u.Abreast exact v s' t' where
  told := by
    rw [ToldAlike, left.hooks, right.hooks]
    exact abreast.told
  definitions := by rw [left.simulator, right.simulator, abreast.definitions]
  depthLimit := by rw [left.simulator, right.simulator, abreast.depthLimit]
  vars := by
    rw [left.simulator, right.simulator]
    exact abreast.vars
  length := by rw [left.simulator, right.simulator, abreast.length]
  outputs := by rw [left.simulator, right.simulator, abreast.outputs]
  history := by
    rw [left.simulator, right.simulator]
    exact abreast.history
  readable := left.readable abreast.readable
  readable' := right.readable abreast.readable'

section Steps

variable {E : SimError → Session → Session → Prop}

theorem inStep_of_ensures {x y : Operation Unit} {P P' : Session → Prop}
    (left : x.Ensures s (fun _ => P) (fun _ _ => False))
    (right : y.Ensures t (fun _ => P') (fun _ _ => False)) :
    InStep (fun s' t' => P s' ∧ P' t') E (x s) (y t) := by
  simp only [Ensures] at left right
  cases atS : x s with
  | error e s' => simp only [atS] at left
  | ok a s' =>
      cases atT : y t with
      | error e t' => simp only [atT] at right
      | ok b t' => exact .ok ⟨by simpa only [atS] using left, by simpa only [atT] using right⟩

theorem Abreast.inStep {x y : Operation Unit} (abreast : u.Abreast exact v s t)
    (left : x.Ensures s (fun _ => u.Alike s) (fun _ _ => False))
    (right : y.Ensures t (fun _ => v.Alike t) (fun _ _ => False)) :
    InStep (u.Abreast exact v) E (x s) (y t) :=
  (inStep_of_ensures left right).mono (fun _ _ both => abreast.alike both.1 both.2) fun _ _ _ h => h

theorem progress_inStep (abreast : u.Abreast exact v s t) (message message' : String) :
    InStep (u.Abreast exact v) E (progress message s) (progress message' t) :=
  abreast.inStep (ensures_progress message) (ensures_progress message')

theorem startDump_inStep (abreast : u.Abreast exact v s t) :
    InStep (u.Abreast exact v) E (u.startDump s) (v.startDump t) := by
  apply abreast.inStep
  · exact (u.ensures_startDump s).mono (fun _ _ alike => alike) fun _ _ h => h.2.1 abreast.readable
  · exact (v.ensures_startDump t).mono (fun _ _ alike => alike) fun _ _ h => h.2.1 abreast.readable'

theorem continueDump_inStep (abreast : u.Abreast exact v s t) (cycle : Int) :
    InStep (u.Abreast exact v) E (u.continueDump cycle s) (v.continueDump cycle t) := by
  apply abreast.inStep
  · exact (u.ensures_continueDump s cycle).mono (fun _ _ alike => alike)
      fun _ _ h => h.2.1 abreast.readable
  · exact (v.ensures_continueDump t cycle).mono (fun _ _ alike => alike)
      fun _ _ h => h.2.1 abreast.readable'

theorem onVariables_inStep {phase phase' : Phase Unit} {R : Bindings Bool → Bindings Bool → Prop}
    (told : ToldAlike exact s t)
    (step : InStep R (fun _ _ _ => True) (phase s.simulator.vars) (phase' t.simulator.vars)) :
    InStep (fun s' t' => ∃ f g, R f g ∧ phase s.simulator.vars = .ok () f ∧
        phase' t.simulator.vars = .ok () g ∧ s' = s.withVars f ∧ t' = t.withVars g)
      (fun _ => ToldAlike exact) (onVariables phase s) (onVariables phase' t) := by
  simp only [onVariables]
  generalize phase s.simulator.vars = left at step ⊢
  generalize phase' t.simulator.vars = right at step ⊢
  cases step with
  | ok related => exact .ok ⟨_, _, related, rfl, rfl, rfl, rfl⟩
  | error _ => exact .error told

end Steps

/-- The monitors have answered differently to calls of the same number. -/
def Parted (u v : Setup) (s t : Session) : Prop :=
  ∃ (k : Nat) (a b : Hook), s.hooks[k]? = some a ∧ t.hooks[k]? = some b ∧
    u.settings.monitor.objection a ≠ v.settings.monitor.objection b

theorem Parted.extend (parted : u.Parted v s t) (left : s.hooks <+: s'.hooks)
    (right : t.hooks <+: t'.hooks) : u.Parted v s' t' := by
  obtain ⟨k, a, b, atS, atT, differ⟩ := parted
  obtain ⟨insideS, rfl⟩ := List.getElem?_eq_some_iff.mp atS
  obtain ⟨insideT, rfl⟩ := List.getElem?_eq_some_iff.mp atT
  exact ⟨k, _, _, List.prefix_iff_getElem?.mp left k insideS,
    List.prefix_iff_getElem?.mp right k insideT, differ⟩

/-- Two operations stay in step, unless the monitors part them. -/
def Together (exact : Prop) (u v : Setup) (Q : Session → Session → Prop) (x y : Operation Unit)
    (s t : Session) : Prop :=
  InStep Q (fun _ => ToldAlike exact) (x s) (y t) ∨ u.Parted v (x.after s) (y.after t)

namespace Together

variable {P Q : Session → Session → Prop} {x y : Operation Unit} {f g : Unit → Operation Unit}

theorem mono (h : Together exact u v P x y s t) (success : ∀ s t, P s t → Q s t) :
    Together exact u v Q x y s t :=
  h.imp_left fun step => step.mono success fun _ _ _ told => told

theorem of_inStep (first : InStep P (fun _ => ToldAlike exact) (x s) (y t))
    (rest : ∀ s' t', P s' t' → Together exact u v Q (f ()) (g ()) s' t') :
    Together exact u v Q (x >>= f) (y >>= g) s t := by
  simp only [Together, after, Bind.bind, EStateM.bind]
  generalize x s = left at first ⊢
  generalize y t = right at first ⊢
  cases first with
  | ok related => exact rest _ _ related
  | error told => exact .inl (.error told)

theorem bind (first : Together exact u v P x y s t) (left : (f ()).Extends) (right : (g ()).Extends)
    (rest : ∀ s' t', P s' t' → Together exact u v Q (f ()) (g ()) s' t') :
    Together exact u v Q (x >>= f) (y >>= g) s t := by
  rcases first with step | parted
  · exact of_inStep step rest
  · -- one side may go on while the other has stopped, but the calls they differ in stay
    exact .inr (parted.extend (left.after_bind s) (right.after_bind t))

theorem get {f g : Session → Operation Unit} (rest : Together exact u v Q (f s) (g t) s t) :
    Together exact u v Q (get >>= f) (get >>= g) s t := rest

theorem modify {change change' : Session → Session}
    (rest : Together exact u v Q (f ()) (g ()) (change s) (change' t)) :
    Together exact u v Q (modify change >>= f) (modify change' >>= g) s t := rest

theorem outcome {α : Type} {result : Except SimError α} {f g : α → Operation Unit}
    (told : ToldAlike exact s t)
    (rest : ∀ value, result = .ok value → Together exact u v Q (f value) (g value) s t) :
    Together exact u v Q (outcome result >>= f) (outcome result >>= g) s t := by
  cases result with
  | error e => exact .inl (.error told)
  | ok value => exact rest value rfl

end Together

theorem after_announce (u : Setup) (occasion : Hook) (s : Session) :
    (u.announce occasion).after s = u.tell occasion s := by
  rw [after, announce_eq]
  cases u.settings.monitor.objection occasion <;> rfl

theorem announce_together {occasion occasion' : Hook} (told : ToldAlike exact s t)
    (alike : occasion.Alike exact occasion') :
    Together exact u v
      (fun s' t' => s' = u.tell occasion s ∧ t' = v.tell occasion' t ∧ ToldAlike exact s' t')
      (u.announce occasion) (v.announce occasion') s t := by
  have both : ToldAlike exact (u.tell occasion s) (v.tell occasion' t) := by
    rw [ToldAlike, hooks_tell, hooks_tell]
    exact List.rel_append told (.cons alike .nil)
  by_cases same : u.settings.monitor.objection occasion = v.settings.monitor.objection occasion'
  · left
    rw [announce_eq, announce_eq, same]
    cases v.settings.monitor.objection occasion' with
    | some reason => exact .error both
    | none => exact .ok ⟨rfl, rfl, both⟩
  · right
    have number : s.hooks.length = t.hooks.length := told.length_eq
    refine ⟨s.hooks.length, occasion, occasion', ?_, ?_, same⟩
    · rw [after_announce, hooks_tell, List.getElem?_concat_length]
    · rw [after_announce, hooks_tell, number, List.getElem?_concat_length]

theorem endCycle_eq (u : Setup) (cycle : Int) (s : Session) :
    u.endCycle cycle s =
      match s.simulator.history.names.find? fun signal => !s.simulator.vars.contains signal with
      | some signal =>
          .error (.eval (.unbound signal)) { s with simulator := s.simulator.recordedUntilUnbound }
      | none => u.announce (.cycleEnded cycle s.simulator.vars)
          { s with simulator := s.simulator.recorded } := by
  simp only [endCycle, Bind.bind, EStateM.bind, recordOutputs_eq]
  cases s.simulator.history.names.find? fun signal => !s.simulator.vars.contains signal <;> rfl

theorem endCycle_together (abreast : u.Abreast exact v s t) (cycle : Int) :
    Together exact u v (u.Abreast exact v) (u.endCycle cycle) (v.endCycle cycle) s t := by
  have bound : ∀ signal, t.simulator.vars.contains signal = s.simulator.vars.contains signal := by
    intro signal
    rw [Bool.eq_iff_iff, Bindings.contains_iff_mem_names, Bindings.contains_iff_mem_names]
    exact (abreast.vars.mem_names signal).symm
  simp only [Together, after, endCycle_eq, abreast.outputs, bound]
  cases s.simulator.history.names.find? fun signal => !s.simulator.vars.contains signal with
  | some signal => exact .inl (.error abreast.told)
  | none =>
      have alike : (Hook.cycleEnded cycle s.simulator.vars).Alike exact
          (.cycleEnded cycle t.simulator.vars) := .cycleEnded abreast.vars
      apply (announce_together (s := { s with simulator := s.simulator.recorded })
        (t := { t with simulator := t.simulator.recorded }) abreast.told alike).mono
      rintro s' t' ⟨rfl, rfl, told⟩
      refine ⟨told, abreast.definitions, abreast.depthLimit, abreast.vars, abreast.length, ?_, ?_, ?_, ?_⟩
      · exact (Bindings.names_mapWithName _ _).trans
          (abreast.outputs.trans (Bindings.names_mapWithName _ _).symm)
      · intro strict
        show t.simulator.recorded.history = s.simulator.recorded.history
        simp only [Simulator.recorded, abreast.history strict, abreast.vars.get?_eq strict]
      · exact abreast.readable.grow rfl fun _ mem => mem
      · exact abreast.readable'.grow rfl fun _ mem => mem

theorem nextCycle_eq (u : Setup) (cycle : Int) (s : Session) :
    u.nextCycle cycle s =
      (onVariables (u.circuit.nextPhase s.simulator.definitions s.simulator.depthLimit cycle) >>=
        fun _ => u.endCycle cycle) s := by
  simp only [nextCycle, copyLatches, applyUpdates, Circuit.nextPhase, onVariables, Bind.bind,
    EStateM.bind]
  cases Phase.copyLatches u.circuit.latches s.simulator.vars with
  | error e f => rfl
  | ok _ f =>
      simp only
      cases Phase.seed (u.circuit.sampleAt cycle) u.circuit.inputs f with
      | error e g => rfl
      | ok _ g => rfl

theorem nextCycle_together (twins : u.Twins exact v) (abreast : u.Abreast exact v s t) (cycle : Int) :
    Together exact u v (u.Abreast exact v) (u.nextCycle cycle) (v.nextCycle cycle) s t := by
  obtain ⟨traces, circuit⟩ : ∃ traces, v.circuit = u.circuit.withTraces traces := ⟨_, twins.circuit⟩
  have samples := twins.sampleAt cycle
  have phases : InStep (Bindings.Twins exact) (fun _ _ _ => True)
      (u.circuit.nextPhase s.simulator.definitions s.simulator.depthLimit cycle s.simulator.vars)
      ((u.circuit.withTraces traces).nextPhase s.simulator.definitions s.simulator.depthLimit cycle
        t.simulator.vars) := Circuit.nextPhase_inStep (circuit ▸ samples) abreast.vars
  simp only [Together, after, nextCycle_eq, circuit, abreast.definitions, abreast.depthLimit]
  apply Together.of_inStep (onVariables_inStep abreast.told phases)
  rintro s' t' ⟨f, g, same, computed, computed', rfl, rfl⟩
  apply endCycle_together
  refine ⟨abreast.told, abreast.definitions, abreast.depthLimit, same, abreast.length, abreast.outputs,
    abreast.history, ?_, ?_⟩
  · exact abreast.readable.grow rfl fun name mem =>
      (Circuit.nextPhase_names computed name).mpr (.inl mem)
  · exact abreast.readable'.grow rfl fun name mem =>
      (Circuit.nextPhase_names computed' name).mpr (.inl mem)

theorem checkStructure_inStep (twins : u.Twins exact v) (told : ToldAlike exact s t) :
    InStep (fun s' t' => s' = s ∧ t' = t) (fun _ => ToldAlike exact) (u.checkStructure s)
      (v.checkStructure t) := by
  have rules : v.circuit.checkStructure = u.circuit.checkStructure := by
    rw [twins.circuit, Circuit.checkStructure_withTraces]
  simp only [checkStructure, twins.checkStructure, rules]
  split
  · cases u.circuit.checkStructure with
    | error cause => exact .error told
    | ok _ => exact .ok ⟨rfl, rfl⟩
  · exact .ok ⟨rfl, rfl⟩

/-- Two runs in their first cycle: on one side just these names are bound, on the other also what a pass
    can leave. -/
structure Filling (exact : Prop) (u v : Setup) (names : List String) (s t : Session) : Prop where
  told : ToldAlike exact s t
  definitions : t.simulator.definitions = s.simulator.definitions
  depthLimit : t.simulator.depthLimit = s.simulator.depthLimit
  below : s.simulator.vars.Below exact t.simulator.vars
  bound : ∀ name, name ∈ s.simulator.vars.names ↔ name ∈ names
  confined : u.circuit.Confined s.simulator.definitions s.simulator.depthLimit t.simulator.vars
  readable : u.Readable s
  readable' : v.Readable t

theorem filling_of_fresh (fresh : s.Fresh u) (fresh' : t.Fresh v)
    (definitions : v.circuit.definitions = u.circuit.definitions) (settings : v.settings = u.settings)
    (readable : u.Readable s) (readable' : v.Readable t) : u.Filling exact v [] s t where
  told := by
    rw [ToldAlike, fresh.hooks, fresh'.hooks]
    exact .nil
  definitions := fresh.definitions_eq fresh' definitions
  depthLimit := fresh.depthLimit_eq fresh' settings
  below := by
    intro name a found
    simp [fresh.vars] at found
  bound := by simp [fresh.vars]
  confined := by
    intro name bound
    simp [fresh'.vars] at bound
  readable := readable
  readable' := readable'

section Filling

variable {names more : List String} {f g : Bindings Bool}

theorem Filling.write (filling : u.Filling exact v names s t)
    (wrote : Bindings.Wrote more s.simulator.vars f) (wrote' : Bindings.Wrote more t.simulator.vars g)
    (below : f.Below exact g)
    (confined : u.circuit.Confined s.simulator.definitions s.simulator.depthLimit g) :
    u.Filling exact v (names ++ more) (s.withVars f) (t.withVars g) where
  told := filling.told
  definitions := filling.definitions
  depthLimit := filling.depthLimit
  below := below
  bound := fun name => by
    rw [List.mem_append, ← filling.bound]
    exact wrote.mem_names name
  confined := confined
  readable := filling.readable.grow rfl fun name mem => (wrote.mem_names name).mpr (.inl mem)
  readable' := filling.readable'.grow rfl fun name mem => (wrote'.mem_names name).mpr (.inl mem)

theorem Filling.seed_inStep (twins : u.Twins exact v) (filling : u.Filling exact v names s t) :
    InStep (u.Filling exact v (names ++ u.circuit.inputs)) (fun _ => ToldAlike exact)
      (onVariables (Phase.seed u.circuit.firstSample u.circuit.inputs) s)
      (onVariables (Phase.seed v.circuit.firstSample v.circuit.inputs) t) := by
  rw [twins.inputs]
  have phases := Phase.seed_inStep Bindings.Below.put twins.firstSample u.circuit.inputs filling.below
  apply (onVariables_inStep filling.told phases).mono _ fun _ _ _ h => h
  rintro s' t' ⟨f, g, below, seedF, seedG, rfl, rfl⟩
  have confined := Circuit.keeps_confined_seed v.circuit.firstSample _ filling.confined
  rw [Phase.after_of_ok seedG] at confined
  exact filling.write (Phase.seed_wrote seedF) (Phase.seed_wrote seedG) below confined

theorem Filling.resetLatches_inStep (twins : u.Twins exact v) (filling : u.Filling exact v names s t) :
    InStep (fun s' t' => ∃ f g, s' = s.withVars f ∧ t' = t.withVars g ∧
        u.Filling exact v (names ++ u.circuit.latchOutputs) s' t') (fun _ => ToldAlike exact)
      (u.resetLatches s) (v.resetLatches t) := by
  rw [resetLatches, resetLatches, twins.latches]
  have phases := Phase.resetLatches_inStep u.circuit.latches filling.below
  apply (onVariables_inStep filling.told phases).mono _ fun _ _ _ h => h
  rintro s' t' ⟨f, g, below, resetF, resetG, rfl, rfl⟩
  have confined := Circuit.keeps_confined_resetLatches _ filling.confined
  rw [Phase.after_of_ok resetG] at confined
  have written := filling.write (Phase.resetLatches_wrote resetF) (Phase.resetLatches_wrote resetG)
    below confined
  exact ⟨f, g, rfl, rfl, written⟩

theorem applyUpdates_eq (u : Setup) (s : Session) :
    u.applyUpdates s = onVariables (Phase.applyUpdates s.simulator.definitions s.simulator.depthLimit
      u.circuit.updates) s := rfl

theorem Filling.applyUpdates_inStep (twins : u.Twins exact v)
    (filling : u.Filling exact v (u.circuit.inputs ++ u.circuit.latchOutputs) s t) :
    InStep (fun s' t' => ∃ f g, s' = s.withVars f ∧ t' = t.withVars g ∧ f.Twins exact g ∧
        u.Readable s' ∧ v.Readable t') (fun _ => ToldAlike exact)
      (u.applyUpdates s) (v.applyUpdates t) := by
  have start : ∀ name, name ∈ s.simulator.vars.names ↔
      name ∈ u.circuit.inputs ∨ name ∈ u.circuit.latchOutputs :=
    fun name => (filling.bound name).trans List.mem_append
  have phases := Phase.applyUpdates_inStep filling.below (filling.confined.names_after start)
  rw [applyUpdates_eq, applyUpdates_eq, twins.updates, filling.definitions, filling.depthLimit]
  apply (onVariables_inStep filling.told phases).mono _ fun _ _ _ h => h
  rintro s' t' ⟨f, g, same, passF, passG, rfl, rfl⟩
  refine ⟨f, g, rfl, rfl, same, ?_, ?_⟩
  · exact filling.readable.grow rfl fun name mem =>
      ((Phase.applyUpdates_wrote passF).mem_names name).mpr (.inl mem)
  · exact filling.readable'.grow rfl fun name mem =>
      ((Phase.applyUpdates_wrote passG).mem_names name).mpr (.inl mem)

end Filling

theorem firstCycle_together (twins : u.Twins exact v) (start : u.Filling exact v [] s t) :
    Together exact u v (u.Abreast exact v) u.firstCycle v.firstCycle s t := by
  apply Together.of_inStep (checkStructure_inStep twins start.told)
  rintro s t ⟨rfl, rfl⟩
  apply Together.of_inStep (start.seed_inStep twins)
  intro s t seeded
  rw [twins.length]
  apply Together.outcome seeded.told
  intro length settled
  apply Together.modify
  have counted : u.Filling exact v u.circuit.inputs
      { s with simulator := { s.simulator with length } }
      { t with simulator := { t.simulator with length } } :=
    ⟨seeded.told, seeded.definitions, seeded.depthLimit, seeded.below, seeded.bound, seeded.confined,
      seeded.readable, seeded.readable'⟩
  apply Together.of_inStep (counted.resetLatches_inStep twins)
  rintro _ _ ⟨f, g, rfl, rfl, reset⟩
  apply Together.of_inStep (reset.applyUpdates_inStep twins)
  rintro _ _ ⟨f, g, rfl, rfl, same, readable, readable'⟩
  apply Together.modify
  have abreast : u.Abreast exact v (u.ready s f length) (v.ready t g length) := by
    refine ⟨seeded.told, seeded.definitions, seeded.depthLimit, same, rfl, ?_, ?_, readable, readable'⟩
    · rw [names_history_ready, names_history_ready, twins.outputs]
    · intro _
      show Bindings.ofList (v.circuit.outputs.map (·, [])) = Bindings.ofList (u.circuit.outputs.map (·, []))
      rw [twins.outputs]
  apply (endCycle_together abreast 0).bind
  · exact fun earlier => (u.invariant_hooks earlier).progress _
  · exact fun earlier => (v.invariant_hooks earlier).progress _
  · intro s t abreast
    exact .inl (progress_inStep abreast _ _)

theorem laterCycles_together (twins : u.Twins exact v) (abreast : u.Abreast exact v s t)
    (cycles : List Nat) :
    Together exact u v (u.Abreast exact v) (u.laterCycles cycles) (v.laterCycles cycles) s t := by
  induction cycles generalizing s t with
  | nil => exact .inl (.ok abreast)
  | cons cycle rest ih =>
      apply Together.of_inStep (progress_inStep abreast _ _)
      intro s t abreast
      apply (nextCycle_together twins abreast cycle).bind
      · exact fun earlier => ((u.invariant_hooks earlier).continueDump cycle).bind
          ((u.invariant_hooks earlier).laterCycles rest)
      · exact fun earlier => ((v.invariant_hooks earlier).continueDump cycle).bind
          ((v.invariant_hooks earlier).laterCycles rest)
      · intro s t abreast
        apply Together.of_inStep (continueDump_inStep abreast cycle)
        intro s t abreast
        exact ih abreast

theorem conclude_together (twins : u.Twins exact v) (abreast : u.Abreast exact v s t) :
    Together exact u v (ToldAlike exact) u.conclude v.conclude s t := by
  have results : exact → s.simulator.results = t.simulator.results := by
    intro strict
    simp only [Simulator.results, abreast.length, abreast.history strict]
  apply Together.modify
  apply Together.get
  rw [twins.name]
  have alike : (Hook.finished u.circuit.name s.simulator.results).Alike exact
      (.finished u.circuit.name t.simulator.results) := .finished results
  exact (announce_together (s := { s with results := s.simulator.results })
    (t := { t with results := t.simulator.results }) abreast.told alike).mono fun _ _ ended => ended.2.2

theorem proceed_together (twins : u.Twins exact v) (abreast : u.Abreast exact v s t) :
    Together exact u v (ToldAlike exact) u.proceed v.proceed s t := by
  apply Together.of_inStep (startDump_inStep abreast)
  intro s t abreast
  apply Together.get
  rw [abreast.length]
  have concludes : ∀ w : Setup, w.conclude.Extends := fun w earlier => (w.invariant_hooks earlier).conclude
  apply (laterCycles_together twins abreast _).bind (concludes u) (concludes v)
  intro s t abreast
  exact conclude_together twins abreast

/-- Whatever the run of a new simulator comes to, that of a used one comes to the same, unless the
    monitors part them. -/
theorem run_together (twins : u.Twins exact v) (start : u.Filling exact v [] s t) :
    Together exact u v (ToldAlike exact) u.run v.run s t := by
  have opening : Together exact u v (u.Filling exact v [])
      (u.announce (.started u.circuit.name s.results))
      (v.announce (.started v.circuit.name t.results)) s t := by
    rw [twins.name]
    apply (announce_together start.told .started).mono
    rintro _ _ ⟨rfl, rfl, told⟩
    exact ⟨told, start.definitions, start.depthLimit, start.below, start.bound, start.confined,
      start.readable, start.readable'⟩
  have proceeds : ∀ w : Setup, w.proceed.Extends := fun w earlier => (w.invariant_hooks earlier).proceed
  have begins : ∀ w : Setup, (w.firstCycle >>= fun _ => w.proceed).Extends :=
    fun w earlier => (w.invariant_hooks earlier).firstCycle.bind (proceeds w earlier)
  apply Together.get
  apply opening.bind (f := fun _ => u.firstCycle >>= fun _ => u.proceed)
    (g := fun _ => v.firstCycle >>= fun _ => v.proceed) (begins u) (begins v)
  intro s t start
  apply (firstCycle_together twins start).bind (proceeds u) (proceeds v)
  intro s t abreast
  exact proceed_together twins abreast

theorem run_alike (twins : u.Twins exact v) (start : u.Filling exact v [] s t)
    (answers : ¬ u.Parted v (u.run.after s) (v.run.after t)) :
    u.run.ending s = v.run.ending t ∧ ToldAlike exact (u.run.after s) (v.run.after t) := by
  have step := (run_together twins start).resolve_right answers
  simp only [ending, after]
  generalize u.run s = left at step
  generalize v.run t = right at step
  cases step with
  | ok told => exact ⟨rfl, told⟩
  | error told => exact ⟨rfl, told⟩

end Setup

end SyncCircuit
