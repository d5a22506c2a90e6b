import SyncCircuit.Proofs.Cycles
import SyncCircuit.Simulation.Simulator

/-! # Outcomes of operations

An operation succeeds or fails, and either way it leaves a session behind. `Operation.Ensures` describes
both ends at once, so that one proof about a sequence covers every point at which it may stop. The
steps that a run is made of are described here, each with the reason for which it can fail: a step at the
head of a sequence leaves the rest to be described, from the session after the step.
-/

namespace SyncCircuit

theorem Simulator.ofCircuit_eq_ok {c : Circuit} {settings : Settings} {sim : Simulator}
    (h : ofCircuit c settings = .ok sim) :
    ∃ definitions, Definitions.defineAll .empty c.definitions = .ok definitions ∧
      sim = { definitions, depthLimit := settings.depthLimit } := by
  unfold ofCircuit at h
  cases defined : Definitions.defineAll .empty c.definitions with
  | error e => simp [defined] at h
  | ok definitions =>
      simp only [defined, Except.ok.injEq] at h
      exact ⟨definitions, rfl, h.symm⟩

def Hook.ended? : Hook → Option (Int × Bindings Bool)
  | .cycleEnded cycle values => some (cycle, values)
  | _ => none

namespace Session

/-- The calls of the monitor, oldest first. -/
def hooks (s : Session) : List Hook :=
  s.journal.filterMap fun
    | .hook occasion => some occasion
    | .log _ => none

/-- The cycles that the monitor was told of, with the values they ended with. -/
def cycles (s : Session) : List (Int × Bindings Bool) :=
  s.hooks.filterMap Hook.ended?

/-- The session of a simulator with some definitions, before anything has happened. -/
def start (definitions : Definitions) (depthLimit : Int := Expr.defaultDepth) : Session :=
  { simulator := { definitions, depthLimit }, results := {}, dump := none }

def withVars (s : Session) (vars : Bindings Bool) : Session :=
  { s with simulator := { s.simulator with vars } }

/-- A new simulator, made for the circuit with the settings, and nothing has happened yet. -/
structure Fresh (s : Session) (u : Setup) : Prop where
  simulator : Simulator.ofCircuit u.circuit u.settings = .ok s.simulator
  journal : s.journal = []

namespace Fresh

variable {s t : Session} {u v : Setup} (fresh : s.Fresh u)
include fresh

theorem made : ∃ definitions, Definitions.defineAll .empty u.circuit.definitions = .ok definitions ∧
    s.simulator = { definitions, depthLimit := u.settings.depthLimit } :=
  Simulator.ofCircuit_eq_ok fresh.simulator

theorem vars : s.simulator.vars = .empty := by
  obtain ⟨definitions, -, made⟩ := fresh.made
  rw [made]

theorem depthLimit : s.simulator.depthLimit = u.settings.depthLimit := by
  obtain ⟨definitions, -, made⟩ := fresh.made
  rw [made]

theorem hooks : s.hooks = [] := by
  simp [Session.hooks, fresh.journal]

theorem cycles : s.cycles = [] := by
  simp [Session.cycles, fresh.hooks]

theorem definitions_eq (fresh' : t.Fresh v) (same : v.circuit.definitions = u.circuit.definitions) :
    t.simulator.definitions = s.simulator.definitions := by
  obtain ⟨definitions, defined, made⟩ := fresh.made
  obtain ⟨definitions', defined', made'⟩ := fresh'.made
  rw [same, defined] at defined'
  cases defined'
  rw [made, made']

theorem depthLimit_eq (fresh' : t.Fresh v) (same : v.settings = u.settings) :
    t.simulator.depthLimit = s.simulator.depthLimit := by
  rw [fresh.depthLimit, fresh'.depthLimit, same]

end Fresh

end Session

/-- A simulator whose outputs of the present cycle have been recorded. -/
def Simulator.recorded (sim : Simulator) : Simulator :=
  { sim with
    history := sim.history.mapWithName fun signal samples =>
      samples ++ (sim.vars.get? signal).toList }

/-- A simulator that has recorded only some of its outputs of the present cycle. -/
def Simulator.partlyRecorded (sim : Simulator) (signals : List String) : Simulator :=
  { sim with
    history := sim.history.mapWithName fun signal samples =>
      if signal ∈ signals then samples ++ (sim.vars.get? signal).toList else samples }

/-- A simulator that has recorded its outputs up to the first that is not bound. -/
def Simulator.recordedUntilUnbound (sim : Simulator) : Simulator :=
  sim.partlyRecorded (sim.history.names.takeWhile sim.vars.contains)

theorem Simulator.partlyRecorded_nil (sim : Simulator) : sim.partlyRecorded [] = sim := by
  simp [partlyRecorded, Bindings.mapWithName]

theorem Simulator.partlyRecorded_record {sim : Simulator} {signal : String} {value : Bool}
    {rest : List String} (bound : sim.vars.get? signal = some value) (fresh : signal ∉ rest) :
    (sim.record signal value).partlyRecorded rest = sim.partlyRecorded (signal :: rest) := by
  simp only [partlyRecorded, record, Bindings.mapWithName, List.map_map]
  congr 2
  refine List.map_congr_left fun entry _ => ?_
  by_cases same : entry.1 = signal
  · simp [same, fresh, bound]
  · simp [same]

theorem Simulator.partlyRecorded_names (sim : Simulator) :
    sim.partlyRecorded sim.history.names = sim.recorded := by
  simp only [partlyRecorded, recorded, Bindings.mapWithName]
  congr 2
  refine List.map_congr_left fun entry mem => ?_
  have name : entry.1 ∈ sim.history.names := List.mem_map_of_mem mem
  rw [if_pos name]

namespace Operation

variable {α β : Type} {s : Session} {Q : β → Session → Prop} {E : SimError → Session → Prop}

/-- From a session an operation ends as described, in one way if it succeeds and in another if it
    fails. -/
def Ensures (op : Operation α) (s : Session) (Q : α → Session → Prop)
    (E : SimError → Session → Prop) : Prop :=
  match op s with
  | .ok value t => Q value t
  | .error e t => E e t

/-- The session that an operation leaves, whether it succeeds or fails. -/
def after (op : Operation α) (s : Session) : Session :=
  match op s with
  | .ok _ t => t
  | .error _ t => t

/-- How an operation ends, apart from the session that it leaves. -/
def ending (op : Operation α) (s : Session) : Except SimError α :=
  match op s with
  | .ok value _ => .ok value
  | .error e _ => .error e

def succeeds (op : Operation α) (s : Session) : Bool :=
  match op s with
  | .ok _ _ => true
  | .error _ _ => false

theorem succeeds_eq (op : Operation α) (s : Session) : op.succeeds s = (op.ending s).isOk := by
  unfold succeeds ending
  cases op s <;> rfl

theorem succeeds_eq_of_ending {x y : Operation α} {t : Session} (h : x.ending s = y.ending t) :
    x.succeeds s = y.succeeds t := by
  rw [succeeds_eq, succeeds_eq, h]

theorem eq_ok_of_succeeds {op : Operation Unit} (h : op.succeeds s = true) :
    op s = .ok () (op.after s) := by
  unfold succeeds at h
  unfold after
  cases found : op s with
  | ok value t => rfl
  | error e t => simp [found] at h

theorem eq_error_of_fails {op : Operation Unit} (h : op.succeeds s = false) :
    ∃ e, op s = .error e (op.after s) := by
  unfold succeeds at h
  unfold after
  cases found : op s with
  | ok value t => simp [found] at h
  | error e t => exact ⟨e, rfl⟩

namespace Ensures

theorem of_error {op : Operation β} (h : op.Ensures s Q E) {e : SimError} {t : Session}
    (failure : op s = .error e t) : E e t := by
  simpa only [Ensures, failure] using h

theorem of_ok {op : Operation β} (h : op.Ensures s Q E) {value : β} {t : Session}
    (success : op s = .ok value t) : Q value t := by
  simpa only [Ensures, success] using h

theorem bind {x : Operation α} {f : α → Operation β} {P : α → Session → Prop}
    (first : x.Ensures s P E) (rest : ∀ a t, P a t → (f a).Ensures t Q E) :
    (x >>= f).Ensures s Q E := by
  simp only [Ensures, Bind.bind, EStateM.bind] at first ⊢
  cases found : x s with
  | ok a t =>
      rw [found] at first
      exact rest a t first
  | error e t =>
      rw [found] at first
      exact first

theorem mono {op : Operation β} {Q' : β → Session → Prop} {E' : SimError → Session → Prop}
    (h : op.Ensures s Q E) (success : ∀ a t, Q a t → Q' a t) (failure : ∀ e t, E e t → E' e t) :
    op.Ensures s Q' E' := by
  simp only [Ensures] at h ⊢
  cases found : op s with
  | ok a t => exact success a t (by simpa only [found] using h)
  | error e t => exact failure e t (by simpa only [found] using h)

theorem and {op : Operation β} {Q' : β → Session → Prop} {E' : SimError → Session → Prop}
    (h : op.Ensures s Q E) (h' : op.Ensures s Q' E') :
    op.Ensures s (fun a t => Q a t ∧ Q' a t) (fun e t => E e t ∧ E' e t) := by
  simp only [Ensures] at h h' ⊢
  cases found : op s with
  | ok a t => exact ⟨by simpa only [found] using h, by simpa only [found] using h'⟩
  | error e t => exact ⟨by simpa only [found] using h, by simpa only [found] using h'⟩

theorem after {op : Operation β} {P : Session → Prop}
    (h : op.Ensures s (fun _ t => P t) (fun _ t => P t)) : P (op.after s) := by
  simp only [Ensures, Operation.after] at h ⊢
  cases found : op s with
  | ok a t => simpa only [found] using h
  | error e t => simpa only [found] using h

end Ensures

theorem ensures_pure {value : β} (h : Q value s) : (pure value : Operation β).Ensures s Q E := h

theorem ensures_get {f : Session → Operation β} (rest : (f s).Ensures s Q E) :
    (get >>= f).Ensures s Q E := rest

theorem ensures_get_bind {g : Session → Operation α} {f : α → Operation β}
    (rest : (g s >>= f).Ensures s Q E) : ((get >>= g) >>= f).Ensures s Q E := rest

theorem ensures_modify {change : Session → Session} {f : Unit → Operation β}
    (rest : (f ()).Ensures (change s) Q E) : (modify change >>= f).Ensures s Q E := rest

theorem ensures_onVariables {phase : Phase α} {f : α → Operation β}
    (failure : ∀ e vars, phase s.simulator.vars = .error e vars → E e (s.withVars vars))
    (rest : ∀ value vars, phase s.simulator.vars = .ok value vars →
      (f value).Ensures (s.withVars vars) Q E) : (onVariables phase >>= f).Ensures s Q E := by
  simp only [Ensures, onVariables, Bind.bind, EStateM.bind]
  cases found : phase s.simulator.vars with
  | ok value vars => exact rest value vars found
  | error e vars => exact failure e vars found

theorem ensures_outcome {result : Except SimError α} {f : α → Operation β}
    (failure : ∀ e, result = .error e → E e s)
    (rest : ∀ value, result = .ok value → (f value).Ensures s Q E) :
    (outcome result >>= f).Ensures s Q E := by
  cases result with
  | ok value => exact rest value rfl
  | error e => exact failure e rfl

theorem recordAll_cons (signal : String) (rest : List String) (s : Session) :
    recordAll (signal :: rest) s =
      match s.simulator.vars.get? signal with
      | some value => recordAll rest { s with simulator := s.simulator.record signal value }
      | none => .error (.eval (.unbound signal)) s := by
  cases found : s.simulator.vars.get? signal with
  | none => simp only [recordAll, readVariable, onVariables, Phase.read, found, Bind.bind, EStateM.bind]
  | some value =>
      simp only [recordAll, readVariable, onVariables, Phase.read, found, Bind.bind, EStateM.bind]
      rfl

/-- Recording stops at the first output that is not bound, and the outputs before it have been
    recorded. -/
theorem recordAll_eq {signals : List String} (distinct : signals.Nodup) (s : Session) :
    recordAll signals s =
      match signals.find? fun signal => !s.simulator.vars.contains signal with
      | some signal => .error (.eval (.unbound signal))
          { s with simulator := s.simulator.partlyRecorded (signals.takeWhile s.simulator.vars.contains) }
      | none => .ok () { s with simulator := s.simulator.partlyRecorded signals } := by
  induction signals generalizing s with
  | nil =>
      rw [Simulator.partlyRecorded_nil]
      rfl
  | cons signal rest ih =>
      obtain ⟨fresh, distinct⟩ := List.nodup_cons.mp distinct
      rw [recordAll_cons]
      cases bound : s.simulator.vars.get? signal with
      | none =>
          have absent : s.simulator.vars.contains signal = false := by simp [Bindings.contains, bound]
          simp only [List.find?_cons, List.takeWhile_cons, absent, Bool.not_false,
            Bool.false_eq_true, if_false, Simulator.partlyRecorded_nil]
      | some value =>
          have present : s.simulator.vars.contains signal = true := by simp [Bindings.contains, bound]
          have before : signal ∉ rest.takeWhile s.simulator.vars.contains :=
            fun mem => fresh (List.takeWhile_subset _ mem)
          simp only [ih distinct, List.find?_cons, List.takeWhile_cons, present, Bool.not_true, if_true]
          rw [← Simulator.partlyRecorded_record bound fresh,
            ← Simulator.partlyRecorded_record bound before]
          rfl

theorem recordOutputs_eq (s : Session) :
    recordOutputs s =
      match s.simulator.history.names.find? fun signal => !s.simulator.vars.contains signal with
      | some signal =>
          .error (.eval (.unbound signal)) { s with simulator := s.simulator.recordedUntilUnbound }
      | none => .ok () { s with simulator := s.simulator.recorded } := by
  rw [← Simulator.partlyRecorded_names]
  exact recordAll_eq s.simulator.history.names_nodup s

theorem ensures_recordOutputs {f : Unit → Operation β}
    (failure : ∀ signal ∈ s.simulator.history.names, signal ∉ s.simulator.vars.names →
      ∀ history, E (.eval (.unbound signal)) { s with simulator := { s.simulator with history } })
    (rest : (∀ signal ∈ s.simulator.history.names, signal ∈ s.simulator.vars.names) →
      (f ()).Ensures { s with simulator := s.simulator.recorded } Q E) :
    (recordOutputs >>= f).Ensures s Q E := by
  simp only [Ensures, Bind.bind, EStateM.bind, recordOutputs_eq]
  cases missing : s.simulator.history.names.find? fun signal => !s.simulator.vars.contains signal with
  | some signal =>
      have unbound := List.find?_some missing
      apply failure signal (List.mem_of_find?_eq_some missing)
      rw [← Bindings.contains_iff_mem_names]
      simpa using unbound
  | none =>
      apply rest
      intro signal mem
      have found := List.find?_eq_none.mp missing signal mem
      exact (Bindings.contains_iff_mem_names _ _).mp (by simpa using found)

end Operation

namespace Setup

open Operation

def standard (c : Circuit) : Setup :=
  { circuit := c, settings := {} }

theorem ensures_checkStructure {u : Setup} {s : Session} {β : Type} {f : Unit → Operation β}
    {Q : β → Session → Prop} {E : SimError → Session → Prop}
    (failure : ∀ cause, u.settings.checkStructure = true → u.circuit.checkStructure = .error cause →
      E (.malformed cause) s)
    (rest : (u.settings.checkStructure = true → u.circuit.checkStructure = .ok ()) →
      (f ()).Ensures s Q E) : (u.checkStructure >>= f).Ensures s Q E := by
  unfold checkStructure
  split
  · rename_i asked
    cases checked : u.circuit.checkStructure with
    | error cause => exact failure cause asked checked
    | ok _ => exact rest fun _ => checked
  · rename_i unasked
    exact rest fun asked => absurd asked unasked

theorem ensures_applyUpdates {u : Setup} {s : Session} {β : Type} {f : Unit → Operation β}
    {Q : β → Session → Prop} {E : SimError → Session → Prop}
    (failure : ∀ e vars, Phase.applyUpdates s.simulator.definitions s.simulator.depthLimit
      u.circuit.updates s.simulator.vars = .error e vars → E e (s.withVars vars))
    (rest : ∀ vars, Phase.applyUpdates s.simulator.definitions s.simulator.depthLimit
      u.circuit.updates s.simulator.vars = .ok () vars → (f ()).Ensures (s.withVars vars) Q E) :
    (u.applyUpdates >>= f).Ensures s Q E := by
  apply ensures_get_bind
  apply ensures_onVariables failure
  intro _ vars applied
  exact rest vars applied

/-- The session in which the monitor has been called. -/
def tell (u : Setup) (occasion : Hook) (s : Session) : Session :=
  { s with journal := s.journal ++ .hook occasion :: (u.settings.monitor.logs occasion).map .log }

theorem hooks_tell (u : Setup) (occasion : Hook) (s : Session) :
    (u.tell occasion s).hooks = s.hooks ++ [occasion] := by
  simp [tell, Session.hooks]

theorem announce_eq (u : Setup) (occasion : Hook) (s : Session) :
    u.announce occasion s =
      match u.settings.monitor.objection occasion with
      | some reason => .error (.aborted reason) (u.tell occasion s)
      | none => .ok () (u.tell occasion s) := by
  cases objection : u.settings.monitor.objection occasion <;>
    simp only [announce, objection] <;> rfl

/-- The monitor is called once and may object; the simulation is not touched. -/
theorem ensures_announce (u : Setup) (occasion : Hook) (s : Session) {Q : Unit → Session → Prop}
    {E : SimError → Session → Prop}
    (called : ∀ t : Session, t.simulator = s.simulator → t.results = s.results → t.dump = s.dump →
      t.hooks = s.hooks ++ [occasion] →
      Q () t ∧ ∀ reason, u.settings.monitor.objection occasion = some reason → E (.aborted reason) t) :
    (u.announce occasion).Ensures s Q E := by
  obtain ⟨heeded, objected⟩ := called (u.tell occasion s) rfl rfl rfl (u.hooks_tell occasion s)
  rw [Ensures, announce_eq]
  cases objection : u.settings.monitor.objection occasion with
  | none => exact heeded
  | some reason => exact objected reason objection

end Setup

end SyncCircuit
