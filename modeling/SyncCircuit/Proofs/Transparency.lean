import SyncCircuit.Proofs.Benches

/-! # Transparency of observers

A monitor is told of a run and a dump follows it, and neither changes what the run does. Two runs of one
task take the same steps whoever watches them, as long as no monitor objects: a dump reads only what is
bound, and it writes only to itself.
-/

namespace SyncCircuit

namespace Setup

open Operation

/-- Sessions that differ at most in what observers have noted. -/
structure Unseen (s t : Session) : Prop where
  simulator : t.simulator = s.simulator
  results : t.results = s.results

/-- Two runs stand at the same point, and their dumps can read what they watch. -/
structure Level (u v : Setup) (s t : Session) : Prop extends Unseen s t where
  readable : u.Readable s
  readable' : v.Readable t

/-- The monitor never stops a run. -/
def Quiet (u : Setup) : Prop :=
  ∀ occasion, u.settings.monitor.objection occasion = none

variable {u v : Setup} {s s' t t' : Session}

theorem Level.alike (level : u.Level v s t) (left : u.Alike s s') (right : v.Alike t t') :
    u.Level v s' t' where
  simulator := by rw [left.simulator, right.simulator, level.simulator]
  results := by rw [left.results, right.results, level.results]
  readable := left.readable level.readable
  readable' := right.readable level.readable'

theorem Level.grow (level : u.Level v s t) (unseen : Unseen s' t') (dump : s'.dump = s.dump)
    (dump' : t'.dump = t.dump)
    (names : ∀ name ∈ s.simulator.vars.names, name ∈ s'.simulator.vars.names) :
    u.Level v s' t' where
  toUnseen := unseen
  readable := level.readable.grow dump names
  readable' := level.readable'.grow dump' (by rwa [level.simulator, unseen.simulator])

section Steps

/-- Two operations succeed together or fail with the same error, and remain level while they succeed. -/
def StayLevel (u v : Setup) (x y : Operation Unit) : Prop :=
  ∀ s t, u.Level v s t → InStep (u.Level v) (fun _ => Unseen) (x s) (y t)

variable {x y : Operation Unit} {f g : Unit → Operation Unit}

theorem StayLevel.bind (first : u.StayLevel v x y) (rest : u.StayLevel v (f ()) (g ())) :
    u.StayLevel v (x >>= f) (y >>= g) :=
  fun s t level => (first s t level).bind rest

theorem stayLevel_outcome {α : Type} {result : Except SimError α} {f g : α → Operation Unit}
    (rest : ∀ value, u.StayLevel v (f value) (g value)) :
    u.StayLevel v (outcome result >>= f) (outcome result >>= g) := by
  intro s t level
  cases result with
  | ok value => exact rest value s t level
  | error e => exact .error level.toUnseen

theorem stayLevel_of_alike
    (left : ∀ s, u.Readable s → x.Ensures s (fun _ => u.Alike s) fun _ _ => False)
    (right : ∀ t, v.Readable t → y.Ensures t (fun _ => v.Alike t) fun _ _ => False) :
    u.StayLevel v x y := by
  intro s t level
  apply (inStep_of_ensures (left s level.readable) (right t level.readable')).mono
  · exact fun _ _ both => level.alike both.1 both.2
  · exact fun _ _ _ h => h

theorem stayLevel_progress (message message' : String) :
    u.StayLevel v (progress message) (progress message') :=
  stayLevel_of_alike (fun _ _ => ensures_progress message) fun _ _ => ensures_progress message'

theorem stayLevel_startDump : u.StayLevel v u.startDump v.startDump := by
  have succeeds : ∀ (w : Setup) (s : Session), w.Readable s →
      w.startDump.Ensures s (fun _ => w.Alike s) fun _ _ => False := fun w s readable =>
    (w.ensures_startDump s).mono (fun _ _ alike => alike) fun _ _ failed => failed.2.1 readable
  exact stayLevel_of_alike (succeeds u) (succeeds v)

theorem stayLevel_continueDump (cycle : Int) :
    u.StayLevel v (u.continueDump cycle) (v.continueDump cycle) := by
  have succeeds : ∀ (w : Setup) (s : Session), w.Readable s →
      (w.continueDump cycle).Ensures s (fun _ => w.Alike s) fun _ _ => False := fun w s readable =>
    (w.ensures_continueDump s cycle).mono (fun _ _ alike => alike) fun _ _ failed => failed.2.1 readable
  exact stayLevel_of_alike (succeeds u) (succeeds v)

theorem stayLevel_announce (quiet : u.Quiet) (quiet' : v.Quiet) (occasion occasion' : Hook) :
    u.StayLevel v (u.announce occasion) (v.announce occasion') := by
  intro s t level
  rw [announce_eq, announce_eq, quiet, quiet']
  exact .ok (level.grow ⟨level.simulator, level.results⟩ rfl rfl fun _ mem => mem)

theorem stayLevel_onVariables {phase : Phase Unit}
    (keeps : ∀ names : List String, phase.Keeps fun f => ∀ name ∈ names, name ∈ f.names) :
    u.StayLevel v (onVariables phase) (onVariables phase) := by
  intro s t level
  simp only [onVariables, level.simulator]
  have names := keeps s.simulator.vars.names s.simulator.vars fun _ mem => mem
  cases found : phase s.simulator.vars with
  | ok _ vars =>
      rw [Phase.after_of_ok found] at names
      exact .ok (level.grow ⟨rfl, level.results⟩ rfl rfl names)
  | error e vars => exact .error ⟨rfl, level.results⟩

theorem stayLevel_modifySimulator {change : Simulator → Simulator}
    (vars : ∀ sim, (change sim).vars = sim.vars) :
    u.StayLevel v (modifySimulator change) (modifySimulator change) := by
  intro s t level
  refine .ok (level.grow ⟨congrArg change level.simulator, level.results⟩ rfl rfl fun name mem => ?_)
  show name ∈ (change s.simulator).vars.names
  rwa [vars]

end Steps

theorem stayLevel_conclude (quiet : u.Quiet) (quiet' : v.Quiet) :
    u.StayLevel v u.conclude v.conclude := by
  have published : u.StayLevel v publish publish := by
    intro s t level
    refine .ok (level.grow ⟨level.simulator, ?_⟩ rfl rfl fun _ mem => mem)
    simp only [level.simulator]
  exact published.bind fun s t level => stayLevel_announce quiet quiet' _ _ s t level

theorem stayLevel_endCycle (quiet : u.Quiet) (quiet' : v.Quiet) (cycle : Int) :
    u.StayLevel v (u.endCycle cycle) (v.endCycle cycle) := by
  intro s t level
  rw [endCycle_eq, endCycle_eq, level.simulator]
  cases s.simulator.history.names.find? fun signal => !s.simulator.vars.contains signal with
  | some signal => exact .error ⟨rfl, level.results⟩
  | none =>
      apply stayLevel_announce quiet quiet'
      exact level.grow ⟨rfl, level.results⟩ rfl rfl fun _ mem => mem

section Task

variable (same : u.SameTask v)
include same

theorem stayLevel_checkStructure : u.StayLevel v u.checkStructure v.checkStructure := by
  intro s t level
  simp only [checkStructure, same.circuit, same.checkStructure]
  split
  · cases u.circuit.checkStructure with
    | error cause => exact .error level.toUnseen
    | ok _ => exact .ok level
  · exact .ok level

theorem stayLevel_resetLatches : u.StayLevel v u.resetLatches v.resetLatches := by
  rw [resetLatches, resetLatches, same.circuit]
  exact stayLevel_onVariables fun names =>
    Phase.keeps_resetLatches fun f latch _ => put_bound names f (latchOutput latch)

theorem stayLevel_copyLatches : u.StayLevel v u.copyLatches v.copyLatches := by
  rw [copyLatches, copyLatches, same.circuit]
  exact stayLevel_onVariables fun names =>
    Phase.keeps_copyLatches fun f latch _ => put_bound names f (latchOutput latch)

theorem stayLevel_applyUpdates : u.StayLevel v u.applyUpdates v.applyUpdates := by
  intro s t level
  rw [applyUpdates_eq, applyUpdates_eq, same.circuit, level.simulator]
  apply stayLevel_onVariables _ s t level
  exact fun names => Phase.keeps_applyUpdates fun f v _ => put_bound names f v.target

variable (quiet : u.Quiet) (quiet' : v.Quiet)
include quiet quiet'

theorem stayLevel_firstCycle : u.StayLevel v u.firstCycle v.firstCycle := by
  refine (stayLevel_checkStructure same).bind ?_
  rw [same.circuit]
  refine (stayLevel_onVariables fun names =>
    Phase.keeps_seed fun f x _ => put_bound names f x).bind ?_
  refine stayLevel_outcome fun length => ?_
  refine StayLevel.bind (stayLevel_modifySimulator fun _ => rfl) ?_
  refine (stayLevel_resetLatches same).bind ?_
  refine (stayLevel_applyUpdates same).bind ?_
  refine StayLevel.bind (stayLevel_modifySimulator fun _ => rfl) ?_
  exact (stayLevel_endCycle quiet quiet' 0).bind (stayLevel_progress _ _)

theorem stayLevel_nextCycle (cycle : Int) : u.StayLevel v (u.nextCycle cycle) (v.nextCycle cycle) := by
  refine (stayLevel_copyLatches same).bind ?_
  rw [same.circuit]
  refine (stayLevel_onVariables fun names =>
    Phase.keeps_seed fun f x _ => put_bound names f x).bind ?_
  exact (stayLevel_applyUpdates same).bind (stayLevel_endCycle quiet quiet' cycle)

theorem stayLevel_laterCycles (cycles : List Nat) :
    u.StayLevel v (u.laterCycles cycles) (v.laterCycles cycles) := by
  induction cycles with
  | nil => exact fun s t level => .ok level
  | cons cycle rest ih =>
      refine (stayLevel_progress _ _).bind ?_
      refine (stayLevel_nextCycle same quiet quiet' cycle).bind ?_
      exact (stayLevel_continueDump cycle).bind ih

theorem stayLevel_proceed : u.StayLevel v u.proceed v.proceed := by
  refine stayLevel_startDump.bind fun s t level => ?_
  -- each run takes its number of cycles from its own simulator, and these are the same
  have later := stayLevel_laterCycles same quiet quiet' (List.range' 1 (s.simulator.length - 1))
  have rest := later.bind (f := fun _ => u.conclude) (g := fun _ => v.conclude)
    (stayLevel_conclude quiet quiet') s t level
  show InStep _ _ _ ((v.laterCycles (List.range' 1 (t.simulator.length - 1)) >>= fun _ => v.conclude) t)
  rw [level.simulator]
  exact rest

/-- Two runs of one task go through the same states and come to the same end, whatever their dumps and
    monitors do, unless a monitor objects. -/
theorem stayLevel_run : u.StayLevel v u.run v.run := by
  intro s t level
  have opened := stayLevel_announce quiet quiet' (.started u.circuit.name s.results)
    (.started v.circuit.name t.results)
  exact opened.bind (f := fun _ => u.firstCycle >>= fun _ => u.proceed)
    (g := fun _ => v.firstCycle >>= fun _ => v.proceed)
    ((stayLevel_firstCycle same quiet quiet').bind (stayLevel_proceed same quiet quiet')) s t level

end Task

theorem StayLevel.ends {x y : Operation Unit} (stay : u.StayLevel v x y) (level : u.Level v s t) :
    y.ending t = x.ending s ∧ Unseen (x.after s) (y.after t) := by
  have step := stay s t level
  simp only [ending, Operation.after]
  generalize x s = left at step
  generalize y t = right at step
  cases step with
  | ok level => exact ⟨rfl, level.toUnseen⟩
  | error unseen => exact ⟨rfl, unseen⟩

end Setup

namespace Bench

open Operation

variable {b b' : Bench} {rig rig' : Nat} {r r' : Rig} {design design' : Design} {shelf shelf' : List Dump}

theorem holds_settle (holds : b.Holds rig r design) (s : Session) :
    (b.settle rig r design s).Holds rig { r with simulator := s.simulator }
      { design with results := s.results } where
  rig := List.getElem?_set_self (List.getElem?_eq_some_iff.mp holds.rig).1
  design := List.getElem?_set_self (List.getElem?_eq_some_iff.mp holds.design).1

/-- Simulators in the same state, of circuits in the same state, of which both or neither are checked
    before they run. -/
structure SameState (r : Rig) (design : Design) (r' : Rig) (design' : Design) : Prop where
  simulator : r'.simulator = r.simulator
  circuit : design'.circuit = design.circuit
  results : design'.results = design.results
  checkStructure : r'.settings.checkStructure = r.settings.checkStructure

/-- A simulator runs as if nobody watched it: whichever monitors are told, as long as they do not object,
    and whichever dumps follow, the run ends alike and leaves the same variables and the same results.
    A signal that is registered with a dump by the end of the run stays bound for ever. -/
theorem run_unobserved (reachable : b.Reachable shelf) (reachable' : b'.Reachable shelf')
    (holds : b.Holds rig r design) (holds' : b'.Holds rig' r' design')
    (same : SameState r design r' design')
    (quiet : ∀ occasion, r.settings.monitor.objection occasion = none)
    (quiet' : ∀ occasion, r'.settings.monitor.objection occasion = none) :
    ∃ report report' final published,
      b.perform rig Setup.run = some report ∧ b'.perform rig' Setup.run = some report' ∧
      report'.outcome = report.outcome ∧
      report.bench.Holds rig { r with simulator := final } { design with results := published } ∧
      report'.bench.Holds rig' { r' with simulator := final } { design' with results := published } ∧
      ∀ d ∈ report.bench.dump.toList ++ shelf, ∀ later shelf'', report.bench.Leads shelf later shelf'' →
        later.Watches d := by
  have task : (b.setup rig r design).SameTask (b'.setup rig' r' design') :=
    ⟨same.circuit, same.checkStructure⟩
  have level : (b.setup rig r design).Level (b'.setup rig' r' design') (b.session r design)
      (b'.session r' design') :=
    ⟨⟨same.simulator, same.results⟩, reachable.readable holds, reachable'.readable holds'⟩
  obtain ⟨ending, unseen⟩ := (Setup.stayLevel_run task quiet quiet').ends level
  have ran := perform_eq holds Setup.run
  have ran' := perform_eq holds' Setup.run
  have after := holds_settle holds ((b.setup rig r design).run.after (b.session r design))
  have after' := holds_settle holds' ((b'.setup rig' r' design').run.after (b'.session r' design'))
  rw [unseen.simulator, unseen.results] at after'
  refine ⟨_, _, _, _, ran, ran', ending, after, after', ?_⟩
  intro d mem later shelf'' leads
  have settled : Reachable _ shelf := .step reachable (.act (.call .run) ran)
  exact (settled.watches d mem).outlast leads.outlasts

theorem run_unobserved_beside_dump :
    relayed.dump.map (·.channels.length) = some 4 ∧
    ∃ report report', relayed.perform 1 Setup.run = some report ∧
      { relayed with dump := none }.perform 1 Setup.run = some report' ∧
      report'.outcome = report.outcome := by
  have alone : ({ relayed with dump := none } : Bench).Reachable _ := .step reachable_relayed .noDump
  have holds : relayed.Holds 1 idleRelay _ := ⟨rfl, rfl⟩
  have holds' : ({ relayed with dump := none } : Bench).Holds 1 idleRelay _ := ⟨rfl, rfl⟩
  obtain ⟨report, report', -, -, ran, ran', outcome, -⟩ := run_unobserved reachable_relayed alone holds
    holds' ⟨rfl, rfl, rfl, rfl⟩ (fun _ => rfl) fun _ => rfl
  exact ⟨by decide +kernel, report, report', ran, ran', outcome⟩

end Bench

end SyncCircuit
