import SyncCircuit.Proofs.TwoRuns

/-! # Used simulators

Between runs a simulator forgets nothing: its variables keep the values that earlier calls gave them,
however these ended. A run is none the wiser. No call binds a name that a pass over the updates could not
bind from a new start (`Setup.Used.tidy`), so a run of a used simulator goes along with that of a new
one, step by step.
-/

namespace SyncCircuit

/-- A call of a simulator. -/
inductive Call where
  | run
  | firstCycle
  | nextCycle (cycle : Int)
  | resetLatches
  | copyLatches

def Call.operation (u : Setup) : Call → Operation Unit
  | .run => u.run
  | .firstCycle => u.firstCycle
  | .nextCycle cycle => u.nextCycle cycle
  | .resetLatches => u.resetLatches
  | .copyLatches => u.copyLatches

namespace Circuit

variable {c : Circuit} {definitions : Definitions} {limit : Int}

theorem keeps_confined_firstPhase :
    (c.firstPhase definitions limit).Keeps (c.Confined definitions limit) :=
  (keeps_confined_seed _).bind fun _ =>
    keeps_confined_resetLatches.bind fun _ => keeps_confined_applyUpdates

theorem keeps_confined_nextPhase (cycle : Int) :
    (c.nextPhase definitions limit cycle).Keeps (c.Confined definitions limit) :=
  keeps_confined_copyLatches.bind fun _ =>
    (keeps_confined_seed _).bind fun _ => keeps_confined_applyUpdates

end Circuit

namespace Setup

open Operation

/-- Setups of the same circuit that both or neither ask for the structural check. The monitors may differ,
    and the limit on nested applications is that of the simulator, whatever the settings say by now. -/
structure SameTask (u v : Setup) : Prop where
  circuit : v.circuit = u.circuit
  checkStructure : v.settings.checkStructure = u.settings.checkStructure

/-- A new simulator, or one that has been called any number of times. The calls may have ended in any
    way, and between them everything may have changed outside the simulator. -/
inductive Used (u : Setup) : Simulator → Prop where
  | new {sim} (h : Simulator.ofCircuit u.circuit u.settings = .ok sim) : Used u sim
  | call {v s} (same : u.SameTask v) (call : Call) (earlier : Used u s.simulator) :
      Used u ((call.operation v).after s).simulator

theorem Used.of_same {u v : Setup} {sim : Simulator} (used : u.Used sim)
    (circuit : v.circuit = u.circuit) (settings : v.settings = u.settings) : v.Used sim := by
  induction used with
  | new h =>
      rw [← circuit, ← settings] at h
      exact .new h
  | call same call _ ih =>
      refine .call ⟨same.circuit.trans circuit.symm, ?_⟩ call ih
      rw [same.checkStructure, settings]

/-- A simulator is as it was made, and nothing is bound that a pass cannot bind. -/
structure Tidy (u : Setup) (made sim : Simulator) : Prop where
  definitions : sim.definitions = made.definitions
  depthLimit : sim.depthLimit = made.depthLimit
  confined : u.circuit.Confined made.definitions made.depthLimit sim.vars

section Tidy

variable {u : Setup} {made sim : Simulator}

theorem Tidy.after {phase : Phase Unit} (tidy : u.Tidy made sim)
    (keeps : phase.Keeps (u.circuit.Confined made.definitions made.depthLimit)) :
    u.Tidy made { sim with vars := phase.after sim.vars } :=
  ⟨tidy.definitions, tidy.depthLimit, keeps _ tidy.confined⟩

theorem invariant_tidy (u : Setup) (made : Simulator) :
    u.Invariant fun s => u.Tidy made s.simulator := by
  apply (robust_of_simulator (P := u.Tidy made) _ _ _ _).invariant
  · exact fun _ _ _ tidy => ⟨tidy.definitions, tidy.depthLimit, tidy.confined⟩
  · exact fun _ tidy => tidy.after (Circuit.keeps_confined_seed _)
  · intro sim tidy
    apply tidy.after
    rw [tidy.definitions, tidy.depthLimit]
    exact Circuit.keeps_confined_firstPhase
  · intro sim cycle tidy
    apply tidy.after
    rw [tidy.definitions, tidy.depthLimit]
    exact Circuit.keeps_confined_nextPhase cycle

theorem keeps_call (u : Setup) (made : Simulator) (call : Call) :
    (call.operation u).Keeps fun s => u.Tidy made s.simulator := by
  have invariant := u.invariant_tidy made
  cases call with
  | run => exact invariant.run
  | firstCycle => exact invariant.firstCycle
  | nextCycle cycle => exact invariant.nextCycle cycle
  | resetLatches =>
      exact keeps_onVariables fun _ tidy => tidy.after Circuit.keeps_confined_resetLatches
  | copyLatches =>
      exact keeps_onVariables fun _ tidy => tidy.after Circuit.keeps_confined_copyLatches

theorem SameTask.tidy_iff {v : Setup} (same : u.SameTask v) : v.Tidy made sim ↔ u.Tidy made sim := by
  constructor
  · exact fun tidy => ⟨tidy.definitions, tidy.depthLimit, same.circuit ▸ tidy.confined⟩
  · exact fun tidy => ⟨tidy.definitions, tidy.depthLimit, same.circuit ▸ tidy.confined⟩

/-- However a simulator was used, it has kept what it was made with and is confined to what a pass can
    bind. -/
theorem Used.tidy (used : u.Used sim) :
    ∃ made, Simulator.ofCircuit u.circuit u.settings = .ok made ∧ u.Tidy made sim := by
  induction used with
  | new h =>
      obtain ⟨definitions, defined, rfl⟩ := Simulator.ofCircuit_eq_ok h
      exact ⟨_, h, rfl, rfl, fun name bound => absurd bound List.not_mem_nil⟩
  | call same call earlier ih =>
      obtain ⟨made, new, tidy⟩ := ih
      have left := (keeps_call _ made call _ (same.tidy_iff.mpr tidy)).after
      exact ⟨made, new, same.tidy_iff.mp left⟩

end Tidy

end Setup

def Hook.published? : Hook → Option Results
  | .finished _ results => some results
  | _ => none

/-- The results that the monitor was told of. -/
def Session.published? (s : Session) : Option Results :=
  s.hooks.findSome? Hook.published?

namespace Setup

open Operation

variable {u v : Setup} {s t : Session}

theorem findSome?_report (u : Setup) (earlier : Results) (values : List (Bindings Bool)) :
    (u.report earlier values).findSome? Hook.published? = none := by
  rw [List.findSome?_eq_none_iff]
  intro occasion mem
  rcases List.mem_cons.mp mem with rfl | later
  · rfl
  · obtain ⟨cycle, inside, rfl⟩ := List.mem_mapIdx.mp later
    rfl

/-- A run changes the results of its circuit exactly if it tells the monitor so. -/
theorem ensures_published (unheard : s.hooks = []) :
    u.run.Ensures s (fun _ t => t.published? = some t.results)
      fun _ t => t.results = t.published?.getD s.results := by
  have completed : ∀ {t values}, u.Completed s t values → t.published? = some t.results := by
    intro t values completed
    rw [Session.published?, completed.hooks, unheard, List.nil_append, List.findSome?_append,
      findSome?_report]
    rfl
  apply (u.ensures_run s).mono
  · rintro _ t ⟨values, ended⟩
    exact completed ended
  · rintro e t (⟨values, told, -⟩ | ⟨⟨values, ended⟩, -⟩)
    · rw [Session.published?, told.hooks, unheard, List.nil_append, findSome?_report]
      exact told.results
    · rw [completed ended]
      rfl

theorem results_after_run (unheard : s.hooks = []) :
    (u.run.after s).results = (u.run.after s).published?.getD s.results := by
  have ended : u.run.Ensures s (fun _ t => t.results = t.published?.getD s.results)
      fun _ t => t.results = t.published?.getD s.results := by
    apply (ensures_published unheard).mono _ fun _ _ h => h
    intro _ t published
    rw [published]
    rfl
  exact ended.after

theorem ToldAlike.published?_eq (told : ToldAlike True s t) : s.published? = t.published? := by
  rw [ToldAlike] at told
  unfold Session.published?
  generalize s.hooks = hooks at told ⊢
  generalize t.hooks = hooks' at told ⊢
  induction told with
  | nil => rfl
  | cons alike _ ih =>
      rw [List.findSome?_cons, List.findSome?_cons, ih]
      cases alike with
      | started => rfl
      | cycleEnded values => rfl
      | finished results => rw [results trivial]

theorem ToldAlike.results_eq (told : ToldAlike True (u.run.after s) (v.run.after t))
    (unheard : s.hooks = []) (unheard' : t.hooks = []) (completed : u.run.succeeds s = true)
    (completed' : v.run.succeeds t = true) : (v.run.after t).results = (u.run.after s).results := by
  have published := (ensures_published unheard).of_ok (eq_ok_of_succeeds completed)
  have published' := (ensures_published unheard').of_ok (eq_ok_of_succeeds completed')
  rw [← told.published?_eq, published] at published'
  exact (Option.some.inj published').symm

theorem ToldAlike.cycles (told : ToldAlike True s t) :
    List.Forall₂ (fun a b => a.1 = b.1 ∧ ∀ name, a.2.get? name = b.2.get? name) s.cycles t.cycles :=
  told.cycles_twins.imp fun _ _ same => ⟨same.1, same.2.get?_eq trivial⟩

theorem SameTask.twins (same : u.SameTask v) : u.Twins True v := by
  have sample : ∀ result : Except SimError Bool, SameSample True result result := by
    intro result
    cases result with
    | error e => exact .failure
    | ok value => exact .value fun _ => rfl
  refine ⟨?_, same.checkStructure, ?_, ?_, ?_⟩
  · rw [same.circuit]
    rfl
  · rw [same.circuit]
  · intro x
    rw [same.circuit]
    exact sample _
  · intro cycle x
    rw [same.circuit]
    exact sample _

theorem filling_of_used (fresh : s.Fresh u) (used : u.Used t.simulator) (unheard : t.hooks = [])
    (readable : u.Readable s) (readable' : v.Readable t) : u.Filling True v [] s t := by
  obtain ⟨made, new, tidy⟩ := used.tidy
  cases fresh.simulator.symm.trans new
  refine ⟨?_, tidy.definitions, tidy.depthLimit, ?_, ?_, tidy.confined, readable, readable'⟩
  · rw [ToldAlike, fresh.hooks, unheard]
    exact .nil
  · intro name a found
    simp [fresh.vars] at found
  · simp [fresh.vars]

/-- A run of a used simulator, however its earlier calls ended, ends like a run of a new one: with the
    same outcome, the same results if any are published, and the same values in every cycle. Of the
    monitors it is assumed that they answer the calls of both runs alike; those that never object do, and on
    a bench nothing else is assumed (`Bench.Reachable.run_used`). -/
theorem run_forgets_past (u v : Setup) (same : u.SameTask v) {s t : Session}
    (fresh : s.Fresh u) (used : u.Used t.simulator) (unheard : t.journal = [])
    (readable : u.Readable s) (readable' : v.Readable t)
    (answers : ∀ (k : Nat) (a b : Hook), (u.run.after s).hooks[k]? = some a →
      (v.run.after t).hooks[k]? = some b →
      u.settings.monitor.objection a = v.settings.monitor.objection b) :
    v.run.ending t = u.run.ending s ∧
    (∃ published : Option Results, (u.run.after s).results = published.getD s.results ∧
      (v.run.after t).results = published.getD t.results ∧
      (u.run.succeeds s = true → published.isSome = true)) ∧
    List.Forall₂ (fun a b => a.1 = b.1 ∧ ∀ name, a.2.get? name = b.2.get? name)
      (u.run.after s).cycles (v.run.after t).cycles := by
  have agree : ¬ u.Parted v (u.run.after s) (v.run.after t) := by
    rintro ⟨k, a, b, atS, atT, differ⟩
    exact differ (answers k a b atS atT)
  have nothing' : t.hooks = [] := by simp [Session.hooks, unheard]
  have start := filling_of_used fresh used nothing' readable readable'
  obtain ⟨ending, told⟩ := run_alike same.twins start agree
  refine ⟨ending.symm, ⟨_, results_after_run fresh.hooks, ?_, fun success => ?_⟩, told.cycles⟩
  · rw [told.published?_eq]
    exact results_after_run nothing'
  · rw [(ensures_published fresh.hooks).of_ok (eq_ok_of_succeeds success)]
    rfl

private def delayLine : Circuit where
  name := "delay"
  inputs := ["In"]
  outputs := ["Out"]
  latches := ["L"]
  updates := [⟨"L", .signal "In"⟩, ⟨"Out", .signal "L'"⟩]
  traces := [⟨"In", [true, false]⟩]

/-- A simulator that has computed a cycle, and failed at one beyond the end of the trace after it had
    copied the latch. -/
private def interrupted : Session :=
  { Session.start .empty with
    simulator := (((Call.nextCycle 7).operation (standard delayLine)).after
      ((Call.firstCycle.operation (standard delayLine)).after (.start .empty))).simulator }

theorem run_forgets_past_interrupted :
    (standard delayLine).Used interrupted.simulator ∧
      interrupted.simulator.vars.get? "L'" = some true ∧
      (standard delayLine).run.ending interrupted = (standard delayLine).run.ending (.start .empty) ∧
      ((standard delayLine).run.after interrupted).results =
        ((standard delayLine).run.after (.start .empty)).results := by
  have same : (standard delayLine).SameTask (standard delayLine) := ⟨rfl, rfl⟩
  have fresh : (Session.start .empty).Fresh (standard delayLine) := ⟨rfl, rfl⟩
  have used : (standard delayLine).Used interrupted.simulator :=
    .call same (.nextCycle 7) (.call same .firstCycle (.new fresh.simulator))
  obtain ⟨ending, ⟨published, left, right, -⟩, -⟩ := run_forgets_past (standard delayLine)
    (standard delayLine) same fresh used rfl (fun _ watching => nomatch watching)
    (fun _ watching => nomatch watching) fun _ _ _ _ _ => rfl
  exact ⟨used, by decide +kernel, ending, right.trans left.symm⟩

end Setup

end SyncCircuit
