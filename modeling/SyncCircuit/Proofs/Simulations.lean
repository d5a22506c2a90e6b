import SyncCircuit.Proofs.Causality
import SyncCircuit.Proofs.Influence
import SyncCircuit.Proofs.Replay
import SyncCircuit.Proofs.Transparency

/-! # Simulations on benches

The laws of single runs ask for a new simulator, for a dump that can read what it watches and for a monitor
that does not interfere. On a bench that was built up from nothing the first two come for free: the bench
makes the simulator itself (`Bench.Staged`), and whatever has happened on it before, every signal that the
dump watches is bound. What is left to ask is that the monitor never objects.
-/

namespace SyncCircuit

theorem Results.output_eq_ok {results : Results} {name : String} {trace : Trace} :
    results.output name = .ok trace ↔ results.outputs.find? (·.signal == name) = some trace := by
  unfold Results.output
  cases results.outputs.find? (·.signal == name) <;> simp

namespace Setup

open Operation

variable {u v : Setup} {s t : Session}

theorem ending_runForOutputs (u : Setup) (s : Session) :
    u.runForOutputs.ending s = (u.run.ending s).map fun _ => (u.run.after s).results.outputs := by
  simp only [runForOutputs, ending, after, Bind.bind, EStateM.bind]
  cases u.run s <;> rfl

theorem after_runForOutputs (u : Setup) (s : Session) : u.runForOutputs.after s = u.run.after s := by
  simp only [runForOutputs, after, Bind.bind, EStateM.bind]
  cases u.run s <;> rfl

theorem ending_runForOutputs_eq_ok {outputs : List Trace} :
    u.runForOutputs.ending s = .ok outputs ↔
      u.run.succeeds s = true ∧ outputs = (u.run.after s).results.outputs := by
  rw [ending_runForOutputs, succeeds_eq]
  cases u.run.ending s <;> simp [Except.map, Except.isOk, Except.toBool, eq_comm]

theorem not_parted (quiet : u.Quiet) (quiet' : v.Quiet) : ¬ u.Parted v s t := by
  rintro ⟨k, a, b, -, -, differ⟩
  exact differ ((quiet a).trans (quiet' b).symm)

end Setup

namespace Bench

open Operation Setup

/-- A simulator of the bench as it was made, with a monitor that never objects, beside a dump that can read
    what it watches. -/
structure Staged (b : Bench) (rig : Nat) (r : Rig) (design : Design) : Prop where
  holds : b.Holds rig r design
  fresh : (b.session r design).Fresh (b.setup rig r design)
  readable : (b.setup rig r design).Readable (b.session r design)
  quiet : (b.setup rig r design).Quiet

variable {b b' : Bench} {shelf shelf' : List Dump} {n n' rig : Nat} {settings : Settings}
  {design design' : Design} {report report' : Report (List Trace)}

/-- On a bench in use a simulation is a run of a simulator that is made for it. -/
theorem Reachable.staged (reachable : b.Reachable shelf) (found : b.designs[n]? = some design)
    (quiet : ∀ occasion, settings.monitor.objection occasion = none)
    (ran : b.simulate n settings = .ok (some report)) :
    ∃ b₁ r, b.addRig n settings = .ok b₁ ∧ r.settings = settings ∧
      b₁.Staged b.rigs.length r design ∧
      b₁.perform b.rigs.length Setup.runForOutputs = some report := by
  cases added : b.addRig n settings with
  | error e => simp [simulate, added, bind, Except.bind] at ran
  | ok b₁ =>
      have performed : b₁.perform b.rigs.length Setup.runForOutputs = some report := by
        simpa [simulate, added, bind, Except.bind, pure, Except.pure] using ran
      obtain ⟨missing, -⟩ | ⟨_, simulator, also, made, rfl⟩ := addRig_eq_ok added
      · simp [missing] at found
      · cases found.symm.trans also
        have holds : Bench.Holds { b with rigs := b.rigs ++ [⟨n, settings, simulator⟩] } b.rigs.length
            ⟨n, settings, simulator⟩ design := ⟨by simp, found⟩
        have reachable' : Reachable { b with rigs := b.rigs ++ [⟨n, settings, simulator⟩] } shelf :=
          .step reachable (.addRig added)
        exact ⟨_, _, rfl, rfl, ⟨holds, ⟨made, rfl⟩, reachable'.readable holds, quiet⟩, performed⟩

section Staged

variable {r r' : Rig} {rig' : Nat} {outputs : List Trace}

theorem Staged.report_eq (staged : b.Staged rig r design)
    (ran : b.perform rig Setup.runForOutputs = some report) :
    report.outcome = (b.setup rig r design).runForOutputs.ending (b.session r design) ∧
      report.cycles = ((b.setup rig r design).run.after (b.session r design)).cycles := by
  rw [perform_eq staged.holds] at ran
  cases ran
  refine ⟨rfl, ?_⟩
  rw [Report.cycles_of_journal, after_runForOutputs]

theorem Staged.outcome_eq_ok (staged : b.Staged rig r design)
    (ran : b.perform rig Setup.runForOutputs = some report) :
    report.outcome = .ok outputs ↔
      (b.setup rig r design).run.succeeds (b.session r design) = true ∧
        outputs = ((b.setup rig r design).run.after (b.session r design)).results.outputs := by
  rw [(staged.report_eq ran).1]
  exact ending_runForOutputs_eq_ok

theorem Staged.exists_outcome (staged : b.Staged rig r design)
    (ran : b.perform rig Setup.runForOutputs = some report) :
    (∃ outputs, report.outcome = .ok outputs) ↔
      (b.setup rig r design).run.succeeds (b.session r design) = true := by
  simp [staged.outcome_eq_ok ran]

theorem Staged.run_resampled (staged : b.Staged rig r design) (staged' : b'.Staged rig' r' design')
    {signals : Set String} (circuits : design.circuit.Resampled signals design'.circuit)
    (same : r'.settings = r.settings) :
    (b.setup rig r design).run.ending (b.session r design) =
        (b'.setup rig' r' design').run.ending (b'.session r' design') ∧
      ToldAlike False ((b.setup rig r design).run.after (b.session r design))
        ((b'.setup rig' r' design').run.after (b'.session r' design')) :=
  Setup.run_resampled circuits same staged.fresh staged'.fresh staged.readable staged'.readable
    fun _ a b _ _ => (staged.quiet a).trans (staged'.quiet b).symm

end Staged

/-- If the first cycle of a new simulator succeeds, a simulation completes exactly if it has no second cycle
    or every latch is driven, and if the trace of every input is long enough. -/
theorem Reachable.simulate_completes_iff (reachable : b.Reachable shelf)
    (found : b.designs[n]? = some design)
    (quiet : ∀ occasion, settings.monitor.objection occasion = none)
    (ran : b.simulate n settings = .ok (some report)) (added : b.addRig n settings = .ok b')
    {first : Report Unit} (begun : b'.perform b.rigs.length Setup.firstCycle = some first)
    (initialized : first.outcome = .ok ()) :
    (∃ outputs, report.outcome = .ok outputs) ↔ ∃ length, design.circuit.runLength = .ok length ∧
      (length ≤ 1 ∨ ∀ latch ∈ design.circuit.latches, latch ∈ design.circuit.driven) ∧
      ∀ x ∈ design.circuit.inputs, ∃ trace, design.circuit.inputTrace x = some trace ∧
        length ≤ trace.length := by
  obtain ⟨_, r, also, -, staged, performed⟩ := reachable.staged found quiet ran
  cases added.symm.trans also
  rw [perform_eq staged.holds] at begun
  cases begun
  have opened := opened_of_firstCycle (eq_ok_of_succeeds ((succeeds_eq _ _).trans
    (congrArg Except.isOk initialized)))
  rw [staged.exists_outcome performed]
  constructor
  · intro success
    exact ⟨_, opened.settled, opened.driven_of_succeeds staged.fresh success⟩
  · rintro ⟨length, settled, latches, inputs⟩
    cases opened.settled.symm.trans settled
    exact opened.succeeds_of_driven staged.fresh staged.quiet staged.readable latches inputs

example : ((Bench.addDesign {} relay).simulate 0 {}).toOption.join.bind (·.outcome.toOption) =
    some [⟨"Out", [false, true]⟩] := by
  decide +kernel

section Pairs

variable (reachable : b.Reachable shelf) (reachable' : b'.Reachable shelf')
  (found : b.designs[n]? = some design) (found' : b'.designs[n']? = some design')
  (quiet : ∀ occasion, settings.monitor.objection occasion = none)
  (ran : b.simulate n settings = .ok (some report)) (ran' : b'.simulate n' settings = .ok (some report'))
include reachable reachable' found found' quiet ran ran'

/-- Simulations under other samples end alike, after the same number of cycles. -/
theorem Reachable.simulate_resampled (circuits : design.circuit.Resampled Set.univ design'.circuit) :
    report'.outcome.map (fun _ => ()) = report.outcome.map (fun _ => ()) ∧
      report'.cycles.length = report.cycles.length := by
  obtain ⟨_, r, -, rfl, staged, performed⟩ := reachable.staged found quiet ran
  obtain ⟨_, r', -, same, staged', performed'⟩ := reachable'.staged found' quiet ran'
  obtain ⟨outcome, cycles⟩ := staged.report_eq performed
  obtain ⟨outcome', cycles'⟩ := staged'.report_eq performed'
  obtain ⟨ending, told⟩ := staged.run_resampled staged' circuits same
  constructor
  · rw [outcome, outcome', ending_runForOutputs, ending_runForOutputs, ending]
    cases (Setup.run _).ending _ <;> rfl
  · rw [cycles, cycles']
    exact told.cycles_twins.length_eq.symm

/-- If a simulation completes, it completes over any number of first samples, and records the first samples
    of every output. -/
theorem Reachable.simulate_truncated {count length : Nat}
    (circuit : design'.circuit = design.circuit.truncate count) (positive : 1 ≤ count)
    (settled : design.circuit.runLength = .ok length) (inside : count ≤ length) {outputs : List Trace}
    (completed : report.outcome = .ok outputs) :
    ∃ outputs', report'.outcome = .ok outputs' ∧
      List.Forall₂ (fun whole part => part.signal = whole.signal ∧ part.length = count ∧
        part.values <+: whole.values) outputs outputs' ∧ report'.cycles <+: report.cycles := by
  obtain ⟨_, r, -, rfl, staged, performed⟩ := reachable.staged found quiet ran
  obtain ⟨_, r', -, same, staged', performed'⟩ := reachable'.staged found' quiet ran'
  obtain ⟨success, rfl⟩ := (staged.outcome_eq_ok performed).mp completed
  obtain ⟨values, whole⟩ := (ensures_run _ _).of_ok (eq_ok_of_succeeds success)
  cases settled.symm.trans whole.length
  have success' := succeeds_truncated circuit same staged.fresh staged'.fresh (eq_ok_of_succeeds success)
    positive inside staged'.readable fun occasion _ => staged'.quiet occasion
  obtain ⟨values', part⟩ := (ensures_run _ _).of_ok (eq_ok_of_succeeds success')
  refine ⟨_, (staged'.outcome_eq_ok performed').mpr ⟨success', rfl⟩, ?_⟩
  rw [(staged.report_eq performed).2, (staged'.report_eq performed').2]
  exact whole.outputs_truncated circuit same staged.fresh staged'.fresh part positive inside

/-- Simulations under samples that differ outside the cone of an output record the same trace of it. -/
theorem Reachable.simulate_outside_cone {signals : Set String}
    (circuits : design.circuit.Resampled signals design'.circuit) {definitions : Definitions}
    (defined : Definitions.defineAll .empty design.circuit.definitions = .ok definitions)
    {root : String} (output : root ∈ design.circuit.outputs)
    (apart : ∀ x ∈ signals, ¬ design.circuit.Cone definitions root x) {outputs : List Trace}
    (completed : report.outcome = .ok outputs) :
    ∃ outputs' trace, report'.outcome = .ok outputs' ∧
      outputs.find? (·.signal == root) = some trace ∧ outputs'.find? (·.signal == root) = some trace := by
  obtain ⟨b₁, r, -, rfl, staged, performed⟩ := reachable.staged found quiet ran
  obtain ⟨_, r', -, same, staged', performed'⟩ := reachable'.staged found' quiet ran'
  obtain ⟨success, rfl⟩ := (staged.outcome_eq_ok performed).mp completed
  obtain ⟨ending, -⟩ := staged.run_resampled staged' circuits same
  have success' := (succeeds_eq_of_ending ending).symm.trans success
  obtain ⟨values, run⟩ := (ensures_run _ _).of_ok (eq_ok_of_succeeds success)
  obtain ⟨values', run'⟩ := (ensures_run _ _).of_ok (eq_ok_of_succeeds success')
  obtain ⟨_, also, made⟩ := staged.fresh.made
  cases defined.symm.trans also
  have outside : ∀ x ∈ signals, ¬ design.circuit.Cone (b₁.session r design).simulator.definitions root x := by
    rw [made]
    exact apart
  obtain ⟨trace, recorded, recorded'⟩ :=
    run.same_output run' circuits same staged.fresh staged'.fresh output outside
  exact ⟨_, trace, (staged'.outcome_eq_ok performed').mpr ⟨success', rfl⟩,
    Results.output_eq_ok.mp recorded, Results.output_eq_ok.mp recorded'⟩

end Pairs

/-- A simulator that was used before runs like one that is made anew: it ends alike, and if it completes it
    publishes the outputs that the new one returns. -/
theorem Reachable.run_used {r : Rig} (reachable : b.Reachable shelf) (holds : b.Holds rig r design)
    (used : (b.setup rig r design).Used r.simulator)
    (quiet : ∀ occasion, r.settings.monitor.objection occasion = none)
    (ran : b.simulate r.design r.settings = .ok (some report)) :
    ∃ again, b.perform rig Setup.run = some again ∧
      again.outcome = report.outcome.map (fun _ => ()) ∧
      ∀ outputs, report.outcome = .ok outputs → ∃ after, again.bench.designs[r.design]? = some after ∧
        after.results.outputs = outputs := by
  obtain ⟨b₁, r₁, -, same, staged, performed⟩ := reachable.staged holds.design quiet ran
  have task : (b₁.setup b.rigs.length r₁ design).SameTask (b.setup rig r design) :=
    ⟨rfl, congrArg Settings.checkStructure same.symm⟩
  have start := filling_of_used (v := b.setup rig r design) (t := b.session r design) staged.fresh
    (used.of_same rfl same) rfl staged.readable (reachable.readable holds)
  obtain ⟨ending, told⟩ := run_alike task.twins start (not_parted staged.quiet quiet)
  refine ⟨_, perform_eq holds Setup.run, ?_, ?_⟩
  · rw [(staged.report_eq performed).1, ending_runForOutputs, ending]
    cases (Setup.run _).ending _ <;> rfl
  · intro outputs completed
    obtain ⟨success, rfl⟩ := (staged.outcome_eq_ok performed).mp completed
    refine ⟨_, (holds_settle holds _).design, ?_⟩
    rw [told.results_eq staged.fresh.hooks rfl success ((succeeds_eq_of_ending ending).symm.trans success)]

end Bench

end SyncCircuit
