import SyncCircuit.Proofs.Dumping

/-! # Runs

A run may stop at any point: at the structural check, at a trace, in any update, at an output that is not
bound, or because the monitor objects (`Setup.Obstacle` lists the reasons). Whatever happens, the monitor
has been told of the first cycles, one after another, each with the valuation that it really ended with
(`Setup.Told`). While a run goes on the outputs of just these cycles are recorded as well
(`Setup.Recorded`), and a run that completes has published them (`Setup.Completed`).
-/

namespace SyncCircuit

namespace Setup

open Operation

/-- From the variables of a simulator, a cycle ends with a valuation. -/
def Reaches (u : Setup) (sim : Simulator) (cycle : Nat) (values : Bindings Bool) : Prop :=
  u.circuit.Reached sim.definitions sim.depthLimit sim.vars cycle values

/-- The calls of the monitor in a run that has computed some cycles. -/
def report (u : Setup) (earlier : Results) (values : List (Bindings Bool)) : List Hook :=
  .started u.circuit.name earlier :: values.mapIdx fun cycle v => .cycleEnded cycle v

/-- A run from `s₀` has told the monitor of cycles with these valuations, and published nothing. -/
structure Told (u : Setup) (s₀ s : Session) (values : List (Bindings Bool)) : Prop where
  hooks : s.hooks = s₀.hooks ++ u.report s₀.results values
  reached : ∀ i v, values[i]? = some v → u.Reaches s₀.simulator i v
  results : s.results = s₀.results

/-- A run from `s₀` goes on, and the outputs of the cycles so far are recorded. -/
structure Recorded (u : Setup) (s₀ s : Session) (values : List (Bindings Bool)) : Prop
    extends u.Told s₀ s values where
  definitions : s.simulator.definitions = s₀.simulator.definitions
  depthLimit : s.simulator.depthLimit = s₀.simulator.depthLimit
  length : u.circuit.runLength = .ok s.simulator.length
  history : ∀ entry ∈ s.simulator.history.entries, entry.2.map some = values.map (·.get? entry.1)
  outputs : s.simulator.history.names = u.circuit.outputs.eraseDups
  readable : u.Readable s₀ → u.Readable s

/-- A run from `s₀` is complete and has published the outputs of all its cycles. -/
structure Completed (u : Setup) (s₀ s : Session) (values : List (Bindings Bool)) : Prop where
  hooks : s.hooks = s₀.hooks ++ u.report s₀.results values ++ [.finished u.circuit.name s.results]
  reached : ∀ i v, values[i]? = some v → u.Reaches s₀.simulator i v
  length : u.circuit.runLength = .ok s.results.length
  settled : s.simulator.length = s.results.length
  cycles : values.length = max 1 s.results.length
  outputs : ∀ t ∈ s.results.outputs, t.values.map some = values.map (·.get? t.signal)
  signals : s.results.outputs.map (·.signal) = u.circuit.outputs.eraseDups

/-- What a run from `s₀` that has told the monitor of cycles with these valuations can fail at. -/
inductive Obstacle (u : Setup) (s₀ : Session) : List (Bindings Bool) → SimError → Prop where
  | malformed {cause} (asked : u.settings.checkStructure = true)
      (h : u.circuit.checkStructure = .error cause) : Obstacle u s₀ [] (.malformed cause)
  | lengths {e} (h : u.circuit.runLength = .error e) : Obstacle u s₀ [] e
  | first {e vars} (h : u.circuit.firstPhase s₀.simulator.definitions s₀.simulator.depthLimit
      s₀.simulator.vars = .error e vars) : Obstacle u s₀ [] e
  | next {values cycle before length e vars} (reached : u.Reaches s₀.simulator cycle before)
      (count : values.length = cycle + 1) (settled : u.circuit.runLength = .ok length)
      (inside : cycle + 1 < length)
      (h : u.circuit.nextPhase s₀.simulator.definitions s₀.simulator.depthLimit (cycle + 1 : Nat)
        before = .error e vars) : Obstacle u s₀ values e
  | output {values v signal} (reached : u.Reaches s₀.simulator values.length v)
      (recorded : signal ∈ u.circuit.outputs) (unbound : signal ∉ v.names) :
      Obstacle u s₀ values (.eval (.unbound signal))
  | objection {values occasion reason} (told : occasion ∈ u.report s₀.results values)
      (h : u.settings.monitor.objection occasion = some reason) : Obstacle u s₀ values (.aborted reason)
  | dump {values e} (h : u.Unreadable s₀ e) : Obstacle u s₀ values e

/-- A run from `s₀` was stopped before it was complete. -/
def Stopped (u : Setup) (s₀ : Session) (e : SimError) (s : Session) : Prop :=
  ∃ values, u.Told s₀ s values ∧ u.Obstacle s₀ values e

variable {u : Setup} {s₀ s t : Session} {values : List (Bindings Bool)}

theorem Told.alike (told : u.Told s₀ s values) (alike : u.Alike s t) : u.Told s₀ t values :=
  ⟨alike.hooks.trans told.hooks, told.reached, alike.results.trans told.results⟩

theorem Recorded.alike (recorded : u.Recorded s₀ s values) (alike : u.Alike s t) :
    u.Recorded s₀ t values where
  toTold := recorded.toTold.alike alike
  definitions := by rw [alike.simulator, recorded.definitions]
  depthLimit := by rw [alike.simulator, recorded.depthLimit]
  length := by rw [alike.simulator, recorded.length]
  history := by rw [alike.simulator]; exact recorded.history
  outputs := by rw [alike.simulator, recorded.outputs]
  readable := alike.readable ∘ recorded.readable

theorem Told.snoc (told : u.Told s₀ s values) {v : Bindings Bool}
    (reached : u.Reaches s₀.simulator values.length v)
    (hooks : t.hooks = s.hooks ++ [.cycleEnded values.length v]) (results : t.results = s.results) :
    u.Told s₀ t (values ++ [v]) where
  hooks := by
    rw [hooks, told.hooks, List.append_assoc, report, report, List.mapIdx_concat, List.cons_append]
  reached := by
    intro i w found
    rw [List.getElem?_append] at found
    split at found
    · exact told.reached i w found
    · rename_i beyond
      cases position : i - values.length with
      | zero =>
          have last : i = values.length := by omega
          simp only [position, List.getElem?_cons_zero, Option.some.injEq] at found
          rw [last, ← found]
          exact reached
      | succ k => simp [position] at found
  results := results.trans told.results

section Rules

variable {Q : Unit → Session → Prop} {E : SimError → Session → Prop}

/-- A simulator that is ready to end its first cycle. -/
def ready (u : Setup) (s : Session) (vars : Bindings Bool) (length : Nat) : Session :=
  { s with simulator :=
    { s.simulator with vars, length, history := Bindings.ofList (u.circuit.outputs.map (·, [])) } }

theorem names_history_ready (u : Setup) (s : Session) (vars : Bindings Bool) (length : Nat) :
    (u.ready s vars length).simulator.history.names = u.circuit.outputs.eraseDups := by
  show (Bindings.ofList _).names = _
  rw [Bindings.names_ofList, List.map_map]
  exact congrArg List.eraseDups (List.map_id _)

theorem ensures_opening
    (malformed : ∀ cause, u.settings.checkStructure = true →
      u.circuit.checkStructure = .error cause → E (.malformed cause) s)
    (samples : ∀ e vars, Phase.seed u.circuit.firstSample u.circuit.inputs s.simulator.vars =
      .error e vars → E e (s.withVars vars))
    (lengths : ∀ e vars, Phase.seed u.circuit.firstSample u.circuit.inputs s.simulator.vars =
      .ok () vars → u.circuit.runLength = .error e → E e (s.withVars vars))
    (updates : ∀ e vars length, u.circuit.runLength = .ok length →
      u.circuit.firstPhase s.simulator.definitions s.simulator.depthLimit s.simulator.vars =
        .error e vars → E e { s with simulator := { s.simulator with vars, length } })
    (rest : ∀ vars length, (u.settings.checkStructure = true → u.circuit.checkStructure = .ok ()) →
      u.circuit.runLength = .ok length →
      u.circuit.firstPhase s.simulator.definitions s.simulator.depthLimit s.simulator.vars =
        .ok () vars → (u.endCycle 0).Ensures (u.ready s vars length) Q E)
    (kept : ∀ t r, Q () t → u.Alike t r → r.dump = t.dump → Q () r) : u.firstCycle.Ensures s Q E := by
  refine ensures_checkStructure malformed fun checked => ?_
  refine ensures_onVariables samples fun _ seeded first => ?_
  refine ensures_outcome (fun e failure => lengths e seeded first failure) fun length settled => ?_
  apply ensures_modify
  refine ensures_onVariables (fun e vars failure => ?_) fun _ reset second => ?_
  · exact updates e vars length settled ((bind_of_ok first).trans (bind_of_error failure))
  refine ensures_applyUpdates (fun e vars failure => ?_) fun vars third => ?_
  · exact updates e vars length settled
      ((bind_of_ok first).trans ((bind_of_ok second).trans failure))
  apply ensures_modify
  have cycle := rest vars length checked settled
    ((bind_of_ok first).trans ((bind_of_ok second).trans third))
  apply cycle.bind
  intro _ t ended
  exact kept t _ ended (ensures_progress (E := E) _) rfl

theorem ensures_advance {cycle : Int}
    (failure : ∀ e vars, u.circuit.nextPhase s.simulator.definitions s.simulator.depthLimit cycle
      s.simulator.vars = .error e vars → E e (s.withVars vars))
    (rest : ∀ vars, u.circuit.nextPhase s.simulator.definitions s.simulator.depthLimit cycle
      s.simulator.vars = .ok () vars → (u.endCycle cycle).Ensures (s.withVars vars) Q E) :
    (u.nextCycle cycle).Ensures s Q E := by
  refine ensures_onVariables (fun e vars stop => failure e vars (bind_of_error stop))
    fun _ copied first => ?_
  refine ensures_onVariables (fun e vars stop => ?_) fun _ seeded second => ?_
  · exact failure e vars ((bind_of_ok first).trans (bind_of_error stop))
  refine ensures_applyUpdates (fun e vars stop => ?_) fun vars third => ?_
  · exact failure e vars ((bind_of_ok first).trans ((bind_of_ok second).trans stop))
  exact rest vars ((bind_of_ok first).trans ((bind_of_ok second).trans third))

theorem ensures_endCycle_simulator (u : Setup) (s : Session) (cycle : Int) :
    (u.endCycle cycle).Ensures s
      (fun _ t => t.simulator = s.simulator.recorded ∧
        ∀ signal ∈ s.simulator.history.names, signal ∈ s.simulator.vars.names)
      (fun _ t => ∃ history, t.simulator = { s.simulator with history }) := by
  apply ensures_recordOutputs
  · intro signal _ _ history
    exact ⟨history, rfl⟩
  · intro bound
    apply ensures_get
    apply ensures_announce
    intro t simulator _ _ _
    exact ⟨⟨simulator, bound⟩, fun _ _ => ⟨_, simulator⟩⟩

end Rules

/-- The end of a cycle: its outputs are recorded, unless one of them is not bound, and the monitor is
    told. -/
theorem ensures_endCycle (recorded : u.Recorded s₀ s values)
    (reached : u.Reaches s₀.simulator values.length s.simulator.vars) :
    (u.endCycle values.length).Ensures s
      (fun _ t => u.Recorded s₀ t (values ++ [s.simulator.vars]) ∧
        t.simulator.vars = s.simulator.vars) (u.Stopped s₀) := by
  apply ensures_recordOutputs
  · intro signal mem unbound history
    rw [recorded.outputs, List.mem_eraseDups] at mem
    exact ⟨values, ⟨recorded.hooks, recorded.reached, recorded.results⟩,
      .output reached mem unbound⟩
  intro bound
  apply ensures_get
  apply ensures_announce
  intro t simulator results dump hooks
  have told : u.Told s₀ t (values ++ [s.simulator.vars]) :=
    recorded.toTold.snoc reached hooks results
  have last : .cycleEnded values.length s.simulator.vars ∈
      u.report s₀.results (values ++ [s.simulator.vars]) := by
    simp [report, List.mapIdx_concat]
  refine ⟨⟨⟨told, ?_, ?_, ?_, ?_, ?_, ?_⟩, ?_⟩, fun _ objected => ⟨_, told, .objection last objected⟩⟩
  · rw [simulator]
    exact recorded.definitions
  · rw [simulator]
    exact recorded.depthLimit
  · rw [simulator]
    exact recorded.length
  · intro entry mem
    rw [simulator] at mem
    obtain ⟨old, inside, rfl⟩ := List.mem_map.mp mem
    obtain ⟨value, present⟩ := (Bindings.mem_names_iff _ _).mp
      (bound old.1 (List.mem_map_of_mem inside))
    simp only [present, Option.toList_some, List.map_append, recorded.history old inside,
      List.map_cons, List.map_nil]
  · rw [simulator]
    exact (Bindings.names_mapWithName _ _).trans recorded.outputs
  · intro readable
    refine (recorded.readable readable).grow dump fun name mem => ?_
    rw [simulator]
    exact mem
  · rw [simulator]
    rfl

theorem ensures_firstCycle (told : u.Told s₀ s []) (untouched : s.simulator = s₀.simulator)
    (readable : u.Readable s₀ → u.Readable s) :
    u.firstCycle.Ensures s (fun _ t => u.Recorded s₀ t [t.simulator.vars]) (u.Stopped s₀) := by
  have stopped : ∀ {e} {t : Session}, t.hooks = s.hooks → t.results = s.results →
      u.Obstacle s₀ [] e → u.Stopped s₀ e t := by
    intro e t hooks results obstacle
    exact ⟨[], ⟨hooks.trans told.hooks, told.reached, results.trans told.results⟩, obstacle⟩
  apply ensures_opening
  · intro cause asked refused
    exact stopped rfl rfl (.malformed asked refused)
  · intro e vars failure
    rw [untouched] at failure
    exact stopped rfl rfl (.first (bind_of_error failure))
  · intro e vars _ failure
    exact stopped rfl rfl (.lengths failure)
  · intro e vars length _ failure
    rw [untouched] at failure
    exact stopped rfl rfl (.first failure)
  · intro vars length _ settled success
    have reached : u.Reaches s₀.simulator 0 vars := by
      rw [← untouched]
      exact .first success
    have recorded : u.Recorded s₀ (u.ready s vars length) [] := by
      refine ⟨⟨told.hooks, told.reached, told.results⟩, ?_, ?_, settled, ?_,
        u.names_history_ready s vars length, ?_⟩
      · show s.simulator.definitions = s₀.simulator.definitions
        rw [untouched]
      · show s.simulator.depthLimit = s₀.simulator.depthLimit
        rw [untouched]
      · intro entry mem
        obtain ⟨signal, -, rfl⟩ := List.mem_map.mp (Bindings.mem_of_mem_ofList mem)
        rfl
      · intro before
        exact (readable before).grow rfl fun name mem =>
          (Circuit.firstPhase_names success name).mpr (.inl mem)
    apply (ensures_endCycle recorded reached).mono
    · intro _ t ⟨ended, present⟩
      rw [present]
      exact ended
    · exact fun _ _ h => h
  · intro t r ended alike _
    rw [alike.simulator]
    exact ended.alike alike

theorem ensures_nextCycle (recorded : u.Recorded s₀ s values) {cycle : Nat}
    (count : values.length = cycle + 1) (before : u.Reaches s₀.simulator cycle s.simulator.vars)
    (inside : values.length < s.simulator.length) :
    (u.nextCycle values.length).Ensures s
      (fun _ t => u.Recorded s₀ t (values ++ [t.simulator.vars]) ∧
        u.Reaches s₀.simulator values.length t.simulator.vars ∧
        t.simulator.length = s.simulator.length) (u.Stopped s₀) := by
  apply ensures_advance
  · intro e vars failure
    rw [recorded.definitions, recorded.depthLimit, count] at failure
    exact ⟨values, ⟨recorded.hooks, recorded.reached, recorded.results⟩,
      .next before count recorded.length (count ▸ inside) failure⟩
  · intro vars success
    have reached : u.Reaches s₀.simulator values.length vars := by
      rw [recorded.definitions, recorded.depthLimit, count] at success
      rw [count]
      exact .next before success
    have ready : u.Recorded s₀ (s.withVars vars) values := by
      refine ⟨⟨recorded.hooks, recorded.reached, recorded.results⟩, recorded.definitions,
        recorded.depthLimit, recorded.length, recorded.history, recorded.outputs, ?_⟩
      intro readable
      exact (recorded.readable readable).grow rfl fun name mem =>
        (Circuit.nextPhase_names success name).mpr (.inl mem)
    apply (ensures_endCycle ready reached).mono _ fun _ _ h => h
    intro _ t ⟨ended, present⟩
    rw [present]
    have settled : t.simulator.length = s.simulator.length :=
      Except.ok.inj (ended.length.symm.trans recorded.length)
    exact ⟨ended, reached, settled⟩

theorem ensures_laterCycles (recorded : u.Recorded s₀ s values) {cycle : Nat}
    (count : values.length = cycle + 1) (before : u.Reaches s₀.simulator cycle s.simulator.vars)
    {left : Nat} (total : values.length + left ≤ max 1 s.simulator.length) :
    (u.laterCycles (List.range' values.length left)).Ensures s
      (fun _ t => ∃ more, u.Recorded s₀ t more ∧ more.length = values.length + left)
      (u.Stopped s₀) := by
  induction left generalizing s values cycle with
  | zero => exact ensures_pure ⟨values, recorded, rfl⟩
  | succ left ih =>
      rw [List.range'_succ]
      apply (ensures_progress (u := u) _).bind
      intro _ t alike
      have going := recorded.alike alike
      rw [← alike.simulator] at before total
      have inside : values.length < t.simulator.length := by omega
      apply (ensures_nextCycle going count before inside).bind
      intro _ r ⟨ended, reached, settled⟩
      have dumped : (u.continueDump values.length).Ensures r (fun _ t => u.Alike r t)
          (u.Stopped s₀) := by
        apply (u.ensures_continueDump r _).mono fun _ _ alike => alike
        intro e q ⟨alike, unread, name⟩
        exact ⟨_, ended.toTold.alike alike, .dump ⟨fun readable => unread (ended.readable readable), name⟩⟩
      apply dumped.bind
      intro _ q alike
      have longer : (values ++ [r.simulator.vars]).length = values.length + 1 := by simp
      have onward : u.Reaches s₀.simulator values.length q.simulator.vars := by
        rw [alike.simulator]
        exact reached
      have room : (values ++ [r.simulator.vars]).length + left ≤ max 1 q.simulator.length := by
        rw [alike.simulator, settled, longer]
        omega
      have rest := ih (ended.alike alike) longer onward room
      rw [longer] at rest
      apply rest.mono _ fun _ _ h => h
      intro _ _ ⟨more, recorded, total⟩
      exact ⟨more, recorded, by omega⟩

/-- Whatever a run comes to, the monitor has been told of its first cycles as they were; if it
    succeeds, or if only the last call of the monitor stops it, it is complete. -/
theorem ensures_run (u : Setup) (s : Session) :
    u.run.Ensures s (fun _ t => ∃ values, u.Completed s t values)
      (fun e t => u.Stopped s e t ∨ (∃ values, u.Completed s t values) ∧ ∃ reason,
        u.settings.monitor.objection (.finished u.circuit.name t.results) = some reason ∧
          e = .aborted reason) := by
  have started : (u.announce (.started u.circuit.name s.results)).Ensures s
      (fun _ t => u.Told s t [] ∧ t.simulator = s.simulator ∧ (u.Readable s → u.Readable t))
      (u.Stopped s) := by
    apply ensures_announce
    intro t simulator results dump hooks
    have told : u.Told s t [] := ⟨hooks, fun i v found => by simp at found, results⟩
    refine ⟨⟨told, simulator, fun readable => ?_⟩,
      fun _ objected => ⟨[], told, .objection List.mem_cons_self objected⟩⟩
    exact readable.grow dump fun name mem => by rwa [simulator]
  apply ensures_get
  apply (started.mono (fun _ _ h => h) fun _ _ => .inl).bind
  intro _ t ⟨told, untouched, readable⟩
  apply ((ensures_firstCycle told untouched readable).mono (fun _ _ h => h) fun _ _ => .inl).bind
  intro _ t first
  have dumped : u.startDump.Ensures t (fun _ r => u.Alike t r) (u.Stopped s) := by
    apply (u.ensures_startDump t).mono fun _ _ alike => alike
    intro e r ⟨alike, unread, name⟩
    exact ⟨_, first.toTold.alike alike, .dump ⟨fun readable => unread (first.readable readable), name⟩⟩
  apply (dumped.mono (fun _ _ h => h) fun _ _ => .inl).bind
  intro _ r alike
  have going := first.alike alike
  have reached : u.Reaches s.simulator 0 r.simulator.vars := by
    rw [alike.simulator]
    exact first.reached 0 _ rfl
  apply ensures_get
  have later := ensures_laterCycles going rfl reached
    (show 1 + (r.simulator.length - 1) ≤ max 1 r.simulator.length by omega)
  apply (later.mono (fun _ _ h => h) fun _ _ => .inl).bind
  intro _ q ⟨values, recorded, total⟩
  apply ensures_modify
  apply ensures_get
  apply ensures_announce
  intro t simulator results dump hooks
  have settled : r.simulator.length = q.simulator.length := by
    simpa only [going.length, Except.ok.injEq] using recorded.length
  have completed : u.Completed s t values := by
    refine ⟨?_, recorded.reached, ?_, ?_, ?_, ?_, ?_⟩
    · rw [results, hooks]
      exact congrArg (· ++ _) recorded.hooks
    · rw [results]
      exact recorded.length
    · rw [results, simulator]
    · rw [results, total, settled]
      simp only [List.length_singleton]
      omega
    · intro trace mem
      rw [results] at mem
      obtain ⟨entry, inside, rfl⟩ := List.mem_map.mp mem
      exact recorded.history entry inside
    · rw [results, ← recorded.outputs]
      simp only [List.map_map]
      rfl
  refine ⟨⟨values, completed⟩, fun reason objected => .inr ⟨⟨values, completed⟩, reason, ?_, rfl⟩⟩
  rw [results]
  exact objected

theorem filterMap_ended?_report (u : Setup) (earlier : Results) (values : List (Bindings Bool)) :
    (u.report earlier values).filterMap Hook.ended? =
      values.mapIdx fun cycle v => ((cycle : Int), v) := by
  rw [report, List.filterMap_cons_none rfl, List.mapIdx_eq_zipIdx_map, List.mapIdx_eq_zipIdx_map,
    List.filterMap_map]
  exact congrFun List.filterMap_eq_map _

theorem Told.cycles_eq (told : u.Told s₀ s values) :
    s.cycles = s₀.cycles ++ values.mapIdx fun cycle v => ((cycle : Int), v) := by
  rw [Session.cycles, told.hooks, List.filterMap_append, filterMap_ended?_report]
  rfl

theorem Completed.cycles_eq (completed : u.Completed s₀ s values) :
    s.cycles = s₀.cycles ++ values.mapIdx fun cycle v => ((cycle : Int), v) := by
  rw [Session.cycles, completed.hooks, List.filterMap_append, List.filterMap_append,
    filterMap_ended?_report, List.filterMap_cons_none rfl, List.filterMap_nil, List.append_nil]
  rfl

/-- Every run tells the monitor of the cycles from the first on, without a gap, and with the
    valuations that they end with. -/
theorem cycles_run (u : Setup) (s : Session) :
    ∃ values : List (Bindings Bool),
      (u.run.after s).cycles = s.cycles ++ values.mapIdx (fun cycle v => ((cycle : Int), v)) ∧
        ∀ i v, values[i]? = some v → u.Reaches s.simulator i v := by
  have ended : ∃ values, u.Told s (u.run.after s) values ∨ u.Completed s (u.run.after s) values := by
    refine Ensures.after (P := fun t => ∃ values, u.Told s t values ∨ u.Completed s t values) ?_
    apply (u.ensures_run s).mono
    · rintro _ t ⟨values, completed⟩
      exact ⟨values, .inr completed⟩
    · rintro e t (⟨values, told, -⟩ | ⟨⟨values, completed⟩, -⟩)
      · exact ⟨values, .inl told⟩
      · exact ⟨values, .inr completed⟩
  obtain ⟨values, told | completed⟩ := ended
  · exact ⟨values, told.cycles_eq, told.reached⟩
  · exact ⟨values, completed.cycles_eq, completed.reached⟩

end Setup

end SyncCircuit
