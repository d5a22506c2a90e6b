import SyncCircuit.Proofs.Benches
import SyncCircuit.Proofs.Blocks

/-! # Following a run

What a dump does while a simulator runs. Once the first cycle has ended it registers the bound signals and
writes every value, and after every later cycle it writes the values that changed (`Setup.Followed`). A
dump that can read what it watches keeps up with the run: it has followed all the cycles that the monitor
was told of, or all but the last, if the run was stopped right after it. Nothing else that simulators do
touches a dump, so whatever is done with a bench its dumps only ever grow (`Bench.Leads.transcripts`).
-/

namespace SyncCircuit

namespace Setup

open Operation

/-- The value of a channel when the variables of this simulator have some values. -/
def value (u : Setup) (vars : Bindings Bool) (c : Channel) : Option Bool :=
  if c.source = u.number then vars.get? c.name else u.elsewhere c.source c.name

theorem toOption_readChannel (u : Setup) (vars : Bindings Bool) :
    (fun c => (u.readChannel vars c).toOption) = u.value vars := by
  funext c
  rw [readChannel_eq, value]
  split <;> simp_all [Except.toOption]

/-- Channels that were registered for bound signals of this simulator. -/
structure Registered (u : Setup) (vars : Bindings Bool) (new : List Channel) : Prop where
  names : new.map (·.name) = u.circuit.signalNames.filter vars.contains
  source : ∀ c ∈ new, c.source = u.number

theorem registerSignals_eq (u : Setup) (vars : Bindings Bool) (d : Dump) :
    ∃ new, u.Registered vars new ∧ u.registerSignals vars d =
      { d with channels := d.channels ++ new, issued := d.issued + new.length } := by
  have fold : ∀ (signals : List String) (d : Dump), ∃ new : List Channel,
      new.map (·.name) = signals ∧ (∀ c ∈ new, c.source = u.number) ∧
      signals.foldl (fun d signal =>
        d.register signal (u.circuit.latchOutputs.contains signal) [u.circuit.name] u.number) d =
        { d with channels := d.channels ++ new, issued := d.issued + new.length } := by
    intro signals
    induction signals with
    | nil => exact fun d => ⟨[], rfl, by simp, by simp⟩
    | cons signal rest ih =>
        intro d
        obtain ⟨new, names, source, folded⟩ := ih (d.register signal
          (u.circuit.latchOutputs.contains signal) [u.circuit.name] u.number)
        refine ⟨⟨signal, u.circuit.latchOutputs.contains signal, [u.circuit.name], u.number, d.nextId,
          none⟩ :: new, ?_, ?_, ?_⟩
        · rw [List.map_cons, names]
        · simpa using source
        · rw [List.foldl_cons, folded, List.length_cons]
          simp only [Dump.register, List.append_assoc, List.singleton_append, Dump.mk.injEq, true_and,
            and_true]
          omega
  obtain ⟨new, names, source, folded⟩ := fold (u.circuit.signalNames.filter vars.contains) d
  exact ⟨new, ⟨names, source⟩, folded⟩

/-- A dump has followed cycles that ended with some values. -/
inductive Followed (u : Setup) (d : Dump) : List (Bindings Bool) → Dump → Prop where
  | unseen : Followed u d [] d
  | first {v d'} (dumped : (u.registerSignals v d).dumpInitial (u.readChannel v) 0 = .ok d') :
      Followed u d [v] d'
  | next {values v d₁ d₂} (before : Followed u d values d₁) (begun : values ≠ [])
      (dumped : d₁.dumpChanges (u.readChannel v) values.length = .ok d₂) :
      Followed u d (values ++ [v]) d₂

theorem Followed.eq_of_nil {u : Setup} {d d' : Dump} (followed : u.Followed d [] d') : d' = d := by
  generalize none : ([] : List (Bindings Bool)) = values at followed
  cases followed with
  | unseen => rfl
  | first _ => cases none
  | next _ _ _ => simp at none

theorem Followed.transcript_grows {u : Setup} {d d' : Dump} {values : List (Bindings Bool)}
    (followed : u.Followed d values d') : d.transcript <+: d'.transcript := by
  induction followed with
  | unseen => exact List.prefix_rfl
  | @first v _ dumped =>
      have same : (u.registerSignals v d).transcript = d.transcript := by
        obtain ⟨new, -, registered⟩ := u.registerSignals_eq v d
        rw [registered]
        rfl
      rw [← same]
      exact Dump.transcript_grows (fun opened => ⟨_, _, _, Dump.dumpInitial_ok opened dumped⟩)
        fun closed => Dump.dumpInitial_closed closed dumped
  | next _ _ dumped ih =>
      apply ih.trans
      exact Dump.transcript_grows (fun opened => ⟨_, _, _, Dump.dumpChanges_ok opened dumped⟩)
        fun closed => Dump.dumpChanges_closed closed dumped

/-- The monitor was told of a cycle, and the dump has yet to follow. -/
structure Ended (cycle : Int) (s t : Session) : Prop where
  dump : t.dump = s.dump
  cycles : t.cycles = s.cycles ++ [(cycle, t.simulator.vars)]

/-- A cycle failed before the monitor was told of it, or the monitor objected. -/
structure Halted (cycle : Int) (s t : Session) : Prop where
  dump : t.dump = s.dump
  cycles : t.cycles = s.cycles ∨ ∃ values, t.cycles = s.cycles ++ [(cycle, values)]

theorem ensures_endCycle_told {u : Setup} {s r : Session} (kept : r.dump = s.dump)
    (untold : r.cycles = s.cycles) (cycle : Int) :
    (u.endCycle cycle).Ensures r (fun _ => Ended cycle s) (fun _ => Halted cycle s) := by
  apply ensures_recordOutputs
  · exact fun _ _ _ _ => ⟨kept, .inl untold⟩
  · intro _
    apply ensures_get
    apply ensures_announce
    intro t simulator _ dump hooks
    have told : t.cycles = s.cycles ++ [(cycle, t.simulator.vars)] := by
      rw [Session.cycles, hooks, List.filterMap_append, simulator, ← untold]
      rfl
    exact ⟨⟨dump.trans kept, told⟩, fun _ _ => ⟨dump.trans kept, .inr ⟨_, told⟩⟩⟩

theorem ensures_firstCycle_told (u : Setup) (s : Session) :
    u.firstCycle.Ensures s (fun _ => Ended 0 s) (fun _ => Halted 0 s) := by
  apply ensures_opening
  · exact fun _ _ _ => ⟨rfl, .inl rfl⟩
  · exact fun _ _ _ => ⟨rfl, .inl rfl⟩
  · exact fun _ _ _ _ => ⟨rfl, .inl rfl⟩
  · exact fun _ _ _ _ _ => ⟨rfl, .inl rfl⟩
  · intro vars length _ _ _
    apply ensures_endCycle_told
    · rfl
    · rfl
  · intro t r ended alike dump
    refine ⟨dump.trans ended.dump, ?_⟩
    rw [Session.cycles, alike.hooks, alike.simulator]
    exact ended.cycles

theorem ensures_nextCycle_told (u : Setup) (s : Session) (cycle : Int) :
    (u.nextCycle cycle).Ensures s (fun _ => Ended cycle s) (fun _ => Halted cycle s) := by
  apply ensures_advance
  · exact fun _ _ _ => ⟨rfl, .inl rfl⟩
  · intro vars _
    apply ensures_endCycle_told
    · rfl
    · rfl

/-- The dump of a session, if there is one, has followed cycles since another session. -/
def Follows (u : Setup) (values : List (Bindings Bool)) (s t : Session) : Prop :=
  Option.Rel (u.Followed · values ·) s.dump t.dump

/-- A run has told the monitor of cycles, and the dump has followed them. -/
structure Trails (u : Setup) (s₀ : Session) (values : List (Bindings Bool)) (s : Session) : Prop where
  dump : u.Follows values s₀ s
  cycles : s.cycles = s₀.cycles ++ values.mapIdx fun cycle v => ((cycle : Int), v)
  readable : u.Readable s

/-- A run has told the monitor of cycles, and the dump has followed all of them or all but the last. -/
def Left (u : Setup) (s₀ s : Session) : Prop :=
  ∃ dumped more, u.Follows dumped s₀ s ∧ more.length ≤ 1 ∧
    s.cycles = s₀.cycles ++ (dumped ++ more).mapIdx fun cycle v => ((cycle : Int), v)

variable {u : Setup} {s₀ s t : Session} {values : List (Bindings Bool)}

theorem follows_nil (u : Setup) (s : Session) : u.Follows [] s s := by
  unfold Follows
  cases s.dump with
  | none => exact .none
  | some d => exact .some .unseen

theorem Follows.of_dump_eq (follows : u.Follows values s₀ s) (dump : t.dump = s.dump) :
    u.Follows values s₀ t := by
  rw [Follows, dump]
  exact follows

theorem Follows.of_some {d : Dump} (follows : u.Follows values s t) (watching : s.dump = some d) :
    ∃ d', t.dump = some d' ∧ u.Followed d values d' := by
  rw [Follows, watching] at follows
  generalize t.dump = after at follows
  cases follows with
  | some followed => exact ⟨_, rfl, followed⟩

theorem Follows.to_some {d' : Dump} (follows : u.Follows values s t) (left : t.dump = some d') :
    ∃ d, s.dump = some d ∧ u.Followed d values d' := by
  rw [Follows, left] at follows
  generalize s.dump = before at follows
  cases follows with
  | some followed => exact ⟨_, rfl, followed⟩

theorem Follows.dump_eq (follows : u.Follows [] s t) : t.dump = s.dump := by
  unfold Follows at follows
  generalize s.dump = before at follows
  generalize t.dump = after at follows
  cases follows with
  | none => rfl
  | some followed => rw [followed.eq_of_nil]

theorem Trails.left (trails : u.Trails s₀ values s) : u.Left s₀ s :=
  ⟨values, [], trails.dump, by simp, by rw [List.append_nil, trails.cycles]⟩

theorem Trails.alike (trails : u.Trails s₀ values s) (alike : u.Alike s t) (dump : t.dump = s.dump) :
    u.Trails s₀ values t where
  dump := trails.dump.of_dump_eq dump
  cycles := by
    rw [Session.cycles, alike.hooks]
    exact trails.cycles
  readable := alike.readable trails.readable

theorem Halted.left {cycle : Nat} (halted : Halted cycle s t) (trails : u.Trails s₀ values s)
    (count : cycle = values.length) : u.Left s₀ t := by
  have dump := trails.dump.of_dump_eq halted.dump
  rcases halted.cycles with untold | ⟨v, told⟩
  · refine ⟨values, [], dump, by simp, ?_⟩
    rw [untold, List.append_nil, trails.cycles]
  · refine ⟨values, [v], dump, by simp, ?_⟩
    rw [told, trails.cycles, List.mapIdx_concat, count, List.append_assoc]

theorem Ended.trails {cycle : Nat} {r : Session} (ended : Ended cycle s t)
    (trails : u.Trails s₀ values s) (count : cycle = values.length) (readable : u.Readable t)
    (alike : u.Alike t r) (dump : u.Follows (values ++ [t.simulator.vars]) s₀ r) :
    u.Trails s₀ (values ++ [t.simulator.vars]) r where
  dump := dump
  cycles := by
    rw [Session.cycles, alike.hooks]
    refine ended.cycles.trans ?_
    rw [trails.cycles, List.mapIdx_concat, count, List.append_assoc]
  readable := alike.readable readable

theorem ensures_onDump_rel (f : Dump → Bindings Bool → Except SimError Dump) (s : Session) :
    (onDump f).Ensures s (fun _ t => t.simulator = s.simulator ∧
      Option.Rel (fun d d' => f d s.simulator.vars = .ok d') s.dump t.dump) (fun _ _ => True) := by
  apply ensures_get
  cases watching : s.dump with
  | none =>
      refine ensures_pure ⟨rfl, ?_⟩
      rw [watching]
      exact .none
  | some d =>
      apply ensures_outcome
      · exact fun _ _ => trivial
      · exact fun d' success => ⟨rfl, .some success⟩

theorem ensures_startDump_followed (readable : u.Readable s) (dump : s.dump = s₀.dump) :
    u.startDump.Ensures s (fun _ t => u.Alike s t ∧ u.Follows [s.simulator.vars] s₀ t)
      (fun _ _ => False) := by
  have shape : u.startDump.Ensures s (fun _ => u.Follows [s.simulator.vars] s₀) fun _ _ => True := by
    apply (ensures_onDump_rel _ s).bind
    intro _ t ⟨simulator, registered⟩
    apply (ensures_onDump_rel _ t).mono _ fun _ _ h => h
    intro _ r ⟨_, dumped⟩
    -- without a dump both steps do nothing, and with one the second finds the dump that the first left
    rw [simulator] at dumped
    rw [dump] at registered
    unfold Follows
    generalize s₀.dump = before at registered
    generalize t.dump = middle at registered dumped
    generalize r.dump = after at dumped
    cases registered with
    | none =>
        cases dumped
        exact .none
    | some success =>
        cases success
        cases dumped with
        | some dumped => exact .some (.first dumped)
  apply ((u.ensures_startDump s).and shape).mono
  · exact fun _ _ both => both
  · exact fun _ _ failed => failed.1.2.1 readable

theorem ensures_continueDump_followed (readable : u.Readable s) (follows : u.Follows values s₀ s)
    (begun : values ≠ []) :
    (u.continueDump values.length).Ensures s
      (fun _ t => u.Alike s t ∧ u.Follows (values ++ [s.simulator.vars]) s₀ t) (fun _ _ => False) := by
  have shape : (u.continueDump values.length).Ensures s
      (fun _ => u.Follows (values ++ [s.simulator.vars]) s₀) fun _ _ => True := by
    apply (ensures_onDump_rel _ s).mono _ fun _ _ h => h
    intro _ t ⟨_, dumped⟩
    unfold Follows at follows ⊢
    generalize s₀.dump = before at follows
    generalize s.dump = middle at follows dumped
    generalize t.dump = after at dumped
    cases follows with
    | none =>
        cases dumped
        exact .none
    | some followed =>
        cases dumped with
        | some dumped => exact .some (.next followed begun dumped)
  apply ((u.ensures_continueDump s values.length).and shape).mono
  · exact fun _ _ both => both
  · exact fun _ _ failed => failed.1.2.1 readable

theorem ensures_laterCycles_followed (trails : u.Trails s₀ values s) (begun : values ≠ [])
    (left : Nat) :
    (u.laterCycles (List.range' values.length left)).Ensures s
      (fun _ t => ∃ more, u.Trails s₀ more t) (fun _ => u.Left s₀) := by
  induction left generalizing s values with
  | zero => exact ensures_pure ⟨values, trails⟩
  | succ left ih =>
      rw [List.range'_succ]
      refine ensures_modify ?_
      have noted := trails.alike (ensures_progress (E := fun _ _ => True)
        ("Cycle " ++ toString values.length)) rfl
      have next := (u.ensures_nextCycle_told _ values.length).and
        ((lasting_readable u).invariant.nextCycle values.length _ noted.readable)
      apply (next.mono (fun _ _ h => h) fun _ _ h => h.1.left noted rfl).bind
      intro _ t ⟨ended, readable⟩
      have follows := noted.dump.of_dump_eq ended.dump
      have dumped := ensures_continueDump_followed readable follows begun
      apply (dumped.mono (fun _ _ h => h) fun _ _ h => h.elim).bind
      intro _ r ⟨alike, dump⟩
      have rest := ih (ended.trails noted rfl readable alike dump) (by simp)
      rwa [List.length_append] at rest

theorem Trails.announce {occasion : Hook} (trails : u.Trails s₀ values s)
    (uncounted : occasion.ended? = none) :
    (u.announce occasion).Ensures s (fun _ => u.Trails s₀ values) (fun _ => u.Left s₀) := by
  apply ensures_announce
  intro t simulator results dump hooks
  have told : u.Trails s₀ values t := by
    refine ⟨trails.dump.of_dump_eq dump, ?_, trails.readable.grow dump fun _ mem => by rwa [simulator]⟩
    rw [Session.cycles, hooks, List.filterMap_append, List.filterMap_cons_none uncounted,
      List.filterMap_nil, List.append_nil]
    exact trails.cycles
  exact ⟨told, fun _ _ => told.left⟩

/-- Whatever a run comes to, the dump has followed the cycles that the monitor was told of, apart perhaps
    from the last; if the run succeeds it has followed all of them. -/
theorem ensures_run_followed (readable : u.Readable s) :
    u.run.Ensures s (fun _ t => ∃ values, u.Trails s values t) (fun _ => u.Left s) := by
  have start : u.Trails s [] s := ⟨u.follows_nil s, by simp, readable⟩
  apply ensures_get
  apply (start.announce rfl).bind
  intro _ r trails
  have first := (u.ensures_firstCycle_told r).and
    ((lasting_readable u).invariant.firstCycle r trails.readable)
  apply (first.mono (fun _ _ h => h) fun _ _ h => h.1.left trails rfl).bind
  intro _ t ⟨ended, readable⟩
  have dumped := ensures_startDump_followed readable (ended.dump.trans trails.dump.dump_eq)
  apply (dumped.mono (fun _ _ h => h) fun _ _ h => h.elim).bind
  intro _ q ⟨alike, dump⟩
  apply ensures_get
  have later := ensures_laterCycles_followed (ended.trails trails rfl readable alike dump) (by simp)
    (q.simulator.length - 1)
  apply later.bind
  intro _ r ⟨values, trails⟩
  apply ensures_modify
  apply ensures_get
  have published : u.Trails s values { r with results := r.simulator.results } :=
    ⟨trails.dump, trails.cycles, trails.readable⟩
  exact (published.announce rfl).mono (fun _ _ trails => ⟨values, trails⟩) fun _ _ h => h

theorem followed_run (readable : u.Readable s) :
    ∃ dumped more, u.Follows dumped s (u.run.after s) ∧ more.length ≤ 1 ∧
      (u.run.ending s = .ok () → more = []) ∧
      (u.run.after s).cycles = s.cycles ++ (dumped ++ more).mapIdx (fun cycle v => ((cycle : Int), v)) ∧
      ∀ i v, dumped[i]? = some v → u.Reaches s.simulator i v := by
  have followed : ∃ dumped more, u.Follows dumped s (u.run.after s) ∧ more.length ≤ 1 ∧
      (u.run.ending s = .ok () → more = []) ∧ (u.run.after s).cycles =
        s.cycles ++ (dumped ++ more).mapIdx fun cycle v => ((cycle : Int), v) := by
    unfold Operation.after Operation.ending
    cases found : u.run s with
    | ok _ t =>
        obtain ⟨values, trails⟩ := (ensures_run_followed readable).of_ok found
        exact ⟨values, [], trails.dump, by simp, fun _ => rfl, by rw [List.append_nil, trails.cycles]⟩
    | error e t =>
        obtain ⟨dumped, more, dump, short, cycles⟩ := (ensures_run_followed readable).of_error found
        exact ⟨dumped, more, dump, short, fun success => (nomatch success), cycles⟩
  obtain ⟨dumped, more, dump, short, complete, cycles⟩ := followed
  refine ⟨dumped, more, dump, short, complete, cycles, fun i v found => ?_⟩
  -- the cycles that were told are also known as those that the circuit computes
  obtain ⟨values, also, reached⟩ := u.cycles_run s
  have numbered : values.mapIdx (fun cycle v => ((cycle : Int), v)) =
      (dumped ++ more).mapIdx fun cycle v => ((cycle : Int), v) :=
    List.append_cancel_left (also.symm.trans cycles)
  have here := congrArg (·[i]?) numbered
  have inside : i < dumped.length := (List.getElem?_eq_some_iff.mp found).1
  simp only [List.getElem?_mapIdx, List.getElem?_append_left inside, found, Option.map_some] at here
  obtain ⟨_, present, same⟩ := Option.map_eq_some_iff.mp here
  cases same
  exact reached i v present

theorem dump_after_onVariables (phase : Phase Unit) (s : Session) :
    ((onVariables phase).after s).dump = s.dump := by
  unfold Operation.after onVariables
  cases phase s.simulator.vars <;> rfl

theorem followed_act (act : Act) (readable : u.Readable s) :
    ∃ values, u.Follows values s ((act.operation u).after s) := by
  have kept : ∀ {op : Operation Unit}, (op.after s).dump = s.dump →
      ∃ values, u.Follows values s (op.after s) := by
    exact fun same => ⟨[], (u.follows_nil s).of_dump_eq same⟩
  cases act with
  | write signal value => exact kept (dump_after_onVariables (Phase.assign signal value) s)
  | call call =>
      cases call with
      | run =>
          have ran : u.run.Ensures s (fun _ => u.Left s) (fun _ => u.Left s) :=
            (ensures_run_followed readable).mono (fun _ _ ⟨_, trails⟩ => trails.left) fun _ _ h => h
          obtain ⟨dumped, -, follows, -⟩ := ran.after
          exact ⟨dumped, follows⟩
      | firstCycle =>
          apply kept
          have ran : u.firstCycle.Ensures s (fun _ t => t.dump = s.dump) (fun _ t => t.dump = s.dump) :=
            (u.ensures_firstCycle_told s).mono (fun _ _ ended => ended.dump) fun _ _ halted => halted.dump
          exact ran.after
      | nextCycle cycle =>
          apply kept
          have ran : (u.nextCycle cycle).Ensures s (fun _ t => t.dump = s.dump)
              (fun _ t => t.dump = s.dump) :=
            (u.ensures_nextCycle_told s cycle).mono (fun _ _ ended => ended.dump)
              fun _ _ halted => halted.dump
          exact ran.after
      | resetLatches => exact kept (dump_after_onVariables _ s)
      | copyLatches => exact kept (dump_after_onVariables _ s)

end Setup

/-- A property of dumps alone holds on every bench if new dumps have it, and opening and closing files and
    following runs preserve it. -/
theorem Bench.stable_of_followed {P : Dump → Prop} (new : P {}) (opened : ∀ {d}, P d → P d.openFile)
    (closed : ∀ {d}, P d → P d.close)
    (followed : ∀ {u : Setup} {d d' values}, u.Followed d values d' → P d → P d') :
    Stable fun _ => P where
  outlast h _ := h
  new := new
  openFile := opened
  close := closed
  act := by
    intro b shelf rig r design act reachable holds before d' left
    obtain ⟨values, follows⟩ := Setup.followed_act act (reachable.readable holds)
    obtain ⟨d, watching, chain⟩ := follows.to_some left
    exact followed chain (before d watching)

namespace Bench

variable {b b' : Bench} {shelf shelf' : List Dump}

theorem Change.transcripts (change : Change b shelf b' shelf') (reachable : b.Reachable shelf) :
    ∀ d ∈ b.dump.toList ++ shelf, ∃ d' ∈ b'.dump.toList ++ shelf', d.transcript <+: d'.transcript := by
  have replaced : ∀ {f : Dump → Dump}, (∀ d, d.transcript <+: (f d).transcript) →
      ∀ d ∈ b.dump.toList ++ shelf,
        ∃ d' ∈ (b.dump.map f).toList ++ shelf, d.transcript <+: d'.transcript := by
    intro f grows d mem
    rcases List.mem_append.mp mem with used | aside
    · exact ⟨f d, by simp [Option.mem_toList.mp used], grows d⟩
    · exact ⟨d, List.mem_append_right _ aside, List.prefix_rfl⟩
  cases change with
  | addRig added =>
      rw [(outlasts_addRig added).2]
      exact fun d mem => ⟨d, mem, List.prefix_rfl⟩
  | act act done =>
      obtain ⟨r, design, holds⟩ := holds_of_perform done
      rw [perform_eq holds] at done
      cases done
      intro d mem
      rcases List.mem_append.mp mem with used | aside
      · obtain ⟨values, follows⟩ := Setup.followed_act act (reachable.readable holds)
        obtain ⟨d', left, followed⟩ := follows.of_some (Option.mem_toList.mp used)
        exact ⟨d', List.mem_append_left _ (Option.mem_toList.mpr left), followed.transcript_grows⟩
      · exact ⟨d, List.mem_append_right _ aside, List.prefix_rfl⟩
  | openFile => exact replaced fun d => by simp
  | closeFile => exact replaced fun d => by simp
  | newDump => exact fun d mem => ⟨d, List.mem_append_right _ mem, List.prefix_rfl⟩
  | noDump => exact fun d mem => ⟨d, mem, List.prefix_rfl⟩
  | useDump =>
      intro d mem
      refine ⟨d, ?_, List.prefix_rfl⟩
      simp only [Option.toList_some, List.singleton_append, List.mem_cons, List.mem_append] at mem ⊢
      tauto
  | addDesign | revise | adjust => exact fun d mem => ⟨d, mem, List.prefix_rfl⟩

/-- Nothing that was ever written is taken back: whatever is done with a bench, every dump goes on from what
    it has written before. -/
theorem Leads.transcripts (leads : b.Leads shelf b' shelf') (reachable : b.Reachable shelf) :
    ∀ d ∈ b.dump.toList ++ shelf, ∃ d' ∈ b'.dump.toList ++ shelf', d.transcript <+: d'.transcript := by
  induction leads with
  | refl => exact fun d mem => ⟨d, mem, List.prefix_rfl⟩
  | step before change ih =>
      intro d mem
      obtain ⟨d₁, inside, earlier⟩ := ih d mem
      obtain ⟨d₂, inside', later⟩ := change.transcripts (Leads.trans reachable before) d₁ inside
      exact ⟨d₂, inside', earlier.trans later⟩

end Bench

end SyncCircuit
