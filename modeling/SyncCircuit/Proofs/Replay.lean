import SyncCircuit.Proofs.Following
import SyncCircuit.Proofs.Identifiers

/-! # Replaying a dump

Whoever replays the blocks that a run wrote has after each of them the values of all registered signals at
the end of that cycle, those of other simulators among them. The identifiers are distinct, as in any dump
that was put to use (`Bench.Reachable.dumps`), and what the dump remembers as shown survives runs, files and
times without a file, but agrees with what a run has written from its first block on (`Setup.Narrated`).
-/

namespace SyncCircuit

theorem Dump.Reachable.registerSignals {d : Dump} (reachable : d.Reachable) (u : Setup)
    (vars : Bindings Bool) : (u.registerSignals vars d).Reachable := by
  unfold Setup.registerSignals
  generalize u.circuit.signalNames.filter vars.contains = signals
  induction signals generalizing d with
  | nil => exact reachable
  | cons signal rest ih => exact ih (reachable.register ..)

theorem Setup.Followed.reachable {u : Setup} {d d' : Dump} {values : List (Bindings Bool)}
    (followed : u.Followed d values d') (reachable : d.Reachable) : d'.Reachable := by
  induction followed with
  | unseen => exact reachable
  | first dumped => exact .dumpInitial (reachable.registerSignals u _) dumped
  | next _ _ dumped ih => exact .dumpChanges ih dumped

/-- Whatever is done with a bench, nothing becomes of its dumps that cannot become of a dump alone. -/
theorem Bench.Reachable.dumps {b : Bench} {shelf : List Dump} (reachable : b.Reachable shelf) :
    ∀ d ∈ b.dump.toList ++ shelf, d.Reachable :=
  (stable_of_followed .new .openFile .close Setup.Followed.reachable).holds reachable

namespace Setup

open Operation

variable {u : Setup} {d d' : Dump} {values : List (Bindings Bool)} {channels : List Channel}

/-- The value of a channel at the end of the cycle before some cycle. -/
def valueBefore (u : Setup) (values : List (Bindings Bool)) (i : Nat) (c : Channel) : Option Bool :=
  match i with
  | 0 => none
  | j + 1 => values[j]?.bind (u.value · c)

/-- The blocks that tell of cycles: all values first, and then what changes. -/
def narration (u : Setup) (channels : List Channel) (values : List (Bindings Bool)) : List Block :=
  values.mapIdx fun i v => ⟨i, Dump.lines channels (u.valueBefore values i) (u.value v)⟩

theorem valueBefore_length (u : Setup) (values : List (Bindings Bool)) :
    u.valueBefore values values.length = fun c => values.getLast?.bind (u.value · c) := by
  funext c
  cases values with
  | nil => rfl
  | cons v rest => rw [List.getLast?_eq_getElem?, List.length_cons, valueBefore, Nat.add_sub_cancel]

theorem valueBefore_succ {j : Nat} {v : Bindings Bool} (found : values[j]? = some v) :
    u.valueBefore values (j + 1) = u.value v := by
  funext c
  rw [valueBefore, found, Option.bind_some]

theorem narration_concat (u : Setup) (channels : List Channel) (values : List (Bindings Bool))
    (v : Bindings Bool) :
    u.narration channels (values ++ [v]) = u.narration channels values ++
      [⟨values.length,
        Dump.lines channels (fun c => values.getLast?.bind (u.value · c)) (u.value v)⟩] := by
  have earlier : ∀ i ≤ values.length, u.valueBefore (values ++ [v]) i = u.valueBefore values i := by
    intro i inside
    cases i with
    | zero => rfl
    | succ j =>
        funext c
        simp only [valueBefore, List.getElem?_append_left (show j < values.length by omega)]
  rw [narration, List.mapIdx_concat, earlier _ (Nat.le_refl _), valueBefore_length, narration]
  congr 1
  rw [List.mapIdx_eq_mapIdx_iff]
  intro i inside
  rw [earlier i (by omega)]

theorem narration_shown (u : Setup) (channels : List Channel) (values : List (Bindings Bool))
    (now : Channel → Option Bool) :
    u.narration (channels.map fun c => { c with shown := now c }) values =
      u.narration channels values := by
  rw [narration, narration, List.mapIdx_eq_mapIdx_iff]
  intro i inside
  simp only [Dump.lines, List.filterMap_map, Block.mk.injEq, true_and]
  refine List.filterMap_congr fun c _ => ?_
  cases i <;> rfl

/-- A run has added blocks about its cycles to the open file of a dump. -/
structure Narrated (u : Setup) (d : Dump) (before : List Command) (new : List Channel)
    (values : List (Bindings Bool)) (d' : Dump) : Prop where
  archive : d'.archive = d.archive
  file : ∃ written, d'.file = some (before ++ written) ∧
    blocks written = u.narration d'.channels values ∧
    written.filterMap Command.line? = (blocks written).flatMap (·.lines)
  channels : d'.channels =
    (d.channels ++ new).map fun c => { c with shown := values.getLast?.bind (u.value · c) }
  bound : ∀ v ∈ values, ∀ c ∈ d.channels ++ new, ∃ bit, u.value v c = some bit

theorem Followed.narrated {before : List Command} (followed : u.Followed d values d')
    (opened : d.file = some before) (begun : values ≠ []) :
    ∃ v new, values.head? = some v ∧ u.Registered v new ∧ u.Narrated d before new values d' := by
  induction followed with
  | unseen => exact absurd rfl begun
  | @first v d' dumped =>
      obtain ⟨new, registered, same⟩ := u.registerSignals_eq v d
      refine ⟨v, new, rfl, registered, ?_⟩
      have isOpen : (u.registerSignals v d).isOpen = true := by simp [same, Dump.isOpen, opened]
      have wrote := Dump.dumpInitial_ok isOpen dumped
      rw [toOption_readChannel, same] at wrote
      constructor
      · rw [wrote.archive_eq]
      · refine ⟨_, wrote.file_eq opened, ?_⟩
        have text := Dump.blocks_opening
          { d with channels := d.channels ++ new, issued := d.issued + new.length } (u.value v) 0 []
        -- whether they are written or not, the declarations come before the first time stamp
        have undated : blocks ([] ++ if d.declared then [] else
            Dump.declarations (d.channels ++ new)) = [] := by
          split
          · rfl
          · exact Dump.blocks_declarations _
        rw [List.nil_append, undated, List.nil_append] at text
        constructor
        · rw [text, wrote.channels_eq, narration_shown]
          rfl
        · rw [text, Dump.filterMap_line?_opening]
          simp
      · exact wrote.channels_eq
      · intro w mem
        cases List.mem_singleton.mp mem
        exact wrote.bound
  | @next values v d₁ d₂ followed started dumped ih =>
      obtain ⟨w, new, first, registered, narrated⟩ := ih started
      obtain ⟨written, file, told, complete⟩ := narrated.file
      have isOpen : d₁.isOpen = true := by simp [Dump.isOpen, file]
      have wrote := Dump.dumpChanges_ok isOpen dumped
      rw [toOption_readChannel] at wrote
      -- the dump compares with what it has shown, and that is the end of the cycle before
      have shown : Dump.lines d₁.channels (·.shown) (u.value v) =
          Dump.lines d₁.channels (fun c => values.getLast?.bind (u.value · c)) (u.value v) := by
        refine List.filterMap_congr fun c mem => ?_
        rw [narrated.channels] at mem
        obtain ⟨old, -, rfl⟩ := List.mem_map.mp mem
        rfl
      refine ⟨w, new, ?_, registered, ?_⟩
      · rw [List.head?_append_of_ne_nil _ started, first]
      constructor
      · rw [wrote.archive_eq, narrated.archive]
      · refine ⟨written ++ d₁.continuation (u.value v) values.length, ?_, ?_, ?_⟩
        · rw [wrote.file_eq file, List.append_assoc]
        · rw [Dump.blocks_continuation, told, shown, ← narration_concat, wrote.channels_eq,
            narration_shown]
        · rw [Dump.blocks_continuation, List.filterMap_append, complete,
            Dump.filterMap_line?_continuation]
          simp
      · rw [wrote.channels_eq, narrated.channels, List.map_map, List.getLast?_concat]
        rfl
      · intro x mem c inside
        rcases List.mem_append.mp mem with old | last
        · exact narrated.bound x old c inside
        · cases List.mem_singleton.mp last
          have watched := wrote.bound { c with shown := values.getLast?.bind (u.value · c) } (by
            rw [narrated.channels]
            exact List.mem_map_of_mem inside)
          exact watched

theorem length_narration (u : Setup) (channels : List Channel) (values : List (Bindings Bool)) :
    (u.narration channels values).length = values.length := by
  simp [narration]

/-- After any number of blocks the last value of every identifier is that of its signal. -/
theorem replay_narration (distinct : (channels.map (·.id)).Nodup)
    (bound : ∀ v ∈ values, ∀ c ∈ channels, ∃ bit, u.value v c = some bit) {i : Nat}
    (inside : i ≤ values.length) : ∀ c ∈ channels,
      (replay ((u.narration channels values).take i)).get? c.id = u.valueBefore values i c := by
  induction i with
  | zero => exact fun c _ => rfl
  | succ i ih =>
      have here : i < values.length := by omega
      have block : (u.narration channels values)[i]? = some ⟨i,
          Dump.lines channels (u.valueBefore values i) (u.value values[i])⟩ := by
        simp [narration, List.getElem?_eq_getElem here]
      intro c mem
      rw [List.take_add_one, block, Option.toList_some, replay_append,
        Dump.get?_lines distinct (bound _ (List.getElem_mem here)) (ih (by omega)) c mem,
        valueBefore_succ (List.getElem?_eq_getElem here)]

theorem id_mem_of_mem_replay {i : Nat} {id : String}
    (mem : id ∈ (replay ((u.narration channels values).take i)).names) : ∃ c ∈ channels, c.id = id := by
  rw [replay, Bindings.names_ofList, List.mem_eraseDups] at mem
  obtain ⟨line, written, rfl⟩ := List.mem_map.mp mem
  obtain ⟨block, told, listed⟩ := List.mem_flatMap.mp written
  obtain ⟨k, inside, rfl⟩ := List.mem_mapIdx.mp (List.mem_of_mem_take told)
  exact Dump.id_mem_of_mem_lines listed

/-- Block `i` of a run and those before it tell the state at the end of cycle `i`, of which the monitor was
    told. The first `old` channels were registered before the run, the others by it. -/
structure Tells (u : Setup) (start : Simulator) (channels : List Channel) (old : Nat)
    (cycles : List (Int × Bindings Bool)) (text : List Block) (i : Nat) (block : Block)
    (snapshot : Bindings Bool) : Prop where
  told : cycles[i]? = some ((i : Int), snapshot)
  stamp : block.stamp = i
  current : ∀ c ∈ channels, ∃ bit, u.value snapshot c = some bit ∧
    (replay (text.take (i + 1))).get? c.id = some bit
  registered : ∀ id ∈ (replay (text.take (i + 1))).names, ∃ c ∈ channels, c.id = id
  own : ∀ name bit,
    (∃ c ∈ channels.drop old, c.name = name ∧ (replay (text.take (i + 1))).get? c.id = some bit) ↔
      name ∈ u.circuit.signalNames ∧ snapshot.get? name = some bit
  whole : start.vars = .empty → ∀ name ∈ snapshot.names, name ∈ u.circuit.signalNames
  changes : ∀ (j : Nat) earlier, i = j + 1 → cycles[j]? = some ((j : Int), earlier) →
    block.lines = Dump.lines channels (u.value earlier) (u.value snapshot)

theorem mem_signalNames_of_driven {c : Circuit} {name : String} (driven : name ∈ c.driven) :
    name ∈ c.signalNames := by
  simp only [Circuit.signalNames, Circuit.driven, Circuit.latchOutputs, List.mem_eraseDups,
    List.mem_append, List.mem_flatMap, List.mem_map, List.mem_cons] at driven ⊢
  grind

section Tells

variable {before : List Command} {new : List Channel} {first : Bindings Bool} {start : Simulator}

theorem Narrated.reads (narrated : u.Narrated d before new values d') :
    ∀ v ∈ values, ∀ c ∈ d'.channels, ∃ bit, u.value v c = some bit := by
  intro v mem c inside
  rw [narrated.channels] at inside
  obtain ⟨old, watched, rfl⟩ := List.mem_map.mp inside
  exact narrated.bound v mem old watched

theorem Narrated.drop_channels (narrated : u.Narrated d before new values d') :
    d'.channels.drop d.channels.length =
      new.map fun c => { c with shown := values.getLast?.bind (u.value · c) } := by
  rw [narrated.channels, List.map_append, List.drop_left' (by simp)]

theorem Narrated.tells (narrated : u.Narrated d before new values d')
    (registered : u.Registered first new) (head : values.head? = some first)
    (distinct : (d'.channels.map (·.id)).Nodup)
    (reached : ∀ i v, values[i]? = some v → u.Reaches start i v) (more : List (Bindings Bool))
    {i : Nat} {v : Bindings Bool} (found : values[i]? = some v) :
    u.Tells start d'.channels d.channels.length
      ((values ++ more).mapIdx fun cycle v => ((cycle : Int), v)) (u.narration d'.channels values) i
      ⟨i, Dump.lines d'.channels (u.valueBefore values i) (u.value v)⟩ v := by
  have inside : i < values.length := (List.getElem?_eq_some_iff.mp found).1
  have shown : ∀ c ∈ d'.channels,
      (replay ((u.narration d'.channels values).take (i + 1))).get? c.id = u.value v c := by
    intro c mem
    rw [replay_narration distinct narrated.reads (by omega) c mem, valueBefore_succ found]
  -- all cycles bind the same names, so that what is bound now was bound when it could be registered
  have names : ∀ name, name ∈ v.names ↔ name ∈ first.names := by
    intro name
    have zeroth : values[0]? = some first := by rw [← List.head?_eq_getElem?, head]
    exact ((reached i v found).mem_names name).trans ((reached 0 first zeroth).mem_names name).symm
  have told : ∀ (j : Nat) w, values[j]? = some w → ((values ++ more).mapIdx fun cycle v =>
      ((cycle : Int), v))[j]? = some ((j : Int), w) := by
    intro j w present
    rw [List.getElem?_mapIdx, List.getElem?_append_left (List.getElem?_eq_some_iff.mp present).1, present,
      Option.map_some]
  constructor
  · exact told i v found
  · rfl
  · intro c mem
    obtain ⟨bit, bound⟩ := narrated.reads v (List.mem_of_getElem? found) c mem
    exact ⟨bit, bound, (shown c mem).trans bound⟩
  · exact fun id mem => id_mem_of_mem_replay mem
  · intro name bit
    constructor
    · rintro ⟨c, mem, rfl, replayed⟩
      rw [shown c (List.mem_of_mem_drop mem)] at replayed
      rw [narrated.drop_channels] at mem
      obtain ⟨original, fresh, rfl⟩ := List.mem_map.mp mem
      have listed : original.name ∈ u.circuit.signalNames.filter first.contains :=
        registered.names ▸ List.mem_map_of_mem fresh
      refine ⟨(List.mem_filter.mp listed).1, ?_⟩
      rwa [value, if_pos (registered.source original fresh)] at replayed
    · rintro ⟨listed, present⟩
      have bound : first.contains name = true := (Bindings.contains_iff_mem_names _ _).mpr
        ((names name).mp ((Bindings.mem_names_iff _ _).mpr ⟨bit, present⟩))
      have chosen : name ∈ new.map (·.name) :=
        registered.names ▸ List.mem_filter.mpr ⟨listed, bound⟩
      obtain ⟨original, fresh, rfl⟩ := List.mem_map.mp chosen
      refine ⟨{ original with shown := values.getLast?.bind (u.value · original) }, ?_, rfl, ?_⟩
      · rw [narrated.drop_channels]
        exact List.mem_map_of_mem fresh
      · rw [shown _ (by
          rw [narrated.channels]
          exact List.mem_map_of_mem (List.mem_append_right _ fresh))]
        rwa [value, if_pos (registered.source original fresh)]
  · intro empty name mem
    rcases ((reached i v found).mem_names name).mp mem with leftover | driven
    · rw [empty] at leftover
      cases leftover
    · exact mem_signalNames_of_driven driven
  · rintro j earlier rfl present
    have before := List.getElem?_eq_getElem (show j < values.length by omega)
    rw [told j _ before] at present
    cases present
    rw [valueBefore_succ before]

/-- A run has added blocks to an open file that tell what the monitor was told, and nothing else has
    changed about the files and the old channels. -/
structure Agrees (u : Setup) (start : Simulator) (d : Dump) (before : List Command)
    (cycles : List (Int × Bindings Bool)) (d' : Dump) (written : List Command) : Prop where
  archive : d'.archive = d.archive
  file : d'.file = some (before ++ written)
  lines : written.filterMap Command.line? = (blocks written).flatMap (·.lines)
  kept : d.channels.map (·.id) <+: d'.channels.map (·.id)
  distinct : (d'.channels.map (·.id)).Nodup
  tells : ∀ i block, (blocks written)[i]? = some block → ∃ snapshot,
    u.Tells start d'.channels d.channels.length cycles (blocks written) i block snapshot

theorem Followed.agrees (followed : u.Followed d values d') (opened : d.file = some before)
    (distinct : (d'.channels.map (·.id)).Nodup)
    (reached : ∀ i v, values[i]? = some v → u.Reaches start i v) (more : List (Bindings Bool)) :
    ∃ written, (blocks written).length = values.length ∧
      u.Agrees start d before ((values ++ more).mapIdx fun cycle v => ((cycle : Int), v)) d' written := by
  by_cases begun : values = []
  · cases begun
    cases followed.eq_of_nil
    refine ⟨[], rfl, rfl, ?_, rfl, List.prefix_rfl, distinct, ?_⟩
    · rw [opened, List.append_nil]
    · intro i block found
      cases found
  · obtain ⟨first, new, head, registered, narrated⟩ := followed.narrated opened begun
    obtain ⟨written, file, told, complete⟩ := narrated.file
    refine ⟨written, ?_, narrated.archive, file, complete, ?_, distinct, ?_⟩
    · rw [told, length_narration]
    · rw [narrated.channels, List.map_map, List.map_append]
      exact List.prefix_append _ _
    · intro i block found
      rw [told] at found ⊢
      rw [narration, List.getElem?_mapIdx] at found
      obtain ⟨v, present, rfl⟩ := Option.map_eq_some_iff.mp found
      exact ⟨v, narrated.tells registered head distinct reached more present⟩

end Tells

end Setup

/-- The cycles that the monitor was told of. -/
def Report.cycles {α : Type} (report : Report α) : List (Int × Bindings Bool) :=
  report.events.filterMap fun
    | .hook occasion => occasion.ended?
    | .log _ => none

theorem Report.cycles_of_journal {α : Type} (outcome : Except SimError α) (s : Session) (b : Bench) :
    Report.cycles ⟨outcome, s.journal, b⟩ = s.cycles := by
  rw [Report.cycles, Session.cycles, Session.hooks, List.filterMap_filterMap]
  refine List.filterMap_congr fun event _ => ?_
  cases event <;> rfl

namespace Bench

open Operation

variable {b : Bench} {rig : Nat} {r : Rig} {design : Design} {shelf : List Dump} {d : Dump}
  {before : List Command}

/-- A dump agrees with the monitor. Whatever was done with a bench before, a run beside a dump with an open
    file adds blocks to that file, one for each cycle that the monitor was told of, except perhaps the
    last if the run fails. After each of them the last values that the run has written are those of all
    registered signals at the end of the cycle; for the signals that the run has registered they make up
    the valuation that the monitor was told, as far as it is of signals of the circuit, and for a new
    simulator the whole of it. From the second block on there is one line for each value that has changed,
    in the order of registration. -/
theorem dump_agrees_with_monitor (reachable : b.Reachable shelf) (holds : b.Holds rig r design)
    (watching : b.dump = some d) (opened : d.file = some before) :
    ∃ report d' written, b.perform rig Setup.run = some report ∧ report.bench.dump = some d' ∧
      (b.setup rig r design).Agrees r.simulator d before report.cycles d' written ∧
      (blocks written).length ≤ report.cycles.length ∧
      report.cycles.length ≤ (blocks written).length + 1 ∧
      (report.outcome = .ok () → report.cycles.length = (blocks written).length) := by
  obtain ⟨dumped, more, follows, short, complete, cycles, reached⟩ :=
    Setup.followed_run (reachable.readable holds)
  have ran := perform_eq holds Setup.run
  have dumps := Reachable.dumps (.step reachable (.act (.call .run) ran))
  obtain ⟨d', left, followed⟩ := follows.of_some watching
  have distinct : (d'.channels.map (·.id)).Nodup := by
    refine (dumps d' (List.mem_append_left _ ?_)).nodup_ids
    rw [Option.mem_toList]
    exact left
  obtain ⟨written, length, agrees⟩ := followed.agrees opened distinct reached more
  have none : (b.session r design).cycles = [] := rfl
  refine ⟨_, d', written, ran, left, ?_⟩
  rw [Report.cycles_of_journal, cycles, none, List.nil_append, List.length_mapIdx, List.length_append,
    length]
  refine ⟨agrees, by omega, by omega, fun success => ?_⟩
  rw [complete success, List.length_nil, Nat.add_zero]

theorem dump_agrees_with_monitor_relayed :
    ∃ d before design, relayed.dump = some d ∧ d.file = some before ∧ d.channels.length = 4 ∧
      relayed.Holds 1 idleRelay design ∧
      ∃ report d' written, relayed.perform 1 Setup.run = some report ∧
        (relayed.setup 1 idleRelay design).Agrees idleRelay.simulator d before report.cycles d'
          written := by
  have holds : relayed.Holds 1 idleRelay _ := ⟨rfl, rfl⟩
  have opened : (relayed.dump.bind (·.file)).isSome = true ∧
      relayed.dump.map (·.channels.length) = some 4 := by decide +kernel
  obtain ⟨before, written⟩ := Option.isSome_iff_exists.mp opened.1
  obtain ⟨d, watching, file⟩ := Option.bind_eq_some_iff.mp written
  have four : d.channels.length = 4 := by simpa [watching] using opened.2
  obtain ⟨report, d', written, ran, -, agrees, -⟩ :=
    dump_agrees_with_monitor reachable_relayed holds watching file
  exact ⟨d, before, _, watching, file, four, holds, report, d', written, ran, agrees⟩

end Bench

end SyncCircuit
