import Mathlib.Data.List.Basic
import Mathlib.Data.List.TakeWhile
import SyncCircuit.Dump
import SyncCircuit.Proofs.Writes

/-! # The text of a dump

What a dump adds to its file when it starts to follow a run (`Dump.opening`) and after each later cycle
(`Dump.continuation`), and how it reads: a file is a sequence of blocks, each with a time and the values
that were written at it, and who replays them remembers the last value of every identifier. The lines of a
block turn earlier values into the present ones, although only those are written that differ.
-/

namespace SyncCircuit

namespace Dump

variable {ε : Type} {read : Channel → Except ε Bool} {d d' : Dump} {stamp : Int}

/-- The values that differ from earlier ones, with the identifiers of their channels. -/
def lines (channels : List Channel) (earlier now : Channel → Option Bool) : List (String × Bool) :=
  channels.filterMap fun c => if earlier c = now c then none else (now c).map (c.id, ·)

def lineCommands (lines : List (String × Bool)) : List Command :=
  lines.map fun line => .value line.2 line.1

/-- A dump that has shown the present values of its channels. -/
def showing (d : Dump) (now : Channel → Option Bool) : Dump :=
  { d with channels := d.channels.map fun c => { c with shown := now c } }

theorem sample_eq_ok {channels : List Channel} {values : List Bool}
    (h : sample read channels = .ok values) :
    channels.map (fun c => (read c).toOption) = values.map some := by
  induction channels generalizing values with
  | nil =>
      cases h
      rfl
  | cons c rest ih =>
      cases found : read c with
      | error e => simp [sample, found, bind, Except.bind] at h
      | ok bit =>
          cases others : sample read rest with
          | error e => simp [sample, found, others, bind, Except.bind] at h
          | ok bits =>
              simp only [sample, found, others, bind, Except.bind, pure, Except.pure,
                Except.ok.injEq] at h
              rw [← h, List.map_cons, List.map_cons, ih others, found]
              rfl

section Values

variable {channels : List Channel} {values : List Bool} {now : Channel → Option Bool}
  (sampled : channels.map now = values.map some)
include sampled

theorem bound_of_sampled : ∀ c ∈ channels, ∃ bit, now c = some bit := by
  intro c mem
  have inside : now c ∈ values.map some := sampled ▸ List.mem_map_of_mem mem
  obtain ⟨bit, -, found⟩ := List.mem_map.mp inside
  exact ⟨bit, found.symm⟩

theorem filterMap_zip {β : Type} (f : Channel → Option Bool → Option β) :
    (channels.zip values).filterMap (fun p => f p.1 (some p.2)) =
      channels.filterMap fun c => f c (now c) := by
  induction channels generalizing values with
  | nil => rfl
  | cons c rest ih =>
      cases values with
      | nil => cases sampled
      | cons bit bits =>
          obtain ⟨first, others⟩ := List.cons.inj sampled
          simp only [List.zip_cons_cons, List.filterMap_cons, ih others, first]

theorem allValues_eq :
    allValues channels values = lineCommands (lines channels (fun _ => none) now) := by
  rw [allValues, ← List.filterMap_eq_map, lineCommands, lines, List.map_filterMap]
  refine (filterMap_zip sampled fun c bit => bit.map (valueCommand c)).trans ?_
  refine List.filterMap_congr fun c _ => ?_
  cases now c <;> rfl

theorem changes_eq : changes channels values = lineCommands (lines channels (·.shown) now) := by
  rw [lineCommands, lines, List.map_filterMap]
  refine (filterMap_zip sampled fun c bit =>
    if c.shown = bit then none else bit.map (valueCommand c)).trans ?_
  refine List.filterMap_congr fun c _ => ?_
  split
  · rfl
  · cases now c <;> rfl

theorem remember_eq (d : Dump) (kept : d.channels = channels) : d.remember values = d.showing now := by
  have shown : (channels.zip values).map (fun p => { p.1 with shown := some p.2 }) =
      channels.map fun c => { c with shown := now c } := by
    rw [← List.filterMap_eq_map, ← List.filterMap_eq_map]
    exact filterMap_zip sampled fun c bit => some { c with shown := bit }
  rw [remember, showing, kept]
  exact congrArg (fun channels => { d with channels }) shown

end Values

/-- All values, between their marks. -/
def initialValues (channels : List Channel) (now : Channel → Option Bool) : List Command :=
  .dumpVars :: lineCommands (lines channels (fun _ => none) now) ++ [.endVars]

/-- What `dumpInitial` adds to the file. -/
def opening (d : Dump) (now : Channel → Option Bool) (stamp : Int) : List Command :=
  (if d.declared then [] else declarations d.channels) ++ .time stamp :: initialValues d.channels now

/-- What `dumpChanges` adds to the file. -/
def continuation (d : Dump) (now : Channel → Option Bool) (stamp : Int) : List Command :=
  .time stamp :: lineCommands (lines d.channels (·.shown) now)

/-- All values can be read, and a dump has written them to its open file. -/
structure Wrote (d : Dump) (now : Channel → Option Bool) (commands : List Command) (declared : Bool)
    (d' : Dump) : Prop where
  bound : ∀ c ∈ d.channels, ∃ bit, now c = some bit
  result : d' = { (d.write commands).showing now with declared }

section Wrote

variable {now : Channel → Option Bool} {commands : List Command} {declared : Bool}
  (wrote : d.Wrote now commands declared d')
include wrote

theorem Wrote.channels_eq : d'.channels = d.channels.map fun c => { c with shown := now c } := by
  rw [wrote.result]
  rfl

theorem Wrote.issued_eq : d'.issued = d.issued := by
  rw [wrote.result]
  rfl

theorem Wrote.archive_eq : d'.archive = d.archive := by
  rw [wrote.result]
  rfl

theorem Wrote.declared_eq : d'.declared = declared := by
  rw [wrote.result]

theorem Wrote.file_eq {before : List Command} (opened : d.file = some before) :
    d'.file = some (before ++ commands) := by
  rw [wrote.result]
  simp [write, showing, opened]

theorem Wrote.transcript_eq (opened : d.isOpen = true) : d'.transcript = d.transcript ++ commands := by
  rw [wrote.result]
  exact transcript_write opened commands

end Wrote

/-- A dump with an open file samples its channels, writes, and remembers what it has shown. -/
theorem eq_remember_of_ok {write : List Bool → Dump} (opened : d.isOpen = true)
    (h : (if d.isOpen then do
        let values ← sample read d.channels
        return (write values).remember values
      else return d) = .ok d') :
    ∃ values, d.channels.map (fun c => (read c).toOption) = values.map some ∧
      d' = (write values).remember values := by
  rw [if_pos opened] at h
  cases found : sample read d.channels with
  | error e => simp [found, bind, Except.bind] at h
  | ok values =>
      simp only [found, bind, Except.bind, pure, Except.pure, Except.ok.injEq] at h
      exact ⟨values, sample_eq_ok found, h.symm⟩

theorem dumpInitial_ok (opened : d.isOpen = true) (h : d.dumpInitial read stamp = .ok d') :
    d.Wrote (fun c => (read c).toOption) (d.opening (fun c => (read c).toOption) stamp) true d' := by
  obtain ⟨values, sampled, rfl⟩ := eq_remember_of_ok opened h
  refine ⟨bound_of_sampled sampled, ?_⟩
  rw [allValues_eq sampled, remember_eq sampled]
  · unfold declare opening initialValues
    cases declared : d.declared <;> simp [write, showing, declared, Function.comp_def]
  · unfold declare
    split <;> rfl

theorem dumpChanges_ok (opened : d.isOpen = true) (h : d.dumpChanges read stamp = .ok d') :
    d.Wrote (fun c => (read c).toOption) (d.continuation (fun c => (read c).toOption) stamp)
      d.declared d' := by
  obtain ⟨values, sampled, rfl⟩ := eq_remember_of_ok opened h
  refine ⟨bound_of_sampled sampled, ?_⟩
  rw [changes_eq sampled, remember_eq sampled]
  · rfl
  · rfl

theorem dumpInitial_closed (closed : d.isOpen = false) (h : d.dumpInitial read stamp = .ok d') :
    d' = d := by
  simp only [dumpInitial, closed, Bool.false_eq_true, if_false] at h
  cases h
  rfl

theorem dumpChanges_closed (closed : d.isOpen = false) (h : d.dumpChanges read stamp = .ok d') :
    d' = d := by
  simp only [dumpChanges, closed, Bool.false_eq_true, if_false] at h
  cases h
  rfl

/-- Whether a dump writes or has nowhere to write, what was written before stays. -/
theorem transcript_grows
    (opened : d.isOpen = true → ∃ now commands declared, d.Wrote now commands declared d')
    (closed : d.isOpen = false → d' = d) : d.transcript <+: d'.transcript := by
  cases state : d.isOpen with
  | true =>
      obtain ⟨now, commands, declared, wrote⟩ := opened state
      rw [wrote.transcript_eq state]
      exact List.prefix_append _ _
  | false =>
      cases closed state
      exact List.prefix_rfl

end Dump

namespace Command

def isTime : Command → Bool
  | .time _ => true
  | _ => false

/-- The identifier and the value of a value line. -/
def line? : Command → Option (String × Bool)
  | .value bit id => some (id, bit)
  | _ => none

end Command

/-- The values that were written at a time. -/
structure Block where
  stamp : Int
  lines : List (String × Bool)
  deriving DecidableEq

/-- The blocks of a text, each from a time to the next one. -/
def blocks : List Command → List Block
  | [] => []
  | .time stamp :: rest => ⟨stamp, (rest.takeWhile (!·.isTime)).filterMap Command.line?⟩ :: blocks rest
  | _ :: rest => blocks rest

/-- The last value of every identifier. -/
def replay (blocks : List Block) : Bindings Bool :=
  Bindings.ofList (blocks.flatMap (·.lines))

theorem blocks_append_of_timeless {commands : List Command}
    (timeless : ∀ command ∈ commands, command.isTime = false) (rest : List Command) :
    blocks (commands ++ rest) = blocks rest := by
  induction commands with
  | nil => rfl
  | cons command others ih =>
      have later := ih fun other mem => timeless other (List.mem_cons_of_mem _ mem)
      have here := timeless command List.mem_cons_self
      cases command with
      | time stamp => cases here
      | _ => exact later

theorem blocks_eq_nil {commands : List Command} (timeless : ∀ command ∈ commands, command.isTime = false) :
    blocks commands = [] := by
  have none := blocks_append_of_timeless timeless []
  rwa [List.append_nil] at none

theorem blocks_append_time {body : List Command} (timeless : ∀ command ∈ body, command.isTime = false)
    (written : List Command) (stamp : Int) :
    blocks (written ++ .time stamp :: body) =
      blocks written ++ [⟨stamp, body.filterMap Command.line?⟩] := by
  have all : body.takeWhile (!·.isTime) = body := by
    rw [List.takeWhile_eq_self_iff]
    intro command mem
    rw [timeless command mem]
    rfl
  induction written with
  | nil => simp only [List.nil_append, blocks, all, blocks_eq_nil timeless]
  | cons command rest ih =>
      have stops : (rest ++ .time stamp :: body).takeWhile (!·.isTime) = rest.takeWhile (!·.isTime) := by
        rw [List.takeWhile_append]
        split
        · rename_i complete
          rw [List.takeWhile_cons_of_neg (by simp [Command.isTime]), List.append_nil]
          exact ((List.takeWhile_prefix _).eq_of_length complete).symm
        · rfl
      cases command with
      | time other => simp only [List.cons_append, blocks, stops, ih]
      | _ => exact ih

theorem replay_append (before : List Block) (block : Block) :
    replay (before ++ [block]) =
      block.lines.foldl (fun f line => f.put line.1 line.2) (replay before) := by
  simp [replay, Bindings.ofList, List.flatMap_append, List.foldl_append]

namespace Dump

theorem isTime_lineCommands (ls : List (String × Bool)) :
    ∀ command ∈ lineCommands ls, command.isTime = false := by
  intro command mem
  obtain ⟨line, -, rfl⟩ := List.mem_map.mp mem
  rfl

theorem filterMap_line?_lineCommands (ls : List (String × Bool)) :
    (lineCommands ls).filterMap Command.line? = ls := by
  rw [lineCommands, List.filterMap_map]
  exact List.filterMap_some

theorem isTime_initialValues (channels : List Channel) (now : Channel → Option Bool) :
    ∀ command ∈ initialValues channels now, command.isTime = false := by
  intro command mem
  simp only [initialValues, List.cons_append, List.mem_cons, List.mem_append, List.not_mem_nil,
    or_false] at mem
  rcases mem with rfl | line | rfl
  · rfl
  · exact isTime_lineCommands _ command line
  · rfl

theorem filterMap_line?_initialValues (channels : List Channel) (now : Channel → Option Bool) :
    (initialValues channels now).filterMap Command.line? = lines channels (fun _ => none) now := by
  rw [initialValues, List.cons_append, List.filterMap_cons_none rfl, List.filterMap_append,
    filterMap_line?_lineCommands, List.filterMap_cons_none rfl, List.filterMap_nil, List.append_nil]

/-- The first block of a run has all values, and comes after the declarations, if there are any. -/
theorem blocks_opening (d : Dump) (now : Channel → Option Bool) (stamp : Int) (written : List Command) :
    blocks (written ++ d.opening now stamp) =
      blocks (written ++ if d.declared then [] else declarations d.channels) ++
        [⟨stamp, lines d.channels (fun _ => none) now⟩] := by
  rw [opening, ← List.append_assoc, blocks_append_time (isTime_initialValues _ _),
    filterMap_line?_initialValues]

theorem silent_declarations {channels : List Channel} {command : Command}
    (mem : command ∈ declarations channels) : command.isTime = false ∧ command.line? = none := by
  rcases mem_declarations.mp mem with ⟨c, -, ⟨module, -, rfl⟩ | rfl | ⟨rfl, -⟩⟩ | rfl <;> exact ⟨rfl, rfl⟩

theorem blocks_declarations (channels : List Channel) : blocks (declarations channels) = [] :=
  blocks_eq_nil fun _ mem => (silent_declarations mem).1

theorem blocks_continuation (d : Dump) (now : Channel → Option Bool) (stamp : Int)
    (written : List Command) :
    blocks (written ++ d.continuation now stamp) =
      blocks written ++ [⟨stamp, lines d.channels (·.shown) now⟩] := by
  rw [continuation, blocks_append_time (isTime_lineCommands _), filterMap_line?_lineCommands]

theorem filterMap_line?_opening (d : Dump) (now : Channel → Option Bool) (stamp : Int) :
    (d.opening now stamp).filterMap Command.line? = lines d.channels (fun _ => none) now := by
  have undeclared : (if d.declared then [] else declarations d.channels).filterMap Command.line? = [] := by
    rw [List.filterMap_eq_nil_iff]
    intro command mem
    split at mem
    · cases mem
    · exact (silent_declarations mem).2
  rw [opening, List.filterMap_append, undeclared, List.filterMap_cons_none rfl,
    filterMap_line?_initialValues, List.nil_append]

theorem filterMap_line?_continuation (d : Dump) (now : Channel → Option Bool) (stamp : Int) :
    (d.continuation now stamp).filterMap Command.line? = lines d.channels (·.shown) now := by
  rw [continuation, List.filterMap_cons_none rfl, filterMap_line?_lineCommands]

section Lines

variable {channels : List Channel} {earlier now : Channel → Option Bool} {f : Bindings Bool}

theorem id_mem_of_mem_lines {line : String × Bool} (mem : line ∈ lines channels earlier now) :
    ∃ c ∈ channels, c.id = line.1 := by
  obtain ⟨c, inside, written⟩ := List.mem_filterMap.mp mem
  split at written
  · cases written
  · obtain ⟨bit, -, rfl⟩ := Option.map_eq_some_iff.mp written
    exact ⟨c, inside, rfl⟩

theorem get?_lines_of_fresh {id : String} (fresh : id ∉ channels.map (·.id)) :
    ((lines channels earlier now).foldl (fun f line => f.put line.1 line.2) f).get? id = f.get? id := by
  refine (Bindings.wrote_foldl_put _ f).get?_eq fun mem => fresh ?_
  obtain ⟨line, written, rfl⟩ := List.mem_map.mp mem
  obtain ⟨c, inside, same⟩ := id_mem_of_mem_lines written
  exact List.mem_map.mpr ⟨c, inside, same⟩

theorem get?_line {c : Channel} (bound : ∃ bit, now c = some bit) (before : f.get? c.id = earlier c)
    (id : String) :
    ((lines [c] earlier now).foldl (fun f line => f.put line.1 line.2) f).get? id =
      if id = c.id then now c else f.get? id := by
  obtain ⟨bit, present⟩ := bound
  by_cases same : earlier c = now c
  · have none : lines [c] earlier now = [] := by simp [lines, same]
    rw [none, List.foldl_nil]
    split
    · rename_i here
      rw [here, before, same]
    · rfl
  · have one : lines [c] earlier now = [(c.id, bit)] := by
      rw [present] at same
      simp [lines, present, same]
    rw [one, List.foldl_cons, List.foldl_nil, Bindings.get?_put, present]

/-- The lines that differ turn the earlier values into the present ones. -/
theorem get?_lines (distinct : (channels.map (·.id)).Nodup)
    (bound : ∀ c ∈ channels, ∃ bit, now c = some bit)
    (before : ∀ c ∈ channels, f.get? c.id = earlier c) :
    ∀ c ∈ channels,
      ((lines channels earlier now).foldl (fun f line => f.put line.1 line.2) f).get? c.id = now c := by
  induction channels generalizing f with
  | nil => simp
  | cons first rest ih =>
      obtain ⟨fresh, distinct⟩ := List.nodup_cons.mp distinct
      have split : lines ([first] ++ rest) earlier now =
          lines [first] earlier now ++ lines rest earlier now := List.filterMap_append
      have here := get?_line (bound first List.mem_cons_self) (before first List.mem_cons_self)
      intro c mem
      rw [← List.singleton_append, split, List.foldl_append]
      rcases List.mem_cons.mp mem with rfl | later
      · rw [get?_lines_of_fresh fresh, here, if_pos rfl]
      · apply ih distinct (fun c mem => bound c (List.mem_cons_of_mem _ mem)) _ c later
        intro other mem
        have apart : other.id ≠ first.id := fun same => fresh (List.mem_map.mpr ⟨other, mem, same⟩)
        rw [here, if_neg apart, before other (List.mem_cons_of_mem _ mem)]

end Lines

end Dump

end SyncCircuit
