import SyncCircuit.Dump.Identifier
import SyncCircuit.Dump.Command

/-! # Value change dumps

A dump watches channels. It declares them once in its life, writes all their values when it starts
to follow a run, and after that only the values that changed. Channels can be registered at any
time; while no file is open, nothing is written and nothing counts as declared.

Writing only ever adds to the end of what was written (`transcript_write`), and the paths under which
channels are declared are ascending and distinct (`pairwise_paths`).
-/

namespace SyncCircuit

/-- A signal that a dump watches. -/
structure Channel where
  name : String
  isLatchOutput : Bool
  /-- The modules in which the channel is declared, outermost first. -/
  path : List String
  /-- The number of whatever holds the value of the signal. -/
  source : Nat
  id : String
  shown : Option Bool := none
  deriving DecidableEq, Repr

/-- The state of a dump. -/
structure Dump where
  /-- The watched channels, in the order of their registration. -/
  channels : List Channel := []
  /-- How many identifiers were given out. -/
  issued : Nat := 0
  declared : Bool := false
  /-- The files that were written before, oldest first. -/
  archive : List (List Command) := []
  file : Option (List Command) := none
  deriving DecidableEq, Repr

namespace Dump

def header : List Command :=
  [.date, .version, .timescale]

def isOpen (d : Dump) : Bool :=
  d.file.isSome

/-- Put the file being written with the earlier ones. -/
def close (d : Dump) : Dump :=
  { d with archive := d.archive ++ d.file.toList, file := none }

def openFile (d : Dump) : Dump :=
  { d.close with file := some header }

/-- Add commands to the file being written, if there is one. -/
def write (d : Dump) (commands : List Command) : Dump :=
  { d with file := d.file.map (· ++ commands) }

/-- All that was ever written, in order. -/
def transcript (d : Dump) : List Command :=
  d.archive.flatten ++ d.file.getD []

def nextId (d : Dump) : String :=
  Identifier.ofNat d.issued

/-- Give out some identifiers that belong to no channel. -/
def skipIds (d : Dump) (count : Nat) : Dump :=
  { d with issued := d.issued + count }

def register (d : Dump) (name : String) (isLatchOutput : Bool) (path : List String)
    (source : Nat) : Dump :=
  { d with
    channels := d.channels ++ [{ name, isLatchOutput, path, source, id := d.nextId }]
    issued := d.issued + 1 }

def declaration (c : Channel) : Command :=
  .var c.isLatchOutput c.id c.name

/-- Put a path into an ascending list of paths, unless it is there already. -/
def insertPath (path : List String) : List (List String) → List (List String)
  | [] => [path]
  | first :: rest =>
      if path = first then first :: rest
      else if path < first then path :: first :: rest
      else first :: insertPath path rest

/-- The distinct paths of channels, in ascending order of their modules' names. -/
def paths (channels : List Channel) : List (List String) :=
  channels.foldr (fun c found => insertPath c.path found) []

/-- The declarations of one path: its modules are entered, its channels declared in the order of
    their registration, and as many modules left as were entered. -/
def block (channels : List Channel) (path : List String) : List Command :=
  path.map .scope ++ (channels.filter (·.path = path)).map declaration ++
    List.replicate path.length .upscope

/-- The declarations of channels, one block for every path. -/
def declarations (channels : List Channel) : List Command :=
  (paths channels).flatMap (block channels) ++ [.endDefinitions]

/-- Write the declarations, unless this was done before. -/
def declare (d : Dump) : Dump :=
  if d.declared then d else { d.write (declarations d.channels) with declared := true }

def valueCommand (c : Channel) (bit : Bool) : Command :=
  .value bit c.id

def allValues (channels : List Channel) (values : List Bool) : List Command :=
  (channels.zip values).map fun (c, bit) => valueCommand c bit

/-- The values of the channels that differ from what was last written. -/
def changes (channels : List Channel) (values : List Bool) : List Command :=
  (channels.zip values).filterMap fun (c, bit) =>
    if c.shown = some bit then none else some (valueCommand c bit)

def remember (d : Dump) (values : List Bool) : Dump :=
  { d with channels := (d.channels.zip values).map fun (c, bit) => { c with shown := some bit } }

/-- The values of all channels, in the order of their registration. -/
def sample {ε : Type} (read : Channel → Except ε Bool) : List Channel → Except ε (List Bool)
  | [] => .ok []
  | c :: rest => do
      let bit ← read c
      let bits ← sample read rest
      return bit :: bits

/-- Declare the channels and write all their values at a time. They are read before anything is written,
    so a channel that cannot be read leaves the file as it was. No dump in use meets such a channel: only
    bound signals are registered, and they stay bound (`Bench.Reachable.watches`). -/
def dumpInitial {ε : Type} (d : Dump) (read : Channel → Except ε Bool) (stamp : Int) :
    Except ε Dump :=
  if d.isOpen then do
    let values ← sample read d.channels
    let commands := [.time stamp, .dumpVars] ++ allValues d.channels values ++ [.endVars]
    return (d.declare.write commands).remember values
  else return d

/-- Write the values that have changed, which are all read before, at a time. -/
def dumpChanges {ε : Type} (d : Dump) (read : Channel → Except ε Bool) (stamp : Int) :
    Except ε Dump :=
  if d.isOpen then do
    let values ← sample read d.channels
    return (d.write (.time stamp :: changes d.channels values)).remember values
  else return d

@[simp]
theorem transcript_close (d : Dump) : d.close.transcript = d.transcript := by
  obtain ⟨_, _, _, _, file⟩ := d
  cases file <;> simp [close, transcript]

/-- A new file starts with the header, after all that was written before. -/
@[simp]
theorem transcript_openFile (d : Dump) : d.openFile.transcript = d.transcript ++ header := by
  obtain ⟨_, _, _, _, file⟩ := d
  cases file <;> simp [openFile, close, transcript]

theorem transcript_write {d : Dump} (h : d.isOpen = true) (commands : List Command) :
    (d.write commands).transcript = d.transcript ++ commands := by
  obtain ⟨_, _, _, _, file⟩ := d
  cases file with
  | none => cases h
  | some written => simp [write, transcript]

theorem mem_insertPath {path asked : List String} {found : List (List String)} :
    asked ∈ insertPath path found ↔ asked = path ∨ asked ∈ found := by
  induction found with
  | nil => simp [insertPath]
  | cons first rest ih =>
      unfold insertPath
      split
      · rename_i same
        simp [same]
      · split
        · simp
        · simp only [List.mem_cons, ih]
          constructor
          · rintro (h | h | h) <;> simp [h]
          · rintro (h | h | h) <;> simp [h]

theorem pairwise_insertPath {path : List String} {found : List (List String)}
    (h : found.Pairwise (· < ·)) : (insertPath path found).Pairwise (· < ·) := by
  induction found with
  | nil => simp [insertPath]
  | cons first rest ih =>
      have above := (List.pairwise_cons.mp h).1
      have ascending := (List.pairwise_cons.mp h).2
      unfold insertPath
      split
      · exact h
      · rename_i different
        split
        · rename_i below
          refine List.pairwise_cons.mpr ⟨?_, h⟩
          intro other mem
          rcases List.mem_cons.mp mem with rfl | mem
          · exact below
          · exact List.lt_trans below (above other mem)
        · rename_i notBelow
          refine List.pairwise_cons.mpr ⟨?_, ih ascending⟩
          intro other mem
          rcases mem_insertPath.mp mem with rfl | mem
          · have weakly := List.le_iff_lt_or_eq.mp (List.not_lt.mp notBelow)
            exact weakly.resolve_right fun same => different same.symm
          · exact above other mem

theorem mem_paths {channels : List Channel} {path : List String} :
    path ∈ paths channels ↔ ∃ c ∈ channels, c.path = path := by
  induction channels with
  | nil => simp [paths]
  | cons c rest ih =>
      simp only [paths, List.foldr_cons, mem_insertPath] at ih ⊢
      rw [ih]
      simp [eq_comm]

/-- Every path is listed once, and in ascending order. -/
theorem pairwise_paths (channels : List Channel) : (paths channels).Pairwise (· < ·) := by
  induction channels with
  | nil => simp [paths]
  | cons c rest ih => exact pairwise_insertPath ih

/-- Declarations enter and leave modules, declare channels, and end. -/
theorem mem_declarations {channels : List Channel} {command : Command} :
    command ∈ declarations channels ↔
      (∃ c ∈ channels, (∃ module ∈ c.path, command = .scope module) ∨ command = declaration c ∨
        (command = .upscope ∧ c.path ≠ [])) ∨ command = .endDefinitions := by
  simp only [declarations, block, List.mem_append, List.mem_flatMap, List.mem_map, List.mem_filter,
    List.mem_replicate, mem_paths, List.mem_singleton, decide_eq_true_eq]
  constructor
  · rintro (⟨path, ⟨c, mem, rfl⟩, (⟨module, inside, rfl⟩ | ⟨other, ⟨also, same⟩, rfl⟩) |
      ⟨some, rfl⟩⟩ | rfl)
    · exact .inl ⟨c, mem, .inl ⟨module, inside, rfl⟩⟩
    · exact .inl ⟨other, also, .inr (.inl rfl)⟩
    · exact .inl ⟨c, mem, .inr (.inr ⟨rfl, fun none => some (by simp [none])⟩)⟩
    · exact .inr rfl
  · rintro (⟨c, mem, ⟨module, inside, rfl⟩ | rfl | ⟨rfl, some⟩⟩ | rfl)
    · exact .inl ⟨c.path, ⟨c, mem, rfl⟩, .inl (.inl ⟨module, inside, rfl⟩)⟩
    · exact .inl ⟨c.path, ⟨c, mem, rfl⟩, .inl (.inr ⟨c, ⟨mem, rfl⟩, rfl⟩)⟩
    · exact .inl ⟨c.path, ⟨c, mem, rfl⟩, .inr ⟨by simpa using some, rfl⟩⟩
    · exact .inr rfl

end Dump

end SyncCircuit
