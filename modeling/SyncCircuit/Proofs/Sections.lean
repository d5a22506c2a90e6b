import Mathlib.Data.List.Sort
import Mathlib.Data.List.SplitBy
import SyncCircuit.Proofs.Identifiers

/-! # Sections of the declarations

The declarations of a dump are divided into sections, one for every path under which channels are
registered. They are what one gets who sorts the channels by their paths, keeps the order of registration
where paths agree, and takes neighbours with the same path together (`Dump.flatMap_sections`,
`Dump.splitBy_byPath`). Who reads the declarations and keeps account of the modules entered and left finds
every channel in its own modules, and all modules left at the end (`Dump.placements_declarations`).
-/

namespace SyncCircuit

/-- Whether a command declares the channel with an identifier. -/
def Command.declares (id : String) : Command → Bool
  | .var _ other _ => other = id
  | _ => false

namespace Dump

/-- Channels that are declared together, in the modules of one path. -/
structure Section where
  path : List String
  members : List Channel

namespace Section

def commands (s : Section) : List Command :=
  s.path.map .scope ++ s.members.map declaration ++ List.replicate s.path.length .upscope

/-- The text of a section, line by line. -/
def text (s : Section) : String :=
  String.join (s.path.map fun module => "$scope module " ++ module ++ " $end\n") ++
    String.join (s.members.map fun c =>
      "$var " ++ (if c.isLatchOutput then "reg" else "wire") ++ " 1 " ++ c.id ++ " " ++ c.name ++
        " $end\n") ++
    String.join (List.replicate s.path.length "$upscope $end\n")

theorem render_commands (s : Section) : Command.render s.commands = s.text := by
  simp only [Command.render, commands, text, List.map_append, List.map_map, List.map_replicate,
    String.join_append]
  rfl

end Section

def sections (channels : List Channel) : List Section :=
  (paths channels).map fun path => ⟨path, channels.filter (·.path = path)⟩

/-- A channel whose path does not come after that of another. -/
def Precedes (a b : Channel) : Prop :=
  ¬ b.path < a.path

instance : DecidableRel Precedes := fun a b => inferInstanceAs (Decidable (¬ b.path < a.path))

/-- Channels in ascending order of their paths, and in the order of registration where paths agree. -/
def byPath (channels : List Channel) : List Channel :=
  channels.insertionSort Precedes

theorem declarations_eq (channels : List Channel) :
    declarations channels =
      (sections channels).flatMap Section.commands ++ [.endDefinitions] := by
  rw [declarations, sections, List.flatMap_map]
  rfl

section Members

variable {channels : List Channel} {s : Section} {c : Channel}

theorem members_of_mem_sections (mem : s ∈ sections channels) :
    s.members = channels.filter (·.path = s.path) := by
  obtain ⟨path, -, rfl⟩ := List.mem_map.mp mem
  rfl

theorem path_of_mem_members (mem : s ∈ sections channels) (member : c ∈ s.members) :
    c.path = s.path := by
  rw [members_of_mem_sections mem] at member
  simpa using (List.mem_filter.mp member).2

theorem members_ne_nil (mem : s ∈ sections channels) : s.members ≠ [] := by
  obtain ⟨path, listed, rfl⟩ := List.mem_map.mp mem
  obtain ⟨c, registered, here⟩ := mem_paths.mp listed
  exact List.ne_nil_of_mem (List.mem_filter.mpr ⟨registered, by simpa using here⟩)

theorem exists_section (mem : c ∈ channels) : ∃ s ∈ sections channels, s.path = c.path :=
  ⟨_, List.mem_map_of_mem (mem_paths.mpr ⟨c, mem, rfl⟩), rfl⟩

theorem pairwise_sections (channels : List Channel) :
    (sections channels).Pairwise fun s t => s.path < t.path :=
  List.pairwise_map.mpr (pairwise_paths channels)

end Members

section Sorted

variable {c : Channel} {first more : List Channel}

theorem orderedInsert_eq_cons (least : ∀ b ∈ more, Precedes c b) :
    more.orderedInsert Precedes c = c :: more := by
  cases more with
  | nil => rfl
  | cons b rest => exact List.orderedInsert_cons_of_le Precedes rest (least b List.mem_cons_self)

theorem orderedInsert_append (below : ∀ b ∈ first, b.path < c.path) :
    (first ++ more).orderedInsert Precedes c = first ++ more.orderedInsert Precedes c := by
  induction first with
  | nil => rfl
  | cons b rest ih =>
      have beyond : ¬ Precedes c b := not_not_intro (below b List.mem_cons_self)
      rw [List.cons_append, List.orderedInsert_of_not_le Precedes _ beyond,
        ih fun other mem => below other (List.mem_cons_of_mem _ mem), List.cons_append]

/-- A channel joins the group of its path, as the first of it, or makes a new group at the place of its
    path. Either way this is where an insertion into the sorted channels puts it. -/
theorem flatMap_insertPath {group : List String → List Channel} {found : List (List String)}
    (own : ∀ path, ∀ b ∈ group path, b.path = path) (ascending : found.Pairwise (· < ·))
    (fresh : c.path ∉ found → group c.path = []) :
    (insertPath c.path found).flatMap
        (fun path => if c.path = path then c :: group path else group path) =
      (found.flatMap group).orderedInsert Precedes c := by
  -- away from the path of the channel the groups stay as they are
  have elsewhere : ∀ others : List (List String), c.path ∉ others →
      others.flatMap (fun path => if c.path = path then c :: group path else group path) =
        others.flatMap group := by
    intro others absent
    refine List.flatMap_congr fun path mem => if_neg ?_
    rintro rfl
    exact absent mem
  have least : ∀ others : List (List String), (∀ path ∈ others, ¬ path < c.path) →
      ∀ b ∈ others.flatMap group, Precedes c b := by
    intro others bounded b mem
    obtain ⟨path, listed, inside⟩ := List.mem_flatMap.mp mem
    rw [Precedes, own path b inside]
    exact bounded path listed
  induction found with
  | nil => simp [insertPath, fresh]
  | cons path others ih =>
      obtain ⟨above, rest⟩ := List.pairwise_cons.mp ascending
      unfold insertPath
      split
      · rename_i same
        have absent : c.path ∉ others := fun mem => List.lt_irrefl path (above path (same ▸ mem))
        have bounded : ∀ other ∈ path :: others, ¬ other < c.path := by
          intro other mem
          rw [same]
          rcases List.mem_cons.mp mem with rfl | later
          · exact List.lt_irrefl other
          · exact List.lt_asymm (above other later)
        rw [orderedInsert_eq_cons (least _ bounded), List.flatMap_cons, List.flatMap_cons,
          elsewhere others absent, if_pos same, List.cons_append]
      · rename_i different
        split
        · rename_i below
          have bounded : ∀ other ∈ path :: others, c.path < other := by
            intro other mem
            rcases List.mem_cons.mp mem with rfl | later
            · exact below
            · exact List.lt_trans below (above other later)
          have absent : c.path ∉ path :: others := fun mem => List.lt_irrefl _ (bounded _ mem)
          rw [orderedInsert_eq_cons (least _ fun other mem => List.lt_asymm (bounded other mem)),
            List.flatMap_cons, elsewhere _ absent, if_pos rfl, fresh absent]
          rfl
        · rename_i notBelow
          have beyond : path < c.path :=
            (List.le_iff_lt_or_eq.mp (List.not_lt.mp notBelow)).resolve_right
              fun same => different same.symm
          have members : ∀ b ∈ group path, b.path < c.path := by
            intro b mem
            rw [own path b mem]
            exact beyond
          have absent : c.path ∉ others → group c.path = [] := fun absent =>
            fresh fun mem => (List.mem_cons.mp mem).elim different absent
          rw [List.flatMap_cons, List.flatMap_cons, orderedInsert_append members, ih rest absent,
            if_neg different]

theorem filter_cons_path (c : Channel) (channels : List Channel) (path : List String) :
    (c :: channels).filter (·.path = path) =
      if c.path = path then c :: channels.filter (·.path = path)
      else channels.filter (·.path = path) := by
  simp [List.filter_cons]

theorem flatMap_sections (channels : List Channel) :
    (sections channels).flatMap (·.members) = byPath channels := by
  rw [sections, List.flatMap_map]
  induction channels with
  | nil => rfl
  | cons c rest ih =>
      have own : ∀ path, ∀ b ∈ rest.filter (·.path = path), b.path = path := by
        intro path b mem
        simpa using (List.mem_filter.mp mem).2
      have fresh : c.path ∉ paths rest → rest.filter (·.path = c.path) = [] := by
        intro absent
        refine List.filter_eq_nil_iff.mpr fun b mem => ?_
        simpa using fun same => absent (mem_paths.mpr ⟨b, mem, same⟩)
      have inserted := flatMap_insertPath own (pairwise_paths rest) fresh
      simp only [filter_cons_path]
      rw [byPath, List.insertionSort_cons]
      exact inserted.trans (congrArg (List.orderedInsert Precedes c) ih)

/-- The sections are the groups of neighbours with the same path among the sorted channels. -/
theorem splitBy_byPath (channels : List Channel) :
    (byPath channels).splitBy (fun a b => a.path = b.path) = (sections channels).map (·.members) := by
  rw [← flatMap_sections, List.flatMap_def]
  apply List.splitBy_flatten
  · intro mem
    obtain ⟨s, listed, empty⟩ := List.mem_map.mp mem
    exact members_ne_nil listed empty
  · intro group mem
    obtain ⟨s, listed, rfl⟩ := List.mem_map.mp mem
    apply List.Pairwise.isChain
    refine List.pairwise_of_forall_mem_list fun a left b right => ?_
    simp [path_of_mem_members listed left, path_of_mem_members listed right]
  · apply List.Pairwise.isChain
    rw [List.pairwise_map]
    refine (pairwise_sections channels).imp_of_mem ?_
    intro s t left right apart
    refine ⟨members_ne_nil left, members_ne_nil right, ?_⟩
    rw [decide_eq_false_iff_not, path_of_mem_members left (List.getLast_mem _),
      path_of_mem_members right (List.head_mem _)]
    intro same
    exact List.lt_irrefl _ (same ▸ apart)

end Sorted

/-- Read declarations from inside some modules, the outermost first, and list every channel with the
    modules in which it is declared. A text is refused if it leaves a module that was not entered, if it
    ends inside a module, and if anything but declarations comes before its end or anything at all after
    it. -/
def placements : List String → List Command → Option (List (List String × Command))
  | [], [.endDefinitions] => some []
  | modules, .scope module :: rest => placements (modules ++ [module]) rest
  | modules, .var isLatchOutput id name :: rest =>
      (placements modules rest).map ((modules, .var isLatchOutput id name) :: ·)
  | first :: modules, .upscope :: rest => placements (first :: modules).dropLast rest
  | _, _ => none

section Placements

variable {modules path : List String} {rest : List Command}

theorem placements_scopes :
    placements modules (path.map .scope ++ rest) = placements (modules ++ path) rest := by
  induction path generalizing modules with
  | nil => simp
  | cons module inner ih =>
      rw [List.map_cons, List.cons_append, placements, ih, List.append_assoc, List.singleton_append]

theorem placements_members (members : List Channel) :
    placements modules (members.map declaration ++ rest) =
      (placements modules rest).map (members.map (fun c => (modules, declaration c)) ++ ·) := by
  induction members with
  | nil => simp
  | cons c others ih =>
      rw [List.map_cons, List.cons_append, declaration, placements, ih, Option.map_map]
      rfl

theorem placements_upscopes :
    placements path (List.replicate path.length .upscope ++ rest) = placements [] rest := by
  induction path using List.reverseRecOn with
  | nil => rfl
  | append_singleton outer module ih =>
      obtain ⟨first, inner, split⟩ :=
        List.exists_cons_of_ne_nil (List.append_ne_nil_of_right_ne_nil outer (List.cons_ne_nil module []))
      rw [List.length_append, List.length_singleton, List.replicate_succ, List.cons_append, split,
        placements, ← split, List.dropLast_concat, ih]

theorem placements_commands (s : Section) :
    placements [] (s.commands ++ rest) =
      (placements [] rest).map (s.members.map (fun c => (s.path, declaration c)) ++ ·) := by
  rw [Section.commands, List.append_assoc, List.append_assoc, placements_scopes, List.nil_append,
    placements_members, placements_upscopes]

theorem placements_sections (ss : List Section) :
    placements [] (ss.flatMap Section.commands ++ [.endDefinitions]) =
      some (ss.flatMap fun s => s.members.map fun c => (s.path, declaration c)) := by
  induction ss with
  | nil => rfl
  | cons s others ih =>
      rw [List.flatMap_cons, List.append_assoc, placements_commands, ih, List.flatMap_cons]
      rfl

end Placements

variable {channels : List Channel}

theorem placements_declarations (channels : List Channel) :
    placements [] (declarations channels) =
      some ((byPath channels).map fun c => (c.path, declaration c)) := by
  rw [declarations_eq, placements_sections, ← flatMap_sections, List.map_flatMap]
  refine congrArg some (List.flatMap_congr fun s listed => ?_)
  refine List.map_congr_left fun c member => ?_
  rw [path_of_mem_members listed member]

theorem filter_declares_commands (s : Section) (id : String) :
    s.commands.filter (·.declares id) = (s.members.filter (·.id = id)).map declaration := by
  have scopes : (s.path.map Command.scope).filter (·.declares id) = [] := by
    simp [Command.declares]
  have upscopes : (List.replicate s.path.length Command.upscope).filter (·.declares id) = [] := by
    simp [Command.declares]
  rw [Section.commands, List.filter_append, List.filter_append, scopes, upscopes, List.nil_append,
    List.append_nil, List.filter_map]
  rfl

theorem filter_declares (channels : List Channel) (id : String) :
    (declarations channels).filter (·.declares id) =
      ((byPath channels).filter (·.id = id)).map declaration := by
  rw [declarations_eq, List.filter_append, List.filter_flatMap, ← flatMap_sections,
    List.filter_flatMap, List.map_flatMap]
  simp only [filter_declares_commands]
  exact List.append_nil _

theorem filter_declares_eq (distinct : (channels.map (·.id)).Nodup) {c : Channel}
    (mem : c ∈ channels) : (declarations channels).filter (·.declares c.id) = [declaration c] := by
  have alone : channels.filter (·.id = c.id) = [c] := by
    have counted := List.count_eq_one_of_mem distinct (List.mem_map_of_mem mem)
    have one : (channels.filter (·.id = c.id)).length = 1 := by
      rw [List.count_eq_countP, List.countP_map] at counted
      rw [← List.countP_eq_length_filter]
      simpa [Function.comp_def, beq_eq_decide] using counted
    obtain ⟨other, single⟩ := List.length_eq_one_iff.mp one
    have inside : c ∈ channels.filter (·.id = c.id) := List.mem_filter.mpr ⟨mem, by simp⟩
    rw [single, List.mem_singleton] at inside
    rw [single, inside]
  have sorted : (byPath channels).filter (·.id = c.id) = [c] := by
    apply List.perm_singleton.mp
    rw [← alone]
    exact (List.perm_insertionSort Precedes channels).filter _
  rw [filter_declares, sorted]
  rfl

theorem render_declarations (channels : List Channel) :
    Command.render (declarations channels) =
      String.join ((sections channels).map Section.text) ++ "$enddefinitions $end\n" := by
  have text : ∀ ss : List Section,
      Command.render (ss.flatMap Section.commands) = String.join (ss.map Section.text) := by
    intro ss
    induction ss with
    | nil => rfl
    | cons s others ih =>
        rw [List.flatMap_cons, Command.render_append, ih, Section.render_commands, List.map_cons,
          String.join_cons]
  rw [declarations_eq, Command.render_append, text]
  rfl

/-- How the declarations of channels are laid out. -/
structure Layout (channels : List Channel) (ss : List Section) (written : List Command) : Prop where
  /-- Section follows section, each entering its modules and leaving as many, and then the text ends. -/
  written_eq : written = ss.flatMap Section.commands ++ [.endDefinitions]
  text_eq : Command.render written =
    String.join (ss.map Section.text) ++ "$enddefinitions $end\n"
  /-- No two sections have the same path. -/
  ascending : ss.Pairwise fun s t => s.path < t.path
  covered : ∀ c ∈ channels, ∃ s ∈ ss, s.path = c.path
  inhabited : ∀ s ∈ ss, s.members ≠ []
  /-- A section has all channels of its path, in the order of their registration. -/
  members : ∀ s ∈ ss, s.members = channels.filter (·.path = s.path)
  grouped : ss.map (·.members) = (byPath channels).splitBy fun a b => a.path = b.path
  once : ∀ c ∈ channels, written.filter (·.declares c.id) = [declaration c]
  /-- A reader finds every channel in its own modules, and no other channels. -/
  placed : placements [] written = some ((byPath channels).map fun c => (c.path, declaration c))

theorem layout_declarations (distinct : (channels.map (·.id)).Nodup) :
    Layout channels (sections channels) (declarations channels) where
  written_eq := declarations_eq channels
  text_eq := render_declarations channels
  ascending := pairwise_sections channels
  covered _ mem := exists_section mem
  inhabited _ mem := members_ne_nil mem
  members _ mem := members_of_mem_sections mem
  grouped := (splitBy_byPath channels).symm
  once _ mem := filter_declares_eq distinct mem
  placed := placements_declarations channels

/-- A dump that declares its channels adds one section for every path to its file, in ascending order of
    the paths. Each channel has one line, with its own identifier, name and kind, in the section of its
    path; within a section the lines are in the order of registration. -/
theorem declare_lays_out_sections {d : Dump} (reachable : d.Reachable) {before : List Command}
    (opened : d.file = some before) (undeclared : d.declared = false) :
    ∃ ss written, d.declare = { d with file := some (before ++ written), declared := true } ∧
      Layout d.channels ss written := by
  refine ⟨_, _, ?_, layout_declarations reachable.nodup_ids⟩
  simp [declare, write, opened, undeclared]

/-- Channels of several paths, registered in no order of the paths. -/
private def interleaved : Dump :=
  ((((({} : Dump).openFile.register "a" false ["top", "alu"] 0).register "b" true ["top"] 0).register
    "rx" false ["io"] 1).register "c" false ["top", "alu"] 0).register "clk" false [] 2

theorem declare_lays_out_interleaved :
    interleaved.Reachable ∧ interleaved.file = some header ∧ interleaved.declared = false ∧
      ∃ ss written, interleaved.declare.file = some (header ++ written) ∧
        Layout interleaved.channels ss written ∧
        ss.map (fun s => s.members.map (·.name)) = [["clk"], ["rx"], ["b"], ["a", "c"]] := by
  have reachable : interleaved.Reachable :=
    (((((Reachable.new.openFile).register ..).register ..).register ..).register ..).register ..
  have opened : interleaved.file = some header := rfl
  obtain ⟨ss, written, declared, layout⟩ := declare_lays_out_sections reachable opened rfl
  refine ⟨reachable, opened, rfl, ss, written, by rw [declared], layout, ?_⟩
  have names := congrArg (List.map fun group : List Channel => group.map (·.name)) layout.grouped
  rw [List.map_map] at names
  refine names.trans ?_
  decide +kernel

end Dump

end SyncCircuit
