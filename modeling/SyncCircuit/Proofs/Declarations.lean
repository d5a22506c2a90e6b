import SyncCircuit.Proofs.Replay

/-! # Declarations in files

A dump declares its channels once in its life. All files before the first in which a run was dumped have
only their headers; that file has the declarations of the channels that were registered then, followed by
all their values; and nothing that is written later, there or in other files, declares anything
(`Dump.Filed`). A value line is therefore declared in its file exactly if the file is that first one and
the channel is one of those whose values it starts with.
-/

namespace SyncCircuit

def Command.isVar : Command → Bool
  | .var _ _ _ => true
  | _ => false

namespace Dump

/-- All files that were ever opened, oldest first. -/
def files (d : Dump) : List (List Command) :=
  d.archive ++ d.file.toList

/-- A text that declares nothing. -/
def Undeclaring (commands : List Command) : Prop :=
  ∀ command ∈ commands, command.isVar = false

/-- A text goes on with another block, or ends. -/
def Resumes (commands : List Command) : Prop :=
  commands = [] ∨ ∃ stamp rest, commands = .time stamp :: rest

/-- What a file starts with if the declarations are written to it. -/
def preamble (channels : List Channel) (now : Channel → Option Bool) : List Command :=
  header ++ declarations channels ++ .time 0 :: initialValues channels now

/-- The declarations are in one of the files, before it are only headers, and nothing is declared
    afterwards. -/
structure DeclaresOnce (blank : List (List Command)) (channels : List Channel)
    (now : Channel → Option Bool) (rest : List Command) (later : List (List Command))
    (files : List (List Command)) : Prop where
  files_eq : files = blank ++ (preamble channels now ++ rest) :: later
  blank : ∀ file ∈ blank, file = header
  bound : ∀ c ∈ channels, ∃ bit, now c = some bit
  resumes : Resumes rest
  rest : Undeclaring rest
  later : ∀ file ∈ later, Undeclaring file

/-- How the files of a dump look. -/
def Filed (d : Dump) : Prop :=
  if d.declared then ∃ blank channels now rest later, DeclaresOnce blank channels now rest later d.files
  else ∀ file ∈ d.files, file = header

theorem filed_of_declared {d : Dump} (declared : d.declared = true) : d.Filed ↔
    ∃ blank channels now rest later, DeclaresOnce blank channels now rest later d.files := by
  simp [Filed, declared]

theorem filed_of_undeclared {d : Dump} (undeclared : d.declared = false) :
    d.Filed ↔ ∀ file ∈ d.files, file = header := by
  simp [Filed, undeclared]

theorem silent_header : ∀ command ∈ header, command.isVar = false ∧ command.isTime = false ∧
    command.line? = none ∧ command ≠ .dumpVars := by decide

theorem undeclaring_header : Undeclaring header := fun command mem => (silent_header command mem).1

theorem undeclaring_lineCommands (ls : List (String × Bool)) : Undeclaring (lineCommands ls) := by
  intro command mem
  obtain ⟨line, -, rfl⟩ := List.mem_map.mp mem
  rfl

theorem undeclaring_continuation (d : Dump) (now : Channel → Option Bool) (stamp : Int) :
    Undeclaring (d.continuation now stamp) := by
  intro command mem
  rcases List.mem_cons.mp mem with rfl | line
  · rfl
  · exact undeclaring_lineCommands _ command line

theorem undeclaring_values (channels : List Channel) (now : Channel → Option Bool) (stamp : Int) :
    Undeclaring (.time stamp :: initialValues channels now) := by
  intro command mem
  simp only [initialValues, List.cons_append, List.mem_cons, List.mem_append, List.not_mem_nil,
    or_false] at mem
  rcases mem with rfl | rfl | line | rfl
  · rfl
  · rfl
  · exact undeclaring_lineCommands _ command line
  · rfl

theorem Undeclaring.append {first second : List Command} (left : Undeclaring first)
    (right : Undeclaring second) : Undeclaring (first ++ second) := by
  intro command mem
  rcases List.mem_append.mp mem with before | after
  · exact left command before
  · exact right command after

theorem Resumes.append {first second : List Command} (left : Resumes first) (right : Resumes second) :
    Resumes (first ++ second) := by
  rcases left with rfl | ⟨stamp, rest, rfl⟩
  · exact right
  · exact .inr ⟨stamp, rest ++ second, rfl⟩

theorem DeclaresOnce.write {blank later archive : List (List Command)} {channels : List Channel}
    {now : Channel → Option Bool} {rest file text : List Command}
    (once : DeclaresOnce blank channels now rest later (archive ++ [file])) (plain : Undeclaring text)
    (resumes : Resumes text) :
    ∃ rest later, DeclaresOnce blank channels now rest later (archive ++ [file ++ text]) := by
  have same := once.files_eq
  -- the last file is the one with the declarations, or a later one
  rcases List.eq_nil_or_concat later with rfl | ⟨others, last, rfl⟩
  · obtain ⟨rfl, ended⟩ := List.append_inj' same rfl
    cases ended
    refine ⟨rest ++ text, [], ?_, once.blank, once.bound, once.resumes.append resumes,
      once.rest.append plain, by simp⟩
    rw [List.append_assoc]
  · have regrouped : archive ++ [file] =
        (blank ++ (preamble channels now ++ rest) :: others) ++ [last] := by
      rw [same]
      simp
    obtain ⟨rfl, ended⟩ := List.append_inj' regrouped rfl
    cases ended
    refine ⟨rest, others ++ [file ++ text], ?_, once.blank, once.bound, once.resumes, once.rest, ?_⟩
    · simp
    · intro other mem
      rcases List.mem_append.mp mem with earlier | last
      · exact once.later other (by simp [earlier])
      · cases List.mem_singleton.mp last
        exact (once.later file (by simp)).append plain

theorem DeclaresOnce.open {blank later files : List (List Command)} {channels : List Channel}
    {now : Channel → Option Bool} {rest : List Command}
    (once : DeclaresOnce blank channels now rest later files) :
    DeclaresOnce blank channels now rest (later ++ [header]) (files ++ [header]) where
  files_eq := by
    rw [once.files_eq]
    simp
  blank := once.blank
  bound := once.bound
  resumes := once.resumes
  rest := once.rest
  later := by
    intro file mem
    rcases List.mem_append.mp mem with old | new
    · exact once.later file old
    · cases List.mem_singleton.mp new
      exact undeclaring_header

theorem files_close (d : Dump) : d.close.files = d.files := by
  simp [files, close]

theorem files_openFile (d : Dump) : d.openFile.files = d.files ++ [header] := by
  simp [files, openFile, close]

theorem Filed.close {d : Dump} (filed : d.Filed) : d.close.Filed := by
  rw [Filed, files_close]
  exact filed

theorem Filed.openFile {d : Dump} (filed : d.Filed) : d.openFile.Filed := by
  cases declared : d.declared with
  | false =>
      rw [filed_of_undeclared declared] at filed
      rw [filed_of_undeclared (show d.openFile.declared = false from declared), files_openFile]
      intro file mem
      rcases List.mem_append.mp mem with old | new
      · exact filed file old
      · exact List.mem_singleton.mp new
  | true =>
      rw [filed_of_declared declared] at filed
      rw [filed_of_declared (show d.openFile.declared = true from declared), files_openFile]
      obtain ⟨blank, channels, now, rest, later, once⟩ := filed
      exact ⟨blank, channels, now, rest, later ++ [header], once.open⟩

section Wrote

variable {d d' : Dump} {now : Channel → Option Bool} {text before : List Command}

theorem files_of_open (opened : d.file = some before) : d.files = d.archive ++ [before] := by
  rw [files, opened, Option.toList_some]

theorem Filed.wrote (filed : d.Filed) (declared : d.declared = true) (opened : d.file = some before)
    (wrote : d.Wrote now text true d') (plain : Undeclaring text) (resumes : Resumes text) :
    d'.Filed := by
  rw [filed_of_declared declared, files_of_open opened] at filed
  rw [filed_of_declared wrote.declared_eq, files_of_open (wrote.file_eq opened), wrote.archive_eq]
  obtain ⟨blank, channels, now, rest, later, once⟩ := filed
  obtain ⟨rest, later, once⟩ := once.write plain resumes
  exact ⟨blank, channels, now, rest, later, once⟩

theorem Filed.declares (filed : d.Filed) (undeclared : d.declared = false) (opened : d.file = some before)
    (wrote : d.Wrote now (d.opening now 0) true d') : d'.Filed := by
  rw [filed_of_undeclared undeclared, files_of_open opened] at filed
  rw [filed_of_declared wrote.declared_eq, files_of_open (wrote.file_eq opened), wrote.archive_eq]
  have blank : before = header := filed before (by simp)
  refine ⟨d.archive, d.channels, now, [], [], ?_, ?_, wrote.bound, .inl rfl, ?_, ?_⟩
  · rw [blank, opening, undeclared, preamble]
    simp
  · exact fun file mem => filed file (List.mem_append_left _ mem)
  · intro command mem
    cases mem
  · intro file mem
    cases mem

end Wrote

end Dump

/-- A run leaves the files in order, and a dump that has followed a cycle with an open file has declared its
    channels. -/
theorem Setup.Followed.filed {u : Setup} {d d' : Dump} {values : List (Bindings Bool)}
    (followed : u.Followed d values d') (filed : d.Filed) :
    d'.Filed ∧ (values ≠ [] → d'.isOpen = true → d'.declared = true) := by
  induction followed with
  | unseen => exact ⟨filed, fun begun => absurd rfl begun⟩
  | @first v d' dumped =>
      obtain ⟨new, -, same⟩ := u.registerSignals_eq v d
      have registered : (u.registerSignals v d).Filed := by
        rw [same]
        exact filed
      cases opened : (u.registerSignals v d).file with
      | none =>
          have closed : (u.registerSignals v d).isOpen = false := by simp [Dump.isOpen, opened]
          rw [Dump.dumpInitial_closed closed dumped]
          exact ⟨registered, fun _ isOpen => absurd (closed.symm.trans isOpen) (by decide)⟩
      | some before =>
          have wrote := Dump.dumpInitial_ok (by simp [Dump.isOpen, opened]) dumped
          refine ⟨?_, fun _ _ => wrote.declared_eq⟩
          cases declared : (u.registerSignals v d).declared with
          | false => exact registered.declares declared opened wrote
          | true =>
              rw [Dump.opening, declared] at wrote
              apply registered.wrote declared opened wrote
              · exact Dump.undeclaring_values _ _ 0
              · exact .inr ⟨_, _, rfl⟩
  | @next _ _ d₁ _ _ started dumped ih =>
      cases opened : d₁.file with
      | none =>
          have closed : d₁.isOpen = false := by simp [Dump.isOpen, opened]
          rw [Dump.dumpChanges_closed closed dumped]
          exact ⟨ih.1, fun _ => ih.2 started⟩
      | some before =>
          have isOpen : d₁.isOpen = true := by simp [Dump.isOpen, opened]
          have declared : d₁.declared = true := ih.2 started isOpen
          have wrote := Dump.dumpChanges_ok isOpen dumped
          rw [declared] at wrote
          refine ⟨?_, fun _ _ => wrote.declared_eq⟩
          apply ih.1.wrote declared opened wrote
          · exact Dump.undeclaring_continuation _ _ _
          · exact .inr ⟨_, _, rfl⟩

theorem Bench.Reachable.filed {b : Bench} {shelf : List Dump} (reachable : b.Reachable shelf) :
    ∀ d ∈ b.dump.toList ++ shelf, d.Filed := by
  have stable : Stable fun _ => Dump.Filed := by
    apply stable_of_followed
    · rw [Dump.filed_of_undeclared rfl]
      simp [Dump.files]
    · exact Dump.Filed.openFile
    · exact Dump.Filed.close
    · exact fun followed filed => (followed.filed filed).1
  exact stable.holds reachable

namespace Dump

variable {channels : List Channel} {now : Channel → Option Bool} {rest before after : List Command}
  {bit : Bool} {id : String}

theorem exists_mem_lines_iff (bound : ∀ c ∈ channels, ∃ bit, now c = some bit) :
    (∃ bit, (id, bit) ∈ lines channels (fun _ => none) now) ↔ ∃ c ∈ channels, c.id = id := by
  constructor
  · rintro ⟨bit, mem⟩
    exact id_mem_of_mem_lines mem
  · rintro ⟨c, mem, rfl⟩
    obtain ⟨bit, present⟩ := bound c mem
    exact ⟨bit, List.mem_filterMap.mpr ⟨c, mem, by simp [present]⟩⟩

theorem head?_blocks_preamble (resumes : Resumes rest) :
    (blocks (preamble channels now ++ rest)).head? = some ⟨0, lines channels (fun _ => none) now⟩ := by
  have timeless : ∀ command ∈ header ++ declarations channels, command.isTime = false := by
    intro command mem
    rcases List.mem_append.mp mem with first | declared
    · exact (silent_header command first).2.1
    · exact (silent_declarations declared).1
  have stops : (initialValues channels now ++ rest).takeWhile (!·.isTime) =
      initialValues channels now := by
    rw [List.takeWhile_append_of_pos]
    · rcases resumes with rfl | ⟨stamp, more, rfl⟩
      · simp
      · simp [Command.isTime]
    · intro command mem
      rw [isTime_initialValues _ _ command mem]
      rfl
  rw [preamble, List.append_assoc, blocks_append_of_timeless timeless, List.cons_append, blocks,
    List.head?_cons, stops, filterMap_line?_initialValues]

theorem declared_in_preamble_iff (plain : Undeclaring rest)
    (split : preamble channels now ++ rest = before ++ .value bit id :: after) :
    (∃ latch name, Command.var latch id name ∈ before) ↔ ∃ c ∈ channels, c.id = id := by
  rw [preamble, List.append_assoc] at split
  have values : Undeclaring (.time 0 :: initialValues channels now ++ rest) :=
    (undeclaring_values channels now 0).append plain
  constructor
  · rintro ⟨latch, name, mem⟩
    have inside : Command.var latch id name ∈ header ++ declarations channels ++
        (.time 0 :: initialValues channels now ++ rest) := split ▸ List.mem_append_left _ mem
    rcases List.mem_append.mp inside with start | later
    · rcases List.mem_append.mp start with first | declared
      · cases (silent_header _ first).1
      · rcases mem_declarations.mp declared with ⟨c, listed, ⟨_, -, other⟩ | same | ⟨other, -⟩⟩ | other
        · cases other
        · cases same
          exact ⟨c, listed, rfl⟩
        · cases other
        · cases other
    · cases values _ later
  · rintro ⟨c, mem, rfl⟩
    have declared : declaration c ∈ header ++ declarations channels :=
      List.mem_append_right _ (mem_declarations.mpr (.inl ⟨c, mem, .inr (.inl rfl)⟩))
    refine ⟨c.isLatchOutput, c.name, ?_⟩
    rcases List.append_eq_append_iff.mp split with ⟨more, longer, -⟩ | ⟨more, shorter, same⟩
    · rw [longer]
      exact List.mem_append_left _ declared
    · cases more with
      | nil =>
          rw [List.append_nil] at shorter
          exact shorter ▸ declared
      | cons command others =>
          -- a value line would stand among the declarations
          obtain ⟨rfl, -⟩ := List.cons.inj same
          have misplaced : Command.value bit c.id ∈ header ++ declarations channels := by
            rw [shorter]
            simp
          rcases List.mem_append.mp misplaced with first | listed
          · cases (silent_header _ first).2.2.1
          · cases (silent_declarations listed).2

/-- A value line is declared earlier in its file exactly if no earlier file has any values, and the channel
    is among those whose values come first in this one. -/
theorem Filed.declared_iff {d : Dump} (filed : d.Filed) {k : Nat} {file : List Command}
    (found : d.files[k]? = some file) (split : file = before ++ .value bit id :: after) :
    (∃ latch name, Command.var latch id name ∈ before) ↔
      (∀ j earlier, j < k → d.files[j]? = some earlier → .dumpVars ∉ earlier) ∧
        ∃ block, (blocks file).head? = some block ∧ ∃ shown, (id, shown) ∈ block.lines := by
  have blankless : file ≠ header := by
    intro blank
    have line : Command.value bit id ∈ header := by
      rw [← blank, split]
      simp
    cases (silent_header _ line).2.2.1
  cases declared : d.declared with
  | false =>
      rw [filed_of_undeclared declared] at filed
      exact absurd (filed file (List.mem_of_getElem? found)) blankless
  | true =>
      rw [filed_of_declared declared] at filed
      obtain ⟨blank, channels, now, rest, later, once⟩ := filed
      rw [once.files_eq] at found ⊢
      -- file `k` comes before the one with the declarations, is it, or comes after it
      rcases Nat.lt_trichotomy k blank.length with inside | rfl | beyond
      · rw [List.getElem?_append_left inside] at found
        exact absurd (once.blank file (List.mem_of_getElem? found)) blankless
      · rw [List.getElem?_append_right (Nat.le_refl _), Nat.sub_self, List.getElem?_cons_zero,
          Option.some.injEq] at found
        subst found
        rw [declared_in_preamble_iff once.rest split, head?_blocks_preamble once.resumes,
          ← exists_mem_lines_iff once.bound]
        constructor
        · intro listed
          refine ⟨fun j earlier below at_j mem => ?_, _, rfl, listed⟩
          rw [List.getElem?_append_left below] at at_j
          rw [once.blank earlier (List.mem_of_getElem? at_j)] at mem
          exact (silent_header _ mem).2.2.2 rfl
        · rintro ⟨-, block, same, listed⟩
          cases same
          exact listed
      · constructor
        · rintro ⟨latch, name, mem⟩
          rw [List.getElem?_append_right (by omega), List.getElem?_cons,
            if_neg (by omega)] at found
          have declaring := once.later file (List.mem_of_getElem? found) (.var latch id name)
            (split ▸ List.mem_append_left _ mem)
          cases declaring
        · rintro ⟨none, -⟩
          refine absurd ?_ (none blank.length (preamble channels now ++ rest) beyond (by simp))
          simp [preamble, initialValues]

end Dump

namespace Bench

/-- A channel whose value is written to a file is declared there, before its value, exactly if nothing was
    dumped to an earlier file and the channel was already registered when the file got its first values.
    Later files have no declarations at all, and channels of later runs are not declared in the first. -/
theorem value_declared_iff {b : Bench} {shelf : List Dump} (reachable : b.Reachable shelf) {d : Dump}
    (mem : d ∈ b.dump.toList ++ shelf) {k : Nat} {file before after : List Command} {bit : Bool}
    {id : String} (found : d.files[k]? = some file) (split : file = before ++ .value bit id :: after) :
    (∃ latch name, Command.var latch id name ∈ before) ↔
      (∀ j earlier, j < k → d.files[j]? = some earlier → .dumpVars ∉ earlier) ∧
        ∃ block, (blocks file).head? = some block ∧ ∃ shown, (id, shown) ∈ block.lines :=
  (reachable.filed d mem).declared_iff found split

private def relayDeclared : List Command :=
  Dump.header ++ [.scope "relay", .var false "a" "In", .var false "b" "L", .var true "c" "L'",
    .var false "d" "Out", .upscope, .endDefinitions, .time 0, .dumpVars]

private def relayValues : List Command :=
  [.value true "b", .value false "c", .value false "d", .endVars, .time 1, .value false "a",
    .value false "b", .value true "c", .value true "d"]

theorem value_declared_iff_relayed :
    ∃ d, relayed.dump = some d ∧ d.files[0]? = some (relayDeclared ++ .value true "a" :: relayValues) ∧
      ∃ latch name, Command.var latch "a" name ∈ relayDeclared := by
  have text : relayed.dump.bind (fun d => d.files[0]?) =
      some (relayDeclared ++ .value true "a" :: relayValues) := by decide +kernel
  obtain ⟨d, watching, found⟩ := Option.bind_eq_some_iff.mp text
  have mem : d ∈ relayed.dump.toList ++ [] := by simp [watching]
  refine ⟨d, watching, found, (value_declared_iff reachable_relayed mem found rfl).mpr ⟨?_, ?_⟩⟩
  · intro j earlier none
    cases none
  · exact ⟨_, rfl, true, by decide⟩

/-- In a second file nothing is declared, although a run dumps all its signals there. -/
theorem second_file_undeclared :
    ∃ (b : Bench) (d : Dump) (before after : List Command), b.Reachable [] ∧ b.dump = some d ∧
      d.file = some (before ++ .value false "a" :: after) ∧
      ∀ latch name, Command.var latch "a" name ∉ before := by
  have text : (({ relayed with dump := relayed.dump.map Dump.openFile } : Bench).perform 1
      Setup.run).bind (fun report => report.bench.dump.bind (·.file)) =
        some (Dump.header ++ [.time 0, .dumpVars] ++ .value false "a" ::
          [.value false "b", .value true "c", .value true "d", .value true "e", .value true "f",
            .value false "g", .value false "h", .endVars, .time 1, .value false "e", .value false "f",
            .value true "g", .value true "h"]) := by decide +kernel
  obtain ⟨report, ran, written⟩ := Option.bind_eq_some_iff.mp text
  obtain ⟨d, watching, file⟩ := Option.bind_eq_some_iff.mp written
  refine ⟨report.bench, d, _, _, ?_, watching, file, ?_⟩
  · exact .step (.step reachable_relayed .openFile) (.act (.call .run) ran)
  · intro latch name mem
    simp [Dump.header] at mem

end Bench

end SyncCircuit
