import SyncCircuit.Proofs.Outcomes

/-! # Dumping

A dump that watches signals of this simulator and of others reads all of them. It can fail only if one of
them is not bound (`Setup.Unreadable`), and it changes nothing outside itself (`Setup.Alike`). Variables
are only ever added and only bound ones are registered, so a dump whose channels can all be read stays so
(`Setup.Readable`).
-/

namespace SyncCircuit

namespace Dump

variable {ε : Type} {read : Channel → Except ε Bool} {d : Dump} {stamp : Int}

theorem sample_eq_error {channels : List Channel} {e : ε} (h : sample read channels = .error e) :
    ∃ c ∈ channels, read c = .error e := by
  induction channels with
  | nil => cases h
  | cons c rest ih =>
      cases found : read c with
      | error cause =>
          simp only [sample, found, bind, Except.bind, Except.error.injEq] at h
          exact ⟨c, List.mem_cons_self, h ▸ found⟩
      | ok bit =>
          cases others : sample read rest with
          | ok bits => simp [sample, found, others, bind, Except.bind, pure, Except.pure] at h
          | error cause =>
              simp only [sample, found, others, bind, Except.bind, Except.error.injEq] at h
              obtain ⟨other, mem, failed⟩ := ih (h ▸ others)
              exact ⟨other, List.mem_cons_of_mem _ mem, failed⟩

/-- Channels of the same signals, whatever they have shown. -/
def SameSignals (as bs : List Channel) : Prop :=
  ∀ b ∈ bs, ∃ a ∈ as, b.name = a.name ∧ b.source = a.source

/-- An attempt to dump fails at a channel, or leaves a dump that watches the same signals. -/
structure Watches (read : Channel → Except ε Bool) (d : Dump) (result : Except ε Dump) : Prop where
  failed : ∀ e, result = .error e → ∃ c ∈ d.channels, read c = .error e
  dumped : ∀ d', result = .ok d' → SameSignals d.channels d'.channels

theorem watches_remember {write : List Bool → Dump}
    (kept : ∀ values, (write values).channels = d.channels) :
    Watches read d (if d.isOpen then do
        let values ← sample read d.channels
        return (write values).remember values
      else return d) := by
  split
  · cases found : sample read d.channels with
    | error cause =>
        constructor
        · intro e h
          cases h
          exact sample_eq_error found
        · intro d' h
          cases h
    | ok values =>
        constructor
        · intro e h
          cases h
        · intro d' h c mem
          cases h
          obtain ⟨⟨old, bit⟩, inside, rfl⟩ := List.mem_map.mp mem
          exact ⟨old, kept values ▸ (List.of_mem_zip inside).1, rfl, rfl⟩
  · constructor
    · intro e h
      cases h
    · intro d' h c mem
      cases h
      exact ⟨c, mem, rfl, rfl⟩

theorem watches_dumpInitial : Watches read d (d.dumpInitial read stamp) := by
  refine watches_remember fun values => ?_
  show d.declare.channels = d.channels
  unfold declare
  split <;> rfl

theorem watches_dumpChanges : Watches read d (d.dumpChanges read stamp) :=
  watches_remember fun _ => rfl

end Dump

namespace Setup

open Operation

variable {u : Setup} {r s t : Session}

def Reads (u : Setup) (vars : Bindings Bool) (channels : List Channel) : Prop :=
  ∀ c ∈ channels, ∃ bit, u.readChannel vars c = .ok bit

/-- Every channel that the dump watches can be read. Wherever a simulator is put to use this is so, whatever
    has happened there before (`Bench.Reachable.readable`). -/
def Readable (u : Setup) (s : Session) : Prop :=
  ∀ d, s.dump = some d → u.Reads s.simulator.vars d.channels

/-- A dump fails at a channel that cannot be read. -/
def Unreadable (u : Setup) (s : Session) (e : SimError) : Prop :=
  ¬ u.Readable s ∧ ∃ name, e = .eval (.unbound name)

/-- Sessions that differ at most in their dumps and log records. -/
structure Alike (u : Setup) (s t : Session) : Prop where
  simulator : t.simulator = s.simulator
  hooks : t.hooks = s.hooks
  results : t.results = s.results
  readable : u.Readable s → u.Readable t

theorem Alike.trans (first : u.Alike r s) (second : u.Alike s t) : u.Alike r t :=
  ⟨second.simulator.trans first.simulator, second.hooks.trans first.hooks,
    second.results.trans first.results, second.readable ∘ first.readable⟩

/-- A channel can be read if its signal is bound, here or elsewhere. -/
theorem readChannel_eq (u : Setup) (vars : Bindings Bool) (c : Channel) :
    u.readChannel vars c =
      match if c.source = u.number then vars.get? c.name else u.elsewhere c.source c.name with
      | some bit => .ok bit
      | none => .error (.eval (.unbound c.name)) := rfl

theorem Reads.grow {f g : Bindings Bool} {channels : List Channel} (reads : u.Reads f channels)
    (names : ∀ name ∈ f.names, name ∈ g.names) : u.Reads g channels := by
  intro c mem
  obtain ⟨bit, found⟩ := reads c mem
  rw [readChannel_eq] at found ⊢
  by_cases own : c.source = u.number
  · rw [if_pos own] at found ⊢
    cases present : f.get? c.name with
    | none => simp [present] at found
    | some value =>
        obtain ⟨kept, still⟩ := (g.mem_names_iff c.name).mp
          (names c.name ((f.mem_names_iff c.name).mpr ⟨value, present⟩))
        exact ⟨kept, by rw [still]⟩
  · rw [if_neg own] at found ⊢
    exact ⟨bit, found⟩

theorem Reads.sameSignals {vars : Bindings Bool} {as bs : List Channel} (reads : u.Reads vars as)
    (same : Dump.SameSignals as bs) : u.Reads vars bs := by
  intro c mem
  obtain ⟨a, inside, name, source⟩ := same c mem
  obtain ⟨bit, found⟩ := reads a inside
  exact ⟨bit, by rw [← found, readChannel_eq, readChannel_eq, name, source]⟩

theorem Readable.grow (readable : u.Readable s) (dump : t.dump = s.dump)
    (names : ∀ name ∈ s.simulator.vars.names, name ∈ t.simulator.vars.names) : u.Readable t :=
  fun d watching => (readable d (dump ▸ watching)).grow names

theorem Reads.registerSignals {vars : Bindings Bool} {d : Dump} (reads : u.Reads vars d.channels) :
    u.Reads vars (u.registerSignals vars d).channels := by
  have bound : ∀ signal ∈ u.circuit.signalNames.filter vars.contains, signal ∈ vars.names :=
    fun signal mem => (vars.contains_iff_mem_names signal).mp (List.mem_filter.mp mem).2
  unfold Setup.registerSignals
  generalize u.circuit.signalNames.filter vars.contains = signals at bound ⊢
  induction signals generalizing d with
  | nil => exact reads
  | cons signal rest ih =>
      refine ih (fun c mem => ?_) fun other mem => bound other (List.mem_cons_of_mem _ mem)
      rcases List.mem_append.mp mem with old | new
      · exact reads c old
      · cases List.mem_singleton.mp new
        obtain ⟨bit, found⟩ := (vars.mem_names_iff signal).mp (bound signal List.mem_cons_self)
        exact ⟨bit, by simp [readChannel_eq, found]⟩

theorem ensures_progress {E : SimError → Session → Prop} (message : String) :
    (progress message).Ensures s (fun _ t => u.Alike s t) E := by
  have silent : Session.hooks { s with
      journal := s.journal ++ [.log (progressLogger.record message)] } = s.hooks := by
    simp [Session.hooks]
  exact ⟨rfl, silent, rfl, id⟩

theorem ensures_onDump {f : Dump → Bindings Bool → Except SimError Dump}
    (failed : ∀ d e, f d s.simulator.vars = .error e →
      ∃ c ∈ d.channels, u.readChannel s.simulator.vars c = .error e)
    (dumped : ∀ d d', f d s.simulator.vars = .ok d' → u.Reads s.simulator.vars d.channels →
      u.Reads s.simulator.vars d'.channels) :
    (onDump f).Ensures s (fun _ t => u.Alike s t) (fun e t => u.Alike s t ∧ u.Unreadable s e) := by
  have same : u.Alike s s := ⟨rfl, rfl, rfl, id⟩
  apply ensures_get
  cases watching : s.dump with
  | none => exact ensures_pure same
  | some d =>
      apply ensures_outcome
      · intro e failure
        obtain ⟨c, channel, unread⟩ := failed d e failure
        refine ⟨same, fun readable => ?_, c.name, ?_⟩
        · obtain ⟨bit, read⟩ := readable d watching c channel
          cases unread.symm.trans read
        · rw [readChannel_eq] at unread
          split at unread
          · cases unread
          · exact (Except.error.inj unread).symm
      · intro d' success
        refine ⟨rfl, rfl, rfl, fun readable other now => ?_⟩
        cases now
        exact dumped d d' success (readable d watching)

theorem ensures_startDump (u : Setup) (s : Session) :
    u.startDump.Ensures s (fun _ t => u.Alike s t) (fun e t => u.Alike s t ∧ u.Unreadable s e) := by
  have registered : (onDump fun d vars => .ok (u.registerSignals vars d)).Ensures s
      (fun _ t => u.Alike s t) (fun e t => u.Alike s t ∧ u.Unreadable s e) := by
    apply ensures_onDump
    · intro d e failure
      cases failure
    · intro d d' success reads
      cases success
      exact reads.registerSignals
  apply registered.bind
  intro _ r alike
  have initial : (onDump fun d vars => d.dumpInitial (u.readChannel vars) 0).Ensures r
      (fun _ t => u.Alike r t) (fun e t => u.Alike r t ∧ u.Unreadable r e) :=
    ensures_onDump (fun _ => Dump.watches_dumpInitial.failed)
      fun _ d' success reads => reads.sameSignals (Dump.watches_dumpInitial.dumped d' success)
  apply initial.mono
  · exact fun _ t kept => alike.trans kept
  · exact fun e t ⟨kept, unread, name⟩ =>
      ⟨alike.trans kept, fun readable => unread (alike.readable readable), name⟩

theorem ensures_continueDump (u : Setup) (s : Session) (cycle : Int) :
    (u.continueDump cycle).Ensures s (fun _ t => u.Alike s t)
      (fun e t => u.Alike s t ∧ u.Unreadable s e) :=
  ensures_onDump (fun _ => Dump.watches_dumpChanges.failed)
    fun _ d' success reads => reads.sameSignals (Dump.watches_dumpChanges.dumped d' success)

end Setup

end SyncCircuit
