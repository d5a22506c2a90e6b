import SyncCircuit.Proofs.Reuse
import SyncCircuit.Simulation.Bench

/-! # Benches in use

A bench is built up from nothing: circuits and simulators are added, circuits and settings changed,
variables written, simulators called, dumps put in and taken out, their files opened and closed, in any
order (`Bench.Reachable`). Simulators only ever bind more signals and dumps only watch signals that are
bound, so every signal that a dump watches can be read at any later time (`Bench.Reachable.watches`).
-/

namespace SyncCircuit

/-- What can be done with a simulator: it is called, or one of its variables is written. -/
inductive Act where
  | call (call : Call)
  | write (signal : String) (value : Bool)

def Act.operation (u : Setup) : Act → Operation Unit
  | .call asked => asked.operation u
  | .write signal value => Operation.writeVariable signal value

namespace Setup

open Operation

/-- A property of sessions that stays when more names are bound and when something is dumped. -/
structure Lasting (u : Setup) (P : Session → Prop) : Prop where
  grow : ∀ {s t : Session}, P s → t.dump = s.dump →
    (∀ name ∈ s.simulator.vars.names, name ∈ t.simulator.vars.names) → P t
  alike : ∀ {s t}, u.Alike s t → P s → P t

namespace Lasting

variable {u : Setup} {P : Session → Prop} {s : Session} (lasting : u.Lasting P)
include lasting

theorem withVars {phase : Phase Unit} (start : P s)
    (keeps : phase.Keeps fun f => ∀ name ∈ s.simulator.vars.names, name ∈ f.names) :
    P (s.withVars (phase.after s.simulator.vars)) :=
  lasting.grow start rfl (keeps s.simulator.vars fun _ mem => mem)

theorem onVariables {phase : Phase Unit}
    (keeps : ∀ names : List String, phase.Keeps fun f => ∀ name ∈ names, name ∈ f.names) :
    (onVariables phase).Keeps P :=
  keeps_onVariables fun _ start => lasting.withVars start (keeps _)

theorem announce (occasion : Hook) : (u.announce occasion).Keeps P := by
  intro s start
  apply ensures_announce
  intro t simulator _ dump _
  have kept : P t := lasting.grow start dump fun name mem => by rwa [simulator]
  exact ⟨kept, fun _ _ => kept⟩

end Lasting

theorem put_bound (names : List String) (f : Bindings Bool) (asked : String) (value : Bool)
    (bound : ∀ name ∈ names, name ∈ f.names) : ∀ name ∈ names, name ∈ (f.put asked value).names :=
  fun name mem => (f.mem_names_put asked name value).mpr (.inl (bound name mem))

theorem Lasting.invariant {u : Setup} {P : Session → Prop} (lasting : u.Lasting P) :
    u.Invariant P := by
  apply Robust.invariant
  refine ⟨lasting.alike, lasting.announce, fun _ start => ?_, fun _ _ start => ?_, fun start => ?_,
    fun start => ?_, fun cycle start => ?_⟩
  · exact lasting.grow start rfl fun _ mem => mem
  · exact lasting.grow start rfl fun _ mem => mem
  · exact lasting.withVars start (Phase.keeps_seed fun f x _ => put_bound _ f x)
  · exact lasting.withVars start (Circuit.keeps_firstPhase fun f name _ => put_bound _ f name)
  · exact lasting.withVars start (Circuit.keeps_nextPhase fun f name _ => put_bound _ f name)

theorem Lasting.call {u : Setup} {P : Session → Prop} (lasting : u.Lasting P) (call : Call) :
    (call.operation u).Keeps P := by
  cases call with
  | run => exact lasting.invariant.run
  | firstCycle => exact lasting.invariant.firstCycle
  | nextCycle cycle => exact lasting.invariant.nextCycle cycle
  | resetLatches =>
      exact lasting.onVariables fun names =>
        Phase.keeps_resetLatches fun f latch _ => put_bound names f (latchOutput latch)
  | copyLatches =>
      exact lasting.onVariables fun names =>
        Phase.keeps_copyLatches fun f latch _ => put_bound names f (latchOutput latch)

theorem Lasting.act {u : Setup} {P : Session → Prop} (lasting : u.Lasting P) (act : Act) :
    (act.operation u).Keeps P := by
  cases act with
  | call call => exact lasting.call call
  | write signal value =>
      have keeps : ∀ names : List String,
          (Phase.assign signal value).Keeps fun f => ∀ name ∈ names, name ∈ f.names :=
        fun names f => put_bound names f signal value
      exact lasting.onVariables keeps

theorem lasting_bound (u : Setup) (name : String) :
    u.Lasting fun s => name ∈ s.simulator.vars.names where
  grow bound _ names := names name bound
  alike alike bound := alike.simulator ▸ bound

theorem lasting_readable (u : Setup) : u.Lasting u.Readable where
  grow readable dump names := readable.grow dump names
  alike alike readable := alike.readable readable

end Setup

namespace Bench

open Operation

/-- What can happen to a bench and to the dumps that lie on a shelf beside it. Whatever else is done with
    a simulator, such as evaluating an expression, changes nothing. -/
inductive Change : Bench → List Dump → Bench → List Dump → Prop where
  | addDesign {b shelf} (c : Circuit) : Change b shelf (b.addDesign c) shelf
  | addRig {b b' shelf design settings} (added : b.addRig design settings = .ok b') :
      Change b shelf b' shelf
  | revise {b shelf} (design : Nat) (change : Circuit → Circuit) :
      Change b shelf (b.revise design change) shelf
  | adjust {b shelf} (rig : Nat) (change : Settings → Settings) :
      Change b shelf (b.adjust rig change) shelf
  | act {b shelf rig report} (act : Act) (done : b.perform rig act.operation = some report) :
      Change b shelf report.bench shelf
  | openFile {b shelf} : Change b shelf { b with dump := b.dump.map Dump.openFile } shelf
  | closeFile {b shelf} : Change b shelf { b with dump := b.dump.map Dump.close } shelf
  | newDump {b shelf} : Change b shelf { b with dump := some {} } (b.dump.toList ++ shelf)
  | noDump {b shelf} : Change b shelf { b with dump := none } (b.dump.toList ++ shelf)
  | useDump {b before d after} : Change b (before ++ d :: after) { b with dump := some d }
      (b.dump.toList ++ (before ++ after))

/-- A bench, with its shelf, turns into another by any number of changes. -/
inductive Leads (b : Bench) (shelf : List Dump) : Bench → List Dump → Prop where
  | refl : Leads b shelf b shelf
  | step {b₁ shelf₁ b₂ shelf₂} (before : Leads b shelf b₁ shelf₁)
      (change : Change b₁ shelf₁ b₂ shelf₂) : Leads b shelf b₂ shelf₂

theorem Leads.trans {b b₁ b₂ : Bench} {shelf shelf₁ shelf₂ : List Dump} (first : b.Leads shelf b₁ shelf₁)
    (second : b₁.Leads shelf₁ b₂ shelf₂) : b.Leads shelf b₂ shelf₂ := by
  induction second with
  | refl => exact first
  | step _ change ih => exact .step ih change

/-- A bench that was built up from nothing, with the dumps that were taken out of it. -/
def Reachable (b : Bench) (shelf : List Dump) : Prop :=
  Leads {} [] b shelf

variable {b b' : Bench} {rig : Nat} {r : Rig} {design : Design} {shelf : List Dump}

/-- A simulator of the bench and the design that it simulates. -/
structure Holds (b : Bench) (rig : Nat) (r : Rig) (design : Design) : Prop where
  rig : b.rigs[rig]? = some r
  design : b.designs[r.design]? = some design

/-- A simulator acts as an operation of its own session. -/
theorem perform_eq {α : Type} (holds : b.Holds rig r design) (operation : Setup → Operation α) :
    b.perform rig operation = some
      { outcome := (operation (b.setup rig r design)).ending (b.session r design)
        events := ((operation (b.setup rig r design)).after (b.session r design)).journal
        bench := b.settle rig r design
          ((operation (b.setup rig r design)).after (b.session r design)) } := by
  simp only [perform, holds.rig, holds.design, Option.bind_eq_bind, Option.bind_some, ending, after]
  cases operation (b.setup rig r design) (b.session r design) <;> rfl

theorem holds_of_perform {α : Type} {operation : Setup → Operation α} {report : Report α}
    (done : b.perform rig operation = some report) : ∃ r design, b.Holds rig r design := by
  cases found : b.rigs[rig]? with
  | none => simp [perform, found] at done
  | some r =>
      cases also : b.designs[r.design]? with
      | none => simp [perform, found, also] at done
      | some design => exact ⟨r, design, found, also⟩

theorem signal?_of_holds (holds : b.Holds rig r design) (name : String) :
    b.signal? rig name = r.simulator.vars.get? name := by
  simp [signal?, holds.rig]

theorem signal?_settle (holds : b.Holds rig r design) (s : Session) (source : Nat) (name : String) :
    (b.settle rig r design s).signal? source name =
      if source = rig then s.simulator.vars.get? name else b.signal? source name := by
  have inside : rig < b.rigs.length := (List.getElem?_eq_some_iff.mp holds.rig).1
  by_cases own : source = rig
  · simp [signal?, settle, own, inside]
  · have other : rig ≠ source := fun same => own same.symm
    simp [signal?, settle, own, List.getElem?_set_ne other]

/-- Every signal that a dump watches is bound in its simulator. -/
def Watches (b : Bench) (d : Dump) : Prop :=
  ∀ c ∈ d.channels, ∃ bit, b.signal? c.source c.name = some bit

/-- Every signal that is bound in one bench is bound in the other. -/
def Outlasts (b' b : Bench) : Prop :=
  ∀ source name bit, b.signal? source name = some bit → ∃ bit', b'.signal? source name = some bit'

theorem Watches.outlast {d : Dump} (watches : b.Watches d) (outlasts : b'.Outlasts b) : b'.Watches d := by
  intro c mem
  obtain ⟨bit, found⟩ := watches c mem
  exact outlasts c.source c.name bit found

theorem outlasts_of_signals (same : ∀ source name, b'.signal? source name = b.signal? source name) :
    b'.Outlasts b :=
  fun source name bit found => ⟨bit, (same source name).trans found⟩

theorem addRig_eq_ok {n : Nat} {settings : Settings} (added : b.addRig n settings = .ok b') :
    b.designs[n]? = none ∧ b' = b ∨ ∃ design simulator, b.designs[n]? = some design ∧
      Simulator.ofCircuit design.circuit settings = .ok simulator ∧
      b' = { b with rigs := b.rigs ++ [{ design := n, settings, simulator }] } := by
  unfold addRig at added
  split at added
  · rename_i missing
    cases added
    exact .inl ⟨missing, rfl⟩
  · rename_i design found
    cases made : Simulator.ofCircuit design.circuit settings with
    | error e => simp [made] at added
    | ok simulator =>
        simp only [made, Except.ok.injEq] at added
        exact .inr ⟨design, simulator, found, made, added.symm⟩

theorem outlasts_addRig {n : Nat} {settings : Settings} (added : b.addRig n settings = .ok b') :
    b'.Outlasts b ∧ b'.dump = b.dump := by
  obtain ⟨-, rfl⟩ | ⟨design, simulator, -, -, rfl⟩ := addRig_eq_ok added
  · exact ⟨outlasts_of_signals fun _ _ => rfl, rfl⟩
  · refine ⟨fun source name bit found => ⟨bit, ?_⟩, rfl⟩
    obtain ⟨held, inside, bound⟩ := Option.bind_eq_some_iff.mp found
    have old : source < b.rigs.length := (List.getElem?_eq_some_iff.mp inside).1
    simp only [signal?, List.getElem?_append_left old, inside]
    exact bound

theorem signal?_adjust (b : Bench) (rig : Nat) (change : Settings → Settings) (source : Nat)
    (name : String) : (b.adjust rig change).signal? source name = b.signal? source name := by
  simp only [signal?, adjust, List.getElem?_modify]
  cases b.rigs[source]? with
  | none => rfl
  | some held => by_cases own : rig = source <;> simp [own]

section Act

variable (holds : b.Holds rig r design) (act : Act)
include holds

theorem outlasts_settle :
    (b.settle rig r design ((act.operation (b.setup rig r design)).after (b.session r design))).Outlasts
      b := by
  intro source name bit found
  rw [signal?_settle holds]
  by_cases own : source = rig
  · rw [own, signal?_of_holds holds] at found
    rw [if_pos own, ← Bindings.mem_names_iff]
    have bound : name ∈ (b.session r design).simulator.vars.names :=
      (Bindings.mem_names_iff _ _).mpr ⟨bit, found⟩
    exact ((Setup.lasting_bound _ name).act act _ bound).after
  · exact ⟨bit, by rw [if_neg own, found]⟩

/-- A simulator that acts can read what the dump of the bench watches. -/
theorem readable_session (watches : ∀ d, b.dump = some d → b.Watches d) :
    (b.setup rig r design).Readable (b.session r design) := by
  intro d watching c mem
  obtain ⟨bit, found⟩ := watches d watching c mem
  refine ⟨bit, ?_⟩
  rw [Setup.readChannel_eq]
  by_cases own : c.source = rig
  · rw [own, signal?_of_holds holds] at found
    simp only [setup, session, own, if_true, found]
  · simp only [setup, own, if_false, found]

theorem watches_settle {d : Dump} (watches : ∀ d, b.dump = some d → b.Watches d)
    (left : ((act.operation (b.setup rig r design)).after (b.session r design)).dump = some d) :
    (b.settle rig r design ((act.operation (b.setup rig r design)).after (b.session r design))).Watches
      d := by
  have readable := ((Setup.lasting_readable _).act act _ (readable_session holds watches)).after
  intro c mem
  obtain ⟨bit, found⟩ := readable d left c mem
  refine ⟨bit, ?_⟩
  rw [signal?_settle holds]
  rw [Setup.readChannel_eq] at found
  simp only [setup] at found ⊢
  split at found
  · rename_i present
    cases found
    exact present
  · cases found

end Act

theorem Change.outlasts {b₁ b₂ : Bench} {shelf₁ shelf₂ : List Dump}
    (change : Change b₁ shelf₁ b₂ shelf₂) : b₂.Outlasts b₁ := by
  cases change with
  | addRig added => exact (outlasts_addRig added).1
  | adjust rig change => exact outlasts_of_signals (signal?_adjust b₁ rig change)
  | act act done =>
      obtain ⟨r, design, holds⟩ := holds_of_perform done
      rw [perform_eq holds] at done
      cases done
      exact outlasts_settle holds act
  | addDesign | revise | openFile | closeFile | newDump | noDump | useDump =>
      exact outlasts_of_signals fun _ _ => rfl

theorem Leads.outlasts {b₁ : Bench} {shelf₁ : List Dump} (leads : b.Leads shelf b₁ shelf₁) :
    b₁.Outlasts b := by
  induction leads with
  | refl => exact fun _ _ bit found => ⟨bit, found⟩
  | step before change ih =>
      intro source name bit found
      obtain ⟨bit', still⟩ := ih source name bit found
      exact change.outlasts source name bit' still

/-- A property of dumps, in or beside a bench, that whatever is done with the bench preserves. -/
structure Stable (P : Bench → Dump → Prop) : Prop where
  outlast : ∀ {b b' d}, P b d → b'.Outlasts b → P b' d
  new : ∀ {b}, P b {}
  openFile : ∀ {b d}, P b d → P b d.openFile
  close : ∀ {b d}, P b d → P b d.close
  act : ∀ {b shelf rig r design} (act : Act), b.Reachable shelf → b.Holds rig r design →
    (∀ d, b.dump = some d → P b d) →
    ∀ d, ((act.operation (b.setup rig r design)).after (b.session r design)).dump = some d →
      P (b.settle rig r design ((act.operation (b.setup rig r design)).after (b.session r design))) d

theorem Stable.change {P : Bench → Dump → Prop} (stable : Stable P) {b₁ b₂ : Bench}
    {shelf₁ shelf₂ : List Dump} (reachable : b₁.Reachable shelf₁) (change : Change b₁ shelf₁ b₂ shelf₂)
    (before : ∀ d ∈ b₁.dump.toList ++ shelf₁, P b₁ d) : ∀ d ∈ b₂.dump.toList ++ shelf₂, P b₂ d := by
  have replaced : ∀ {f : Dump → Dump}, (∀ {d}, P b₁ d → P b₁ (f d)) →
      ∀ d ∈ (b₁.dump.map f).toList ++ shelf₁, P { b₁ with dump := b₁.dump.map f } d := by
    intro f preserves d mem
    refine stable.outlast (b := b₁) ?_ (outlasts_of_signals fun _ _ => rfl)
    rcases List.mem_append.mp mem with used | aside
    · obtain ⟨old, inside, rfl⟩ := Option.map_eq_some_iff.mp (Option.mem_toList.mp used)
      exact preserves (before old (by simp [inside]))
    · exact before d (List.mem_append_right _ aside)
  have outlasts := change.outlasts
  cases change with
  | addDesign c => exact fun d mem => stable.outlast (before d mem) outlasts
  | addRig added =>
      rw [(outlasts_addRig added).2]
      exact fun d mem => stable.outlast (before d mem) outlasts
  | revise design change => exact fun d mem => stable.outlast (before d mem) outlasts
  | adjust rig change => exact fun d mem => stable.outlast (before d mem) outlasts
  | act act done =>
      obtain ⟨r, design, holds⟩ := holds_of_perform done
      rw [perform_eq holds] at done
      cases done
      intro d mem
      rcases List.mem_append.mp mem with used | aside
      · refine stable.act act reachable holds (fun d watching => before d ?_) d (Option.mem_toList.mp used)
        simp [watching]
      · exact stable.outlast (before d (List.mem_append_right _ aside)) outlasts
  | openFile => exact replaced stable.openFile
  | closeFile => exact replaced stable.close
  | newDump =>
      intro d mem
      rcases List.mem_append.mp mem with used | aside
      · cases List.mem_singleton.mp used
        exact stable.new
      · exact stable.outlast (before d aside) outlasts
  | noDump => exact fun d mem => stable.outlast (before d mem) outlasts
  | useDump =>
      intro d mem
      refine stable.outlast (before d ?_) outlasts
      simp only [Option.toList_some, List.singleton_append, List.mem_cons, List.mem_append] at mem ⊢
      tauto

theorem Stable.holds {P : Bench → Dump → Prop} (stable : Stable P) (reachable : b.Reachable shelf) :
    ∀ d ∈ b.dump.toList ++ shelf, P b d := by
  induction reachable with
  | refl => simp
  | step earlier change ih => exact stable.change earlier change ih

theorem stable_watches : Stable Watches where
  outlast watches outlasts := watches.outlast outlasts
  new := by simp [Watches]
  openFile watches := watches
  close watches := watches
  act act _ holds watches _ left := watches_settle holds act watches left

/-- Every signal that was ever registered with a dump is bound, whatever has happened since. -/
theorem Reachable.watches (reachable : b.Reachable shelf) :
    ∀ d ∈ b.dump.toList ++ shelf, b.Watches d :=
  stable_watches.holds reachable

/-- In a reachable bench every simulator can read all that it has to dump. -/
theorem Reachable.readable (reachable : b.Reachable shelf) (holds : b.Holds rig r design) :
    (b.setup rig r design).Readable (b.session r design) :=
  readable_session holds fun d watching => reachable.watches d (by simp [watching])

def relay : Circuit where
  name := "relay"
  inputs := ["In"]
  outputs := ["Out"]
  latches := ["L"]
  updates := [⟨"L", .signal "In"⟩, ⟨"Out", .signal "L'"⟩]
  traces := [⟨"In", [true, false]⟩]

def idleRelay : Rig :=
  { design := 0, settings := {}, simulator := { definitions := .empty } }

/-- Two new simulators of one circuit, beside a dump with an open file. -/
def twoRelays : Bench where
  designs := [{ circuit := relay }]
  rigs := [idleRelay, idleRelay]
  dump := some ({} : Dump).openFile

/-- The first simulator has run, so that the dump watches its signals. -/
def relayed : Bench :=
  twoRelays.settle 0 idleRelay { circuit := relay }
    ((twoRelays.setup 0 idleRelay { circuit := relay }).run.after
      (twoRelays.session idleRelay { circuit := relay }))

theorem reachable_relayed : relayed.Reachable [] := by
  have first : (Bench.addDesign {} relay).addRig 0 {} =
      .ok { twoRelays with rigs := [idleRelay], dump := none } := rfl
  have second : { twoRelays with rigs := [idleRelay], dump := none }.addRig 0 {} =
      .ok { twoRelays with dump := none } := rfl
  have holds : twoRelays.Holds 0 idleRelay { circuit := relay } := ⟨rfl, rfl⟩
  have built : Leads {} [] { twoRelays with dump := none } [] :=
    .step (.step (.step .refl (.addDesign relay)) (.addRig first)) (.addRig second)
  have started : Leads {} [] twoRelays [] := .step (.step built .newDump) .openFile
  exact .step started (.act (.call .run) (perform_eq holds Setup.run))

end Bench

end SyncCircuit
