import SyncCircuit.Proofs.Passes
import SyncCircuit.Proofs.Runs

/-! # Invariants of runs

A property of sessions is an invariant if every step of a run preserves it, wherever the step stops
(`Setup.Invariant`); then whole runs do. It is one as soon as the phases of the cycles and what goes on
between them do not disturb it (`Setup.Robust.invariant`), and for a property of the simulator alone only
the phases matter (`Setup.robust_of_simulator`). That the monitor is told more and more, and nothing is
taken back, is such an invariant too (`Setup.invariant_hooks`).
-/

namespace SyncCircuit

namespace Operation

/-- An operation preserves a property of sessions, wherever it stops. -/
def Keeps (P : Session → Prop) (op : Operation Unit) : Prop :=
  ∀ s, P s → op.Ensures s (fun _ => P) fun _ => P

variable {P : Session → Prop} {x : Operation Unit} {f : Unit → Operation Unit}

theorem Keeps.bind (first : x.Keeps P) (rest : (f ()).Keeps P) : (x >>= f).Keeps P :=
  fun s start => (first s start).bind fun _ t middle => rest t middle

theorem keeps_get {g : Session → Operation Unit} (rest : ∀ s, (g s).Keeps P) : (get >>= g).Keeps P :=
  fun s start => rest s s start

theorem keeps_onVariables {phase : Phase Unit}
    (kept : ∀ s, P s → P (s.withVars (phase.after s.simulator.vars))) : (onVariables phase).Keeps P := by
  intro s start
  have left := kept s start
  simp only [Ensures, onVariables]
  cases found : phase s.simulator.vars with
  | ok _ vars =>
      rw [Phase.after_of_ok found] at left
      exact left
  | error e vars =>
      rw [Phase.after_of_error found] at left
      exact left

/-- Whatever the monitor was told remains. -/
def Extends (op : Operation Unit) : Prop :=
  ∀ earlier, op.Keeps fun s => earlier <+: s.hooks

theorem Extends.after_bind (rest : (f ()).Extends) (s : Session) :
    (x.after s).hooks <+: ((x >>= f).after s).hooks := by
  cases found : x s with
  | ok _ t =>
      simp only [after, bind_of_ok found, found]
      exact (rest t.hooks t List.prefix_rfl).after
  | error e t =>
      simp only [after, bind_of_error found, found]
      exact List.prefix_rfl

end Operation

namespace Setup

open Operation

/-- What a run does when its last cycle has ended. -/
def conclude (u : Setup) : Operation Unit := do
  publish
  u.announce (.finished u.circuit.name (← get).results)

/-- What a run does when its first cycle has ended. -/
def proceed (u : Setup) : Operation Unit := do
  u.startDump
  u.laterCycles (List.range' 1 ((← get).simulator.length - 1))
  u.conclude

/-- A property that the steps of a run preserve. -/
structure Invariant (u : Setup) (P : Session → Prop) : Prop where
  alike : ∀ {s t}, u.Alike s t → P s → P t
  announce : ∀ occasion, (u.announce occasion).Keeps P
  publish : publish.Keeps P
  firstCycle : u.firstCycle.Keeps P
  nextCycle : ∀ cycle, (u.nextCycle cycle).Keeps P

namespace Invariant

variable {u : Setup} {P : Session → Prop} (invariant : u.Invariant P)
include invariant

theorem progress (message : String) : (progress message).Keeps P := fun _ start =>
  (ensures_progress message).mono (fun _ _ alike => invariant.alike alike start) fun _ _ h => h

theorem startDump : u.startDump.Keeps P := fun s start =>
  (u.ensures_startDump s).mono (fun _ _ alike => invariant.alike alike start)
    fun _ _ failed => invariant.alike failed.1 start

theorem continueDump (cycle : Int) : (u.continueDump cycle).Keeps P := fun s start =>
  (u.ensures_continueDump s cycle).mono (fun _ _ alike => invariant.alike alike start)
    fun _ _ failed => invariant.alike failed.1 start

theorem laterCycles (cycles : List Nat) : (u.laterCycles cycles).Keeps P := by
  induction cycles with
  | nil => exact fun _ start => start
  | cons cycle rest ih =>
      exact (invariant.progress _).bind ((invariant.nextCycle cycle).bind
        ((invariant.continueDump cycle).bind ih))

theorem conclude : u.conclude.Keeps P :=
  invariant.publish.bind (keeps_get fun _ => invariant.announce _)

theorem proceed : u.proceed.Keeps P :=
  invariant.startDump.bind (keeps_get fun _ => (invariant.laterCycles _).bind invariant.conclude)

theorem run : u.run.Keeps P :=
  keeps_get fun _ => (invariant.announce _).bind (invariant.firstCycle.bind invariant.proceed)

end Invariant

/-- A property of sessions that is not disturbed by calls of the monitor, by what is dumped, recorded and
    published, or by any phase of a cycle, wherever the phase stops. -/
structure Robust (u : Setup) (P : Session → Prop) : Prop where
  alike : ∀ {s t}, u.Alike s t → P s → P t
  announce : ∀ occasion, (u.announce occasion).Keeps P
  publish : publish.Keeps P
  record : ∀ {s} length history, P s → P { s with simulator := { s.simulator with length, history } }
  seed : ∀ {s}, P s → P (s.withVars
    ((Phase.seed u.circuit.firstSample u.circuit.inputs).after s.simulator.vars))
  first : ∀ {s}, P s → P (s.withVars
    ((u.circuit.firstPhase s.simulator.definitions s.simulator.depthLimit).after s.simulator.vars))
  next : ∀ {s} cycle, P s → P (s.withVars
    ((u.circuit.nextPhase s.simulator.definitions s.simulator.depthLimit cycle).after s.simulator.vars))

namespace Robust

variable {u : Setup} {P : Session → Prop} (robust : u.Robust P)
include robust

theorem endCycle (cycle : Int) : (u.endCycle cycle).Keeps P := by
  intro s start
  apply ensures_recordOutputs
  · exact fun _ _ _ history => robust.record _ history start
  · intro _
    apply ensures_get
    exact robust.announce _ _ (robust.record _ _ start)

theorem firstCycle : u.firstCycle.Keeps P := by
  intro s start
  have seeded := robust.seed start
  have computed := robust.first start
  apply ensures_opening
  · exact fun _ _ _ => start
  · intro e vars failure
    rwa [Phase.after_of_error failure] at seeded
  · intro e vars success _
    rwa [Phase.after_of_ok success] at seeded
  · intro e vars length _ failure
    rw [Phase.after_of_error failure] at computed
    exact robust.record length _ computed
  · intro vars length _ _ success
    rw [Phase.after_of_ok success] at computed
    exact robust.endCycle 0 _ (robust.record length _ computed)
  · exact fun _ _ kept alike _ => robust.alike alike kept

theorem nextCycle (cycle : Int) : (u.nextCycle cycle).Keeps P := by
  intro s start
  have computed := robust.next cycle start
  apply ensures_advance
  · intro e vars failure
    rwa [Phase.after_of_error failure] at computed
  · intro vars success
    rw [Phase.after_of_ok success] at computed
    exact robust.endCycle cycle _ computed

theorem invariant : u.Invariant P where
  alike := robust.alike
  announce := robust.announce
  publish := robust.publish
  firstCycle := robust.firstCycle
  nextCycle := robust.nextCycle

end Robust

theorem robust_of_simulator {u : Setup} {P : Simulator → Prop}
    (record : ∀ sim length history, P sim → P { sim with length, history })
    (seed : ∀ sim, P sim → P { sim with
      vars := (Phase.seed u.circuit.firstSample u.circuit.inputs).after sim.vars })
    (first : ∀ sim, P sim → P { sim with
      vars := (u.circuit.firstPhase sim.definitions sim.depthLimit).after sim.vars })
    (next : ∀ sim cycle, P sim → P { sim with
      vars := (u.circuit.nextPhase sim.definitions sim.depthLimit cycle).after sim.vars }) :
    u.Robust fun s => P s.simulator where
  alike alike start := alike.simulator ▸ start
  announce occasion s start := by
    apply ensures_announce
    intro t simulator _ _ _
    rw [simulator]
    exact ⟨start, fun _ _ => start⟩
  publish _ start := start
  record length history start := record _ length history start
  seed start := seed _ start
  first start := first _ start
  next cycle start := next _ cycle start

theorem invariant_hooks (u : Setup) (earlier : List Hook) :
    u.Invariant fun s => earlier <+: s.hooks := by
  apply Robust.invariant
  refine ⟨fun alike start => alike.hooks ▸ start, ?_, fun _ start => start, fun _ _ start => start, id, id,
    fun _ => id⟩
  intro occasion s start
  apply ensures_announce
  intro t _ _ _ hooks
  have longer : earlier <+: t.hooks := hooks ▸ start.trans (List.prefix_append _ _)
  exact ⟨longer, fun _ _ => longer⟩

end Setup

end SyncCircuit
