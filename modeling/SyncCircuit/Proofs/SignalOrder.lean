import SyncCircuit.Proofs.Invariants
import SyncCircuit.Proofs.Passes

/-! # The order of signals

A signal is bound by the first write to it and keeps its place from then on. The first cycle of a new
simulator writes inputs, outputs of latches and targets of updates, and later cycles write the same names
in another order, so the valuations that a run reports all list the same signals in the same order
(`Circuit.Reached.names_eq`). A cycle that fails half-way has written some of these names and no others,
and does not disturb the order either (`Setup.robust_names`).
-/

namespace SyncCircuit

theorem Bindings.names_put_of_bound {α : Type} {b : Bindings α} {name : String} (value : α)
    (bound : name ∈ b.names) : (b.put name value).names = b.names := by
  rw [names_put, if_pos bound]

namespace Circuit

variable {c : Circuit} {definitions : Definitions} {limit : Int} {cycle : Nat} {v : Bindings Bool}

theorem firstPhase_names_eq (h : c.firstPhase definitions limit .empty = .ok () v) :
    v.names = c.driven.eraseDups := by
  rw [(firstPhase_wrote h).names_eq, Bindings.names_empty, List.nil_append,
    List.filter_eq_self.mpr fun _ _ => by simp]

/-- From an empty start every cycle ends with the same names in the same order: inputs, outputs of latches
    and targets, each where it comes first. -/
theorem Reached.names_eq (reached : c.Reached definitions limit .empty cycle v) :
    v.names = c.driven.eraseDups := by
  induction reached with
  | first h => exact firstPhase_names_eq h
  | next earlier h ih =>
      rw [(nextPhase_wrote h).names_eq_of_bound, ih]
      intro name mem
      rw [ih, List.mem_eraseDups]
      exact (mem_written_iff_driven _ name).mp mem

end Circuit

namespace Setup

open Operation

variable {u : Setup} {s : Session}

theorem robust_names {names : List String} (covered : ∀ name ∈ u.circuit.driven, name ∈ names) :
    u.Robust fun s => s.simulator.vars.names = names := by
  have put : ∀ f : Bindings Bool, ∀ name ∈ u.circuit.driven, ∀ value, f.names = names →
      (f.put name value).names = names := by
    rintro f name mem value rfl
    exact Bindings.names_put_of_bound value (covered name mem)
  apply robust_of_simulator (P := fun sim => sim.vars.names = names)
  · exact fun _ _ _ same => same
  · exact fun sim => Circuit.keeps_driven_inputs put sim.vars
  · exact fun sim => Circuit.keeps_firstPhase put sim.vars
  · exact fun sim _ => Circuit.keeps_nextPhase put sim.vars

theorem ensures_run_names (fresh : s.Fresh u) :
    u.run.Ensures s (fun _ t => t.simulator.vars.names = u.circuit.driven.eraseDups)
      (fun _ t => t.cycles = [] ∨ t.simulator.vars.names = u.circuit.driven.eraseDups) := by
  have started : (u.announce (.started u.circuit.name s.results)).Ensures s
      (fun _ t => t.cycles = [] ∧ t.simulator.vars = .empty)
      (fun _ t => t.cycles = [] ∨ t.simulator.vars.names = u.circuit.driven.eraseDups) := by
    apply ensures_announce
    intro t simulator _ _ hooks
    have unreported : t.cycles = [] := by
      rw [Session.cycles, hooks, fresh.hooks]
      rfl
    exact ⟨⟨unreported, by rw [simulator, fresh.vars]⟩, fun _ _ => .inl unreported⟩
  have robust := robust_names (u := u) fun name mem => List.mem_eraseDups.mpr mem
  apply ensures_get
  apply started.bind
  rintro _ t ⟨unreported, nothing⟩
  -- until the first cycle ends nothing is reported, and when it ends the order is settled
  have opened : u.firstCycle.Ensures t
      (fun _ r => r.simulator.vars.names = u.circuit.driven.eraseDups)
      (fun _ r => r.cycles = [] ∨ r.simulator.vars.names = u.circuit.driven.eraseDups) := by
    apply ensures_opening
    · exact fun _ _ _ => .inl unreported
    · exact fun _ _ _ => .inl unreported
    · exact fun _ _ _ _ => .inl unreported
    · exact fun _ _ _ _ _ => .inl unreported
    · intro vars length _ _ success
      rw [nothing] at success
      have ended := robust.endCycle 0 (u.ready t vars length) (Circuit.firstPhase_names_eq success)
      exact ended.mono (fun _ _ same => same) fun _ _ => .inr
    · exact fun _ _ same alike _ => alike.simulator ▸ same
  apply opened.bind
  intro _ r same
  exact (robust.invariant.proceed r same).mono (fun _ _ same => same) fun _ _ => .inr

/-- All valuations that a run of a new simulator reports list the same signals in the same order: inputs,
    outputs of latches and targets of updates, each where it comes first. Once a cycle was reported the
    simulator keeps that order too, even if a later cycle fails half-way. -/
theorem signals_fixed_by_first_cycle (u : Setup) {s : Session} (fresh : s.Fresh u) :
    (∀ ended ∈ (u.run.after s).cycles, ended.2.names =
      (u.circuit.inputs ++ u.circuit.latches.map latchOutput ++
        u.circuit.updates.map (·.target)).eraseDups) ∧
      ((u.run.after s).cycles ≠ [] → (u.run.after s).simulator.vars.names =
        (u.circuit.inputs ++ u.circuit.latches.map latchOutput ++
          u.circuit.updates.map (·.target)).eraseDups) := by
  constructor
  · obtain ⟨values, told, reached⟩ := u.cycles_run s
    rw [told, fresh.cycles, List.nil_append]
    intro ended mem
    obtain ⟨i, inside, rfl⟩ := List.mem_mapIdx.mp mem
    have cycle := reached i _ (List.getElem?_eq_getElem inside)
    rw [Reaches, fresh.vars] at cycle
    exact cycle.names_eq
  · intro reported
    have left : (u.run.after s).cycles = [] ∨
        (u.run.after s).simulator.vars.names = u.circuit.driven.eraseDups :=
      Ensures.after (P := fun t => t.cycles = [] ∨ t.simulator.vars.names = u.circuit.driven.eraseDups)
        ((ensures_run_names fresh).mono (fun _ _ => .inr) fun _ _ left => left)
    exact left.resolve_left reported

/-- Names that clash in every way: repeated inputs, latches and targets, an input that is also the output
    of a latch, and updates that write an input and the output of a latch. -/
private def clashingNames : Circuit where
  name := "clashing"
  inputs := ["M'", "In", "In"]
  outputs := ["Out"]
  latches := ["L", "M", "L"]
  updates := [⟨"Out", .signal "L'"⟩, ⟨"In", .not (.signal "In")⟩, ⟨"L'", .signal "M'"⟩,
    ⟨"M", .signal "In"⟩, ⟨"L", .signal "Out"⟩, ⟨"Out", .signal "In"⟩]
  traces := [⟨"X", [true, true, true]⟩, ⟨"X", [true, true]⟩, ⟨"In", [true, false]⟩,
    ⟨"M'", [true, true]⟩]

private def unchecked (c : Circuit) : Setup :=
  { circuit := c, settings := { checkStructure := false } }

theorem signals_fixed_despite_clashes :
    (Session.start .empty).Fresh (unchecked clashingNames) ∧
      (unchecked clashingNames).run.succeeds (.start .empty) = false ∧
      ((unchecked clashingNames).run.after (.start .empty)).cycles.map Prod.fst = [0, 1] ∧
      (∀ ended ∈ ((unchecked clashingNames).run.after (.start .empty)).cycles,
        ended.2.names = ["M'", "In", "L'", "Out", "M", "L"]) ∧
      ((unchecked clashingNames).run.after (.start .empty)).simulator.vars.names =
        ["M'", "In", "L'", "Out", "M", "L"] := by
  have fresh : (Session.start .empty).Fresh (unchecked clashingNames) := ⟨rfl, rfl⟩
  have order : (clashingNames.inputs ++ clashingNames.latches.map latchOutput ++
      clashingNames.updates.map (·.target)).eraseDups = ["M'", "In", "L'", "Out", "M", "L"] := by
    decide +kernel
  have reported : ((unchecked clashingNames).run.after (.start .empty)).cycles.map Prod.fst =
      [0, 1] := by decide +kernel
  obtain ⟨snapshots, left⟩ := signals_fixed_by_first_cycle (unchecked clashingNames) fresh
  refine ⟨fresh, by decide +kernel, reported, ?_, ?_⟩
  · exact fun ended mem => (snapshots ended mem).trans order
  · refine (left fun none => ?_).trans order
    rw [none] at reported
    cases reported

end Setup

end SyncCircuit
