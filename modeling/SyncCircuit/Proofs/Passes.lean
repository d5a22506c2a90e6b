import SyncCircuit.Proofs.CallDepth
import SyncCircuit.Proofs.Cycles

/-! # Passes over the updates

Which signals an update reads does not depend on their values, so a pass that succeeded once is a
reference for all others: whatever binds as many names as the reference had at its start gets through as
well, and only the values under those names matter (`Phase.applyUpdates_agree`). A pass that fails binds
nothing that the reference did not bind (`Phase.names_after_applyUpdates`).

Every cycle ends with a pass, and a first cycle from an empty start is the reference for all later ones.
-/

namespace SyncCircuit

open Bindings (AgreeOn)

namespace Phase

/-- The variables that a phase leaves, whether it succeeds or fails. -/
def after {α : Type} (phase : Phase α) (vars : Bindings Bool) : Bindings Bool :=
  match phase vars with
  | .ok _ left => left
  | .error _ left => left

variable {definitions : Definitions} {limit limit' : Int} {us : List Update}
  {f f' g g' h : Bindings Bool}

theorem applyUpdates_agree (reference : applyUpdates definitions limit us f = .ok () f')
    (agree : AgreeOn f.names g h) :
    ∃ g' h', applyUpdates definitions limit us g = .ok () g' ∧
      applyUpdates definitions limit us h = .ok () h' ∧ AgreeOn f'.names g' h' := by
  induction us generalizing f g h with
  | nil =>
      cases reference
      exact ⟨g, h, rfl, rfl, agree⟩
  | cons u rest ih =>
      obtain ⟨value, evaluated, reference⟩ := applyUpdates_cons_ok reference
      obtain ⟨b, inG, inH⟩ := Expr.eval_agree evaluated agree
      simp only [applyUpdates_cons, inG, inH]
      apply ih reference
      intro name bound
      by_cases here : name = u.target
      · exact ⟨b, by rw [here, Bindings.get?_put_self], by rw [here, Bindings.get?_put_self]⟩
      · have old := ((f.mem_names_put u.target name value).mp bound).resolve_right here
        rw [Bindings.get?_put_of_ne g b here, Bindings.get?_put_of_ne h b here]
        exact agree name old

theorem applyUpdates_bound (reference : applyUpdates definitions limit us f = .ok () f')
    (covered : ∀ name ∈ f.names, name ∈ g.names) :
    ∃ g', applyUpdates definitions limit us g = .ok () g' := by
  have agree : AgreeOn f.names g g := by
    intro name bound
    obtain ⟨b, found⟩ := (g.mem_names_iff name).mp (covered name bound)
    exact ⟨b, found, found⟩
  obtain ⟨g', -, pass, -⟩ := applyUpdates_agree reference agree
  exact ⟨g', pass⟩

theorem applyUpdates_deeper (deeper : limit ≤ limit')
    (pass : applyUpdates definitions limit us g = .ok () g') :
    applyUpdates definitions limit' us g = .ok () g' := by
  induction us generalizing g with
  | nil => exact pass
  | cons u rest ih =>
      obtain ⟨value, evaluated, pass⟩ := applyUpdates_cons_ok pass
      rw [applyUpdates_cons, Expr.eval_deeper deeper evaluated]
      exact ih pass

theorem after_of_ok {α : Type} {phase : Phase α} {value : α} (h : phase f = .ok value g) :
    phase.after f = g := by
  rw [after, h]

theorem after_of_error {α : Type} {phase : Phase α} {e : SimError} (h : phase f = .error e g) :
    phase.after f = g := by
  rw [after, h]

/-- A phase preserves a property of the variables, wherever it stops. -/
def Keeps {α : Type} (P : Bindings Bool → Prop) (phase : Phase α) : Prop :=
  ∀ f, P f → P (phase.after f)

section Keeps

variable {P : Bindings Bool → Prop}

theorem Keeps.bind {α β : Type} {x : Phase α} {k : α → Phase β} (first : x.Keeps P)
    (rest : ∀ a, (k a).Keeps P) : (x >>= k).Keeps P := by
  intro f start
  have middle := first f start
  cases found : x f with
  | ok a g =>
      rw [after_of_ok found] at middle
      rw [after, bind_of_ok found]
      exact rest a g middle
  | error e g =>
      rw [after_of_error found] at middle
      rw [after_of_error (bind_of_error found)]
      exact middle

theorem keeps_seed {sample : String → Except SimError Bool} {inputs : List String}
    (put : ∀ f, ∀ x ∈ inputs, ∀ value, P f → P (f.put x value)) : (seed sample inputs).Keeps P := by
  induction inputs with
  | nil => exact fun _ start => start
  | cons x rest ih =>
      intro f start
      have others := ih fun g y mem => put g y (List.mem_cons_of_mem _ mem)
      rw [after, seed_cons]
      cases sample x with
      | error e => exact start
      | ok value => exact others _ (put f x List.mem_cons_self value start)

theorem keeps_resetLatches {latches : List String}
    (put : ∀ f, ∀ latch ∈ latches, ∀ value, P f → P (f.put (latchOutput latch) value)) :
    (resetLatches latches).Keeps P := by
  induction latches with
  | nil => exact fun _ start => start
  | cons latch rest ih =>
      intro f start
      have others := ih fun g other mem => put g other (List.mem_cons_of_mem _ mem)
      exact others _ (put f latch List.mem_cons_self false start)

theorem keeps_copyLatches {latches : List String}
    (put : ∀ f, ∀ latch ∈ latches, ∀ value, P f → P (f.put (latchOutput latch) value)) :
    (copyLatches latches).Keeps P := by
  induction latches with
  | nil => exact fun _ start => start
  | cons latch rest ih =>
      intro f start
      have others := ih fun g other mem => put g other (List.mem_cons_of_mem _ mem)
      rw [after, copyLatches_cons]
      cases f.get? latch with
      | none => exact start
      | some value => exact others _ (put f latch List.mem_cons_self value start)

end Keeps

theorem after_applyUpdates_cons (u : Update) :
    (applyUpdates definitions limit (u :: us)).after f =
      match u.value.eval limit { definitions, globals := f } with
      | .ok value => (applyUpdates definitions limit us).after (f.put u.target value)
      | .error _ => f := by
  simp only [after, applyUpdates_cons]
  cases u.value.eval limit { definitions, globals := f } <;> rfl

theorem keeps_applyUpdates {P : Bindings Bool → Prop}
    (put : ∀ f, ∀ u ∈ us, ∀ value, P f → P (f.put u.target value)) :
    (applyUpdates definitions limit us).Keeps P := by
  induction us with
  | nil => exact fun _ start => start
  | cons u rest ih =>
      intro f start
      have others := ih fun g v mem => put g v (List.mem_cons_of_mem _ mem)
      rw [after_applyUpdates_cons]
      cases u.value.eval limit { definitions, globals := f } with
      | error cause => exact start
      | ok value => exact others _ (put f u List.mem_cons_self value start)

theorem subset_names_after_applyUpdates :
    ∀ name ∈ f.names, name ∈ ((applyUpdates definitions limit us).after f).names := by
  induction us generalizing f with
  | nil => exact fun _ bound => bound
  | cons u rest ih =>
      intro name bound
      rw [after_applyUpdates_cons]
      cases u.value.eval limit { definitions, globals := f } with
      | error cause => exact bound
      | ok value => exact ih name ((f.mem_names_put _ _ _).mpr (.inl bound))

/-- A pass that starts with no more than what another pass leaves ends with no more: at the update at which
    the other fails it fails too, or earlier. -/
theorem names_after_applyUpdates
    (start : ∀ name ∈ g.names, name ∈ ((applyUpdates definitions limit us).after f).names) :
    ∀ name ∈ ((applyUpdates definitions limit us).after g).names,
      name ∈ ((applyUpdates definitions limit us).after f).names := by
  induction us generalizing f g with
  | nil => exact start
  | cons u rest ih =>
      rw [after_applyUpdates_cons] at start ⊢
      rw [after_applyUpdates_cons]
      cases inG : u.value.eval limit { definitions, globals := g } with
      | error cause => exact start
      | ok b =>
          cases inF : u.value.eval limit { definitions, globals := f } with
          | error cause =>
              rw [inF] at start
              obtain ⟨a, success⟩ := Expr.eval_bound start inG
              cases inF.symm.trans success
          | ok a =>
              rw [inF] at start
              apply ih
              intro name bound
              rcases (g.mem_names_put _ _ _).mp bound with old | rfl
              · exact start name old
              · exact subset_names_after_applyUpdates _ ((f.mem_names_put _ _ _).mpr (.inr rfl))

end Phase

namespace Circuit

variable {c : Circuit} {definitions : Definitions} {limit limit' : Int} {v : Bindings Bool} {cycle : Nat}

section Keeps

variable {P : Bindings Bool → Prop}
  (put : ∀ f, ∀ name ∈ c.driven, ∀ value, P f → P (f.put name value))
include put

theorem keeps_driven_inputs {sample : String → Except SimError Bool} :
    (Phase.seed sample c.inputs).Keeps P :=
  Phase.keeps_seed fun f x mem => put f x (by simp [driven, mem])

theorem put_driven_latchOutput : ∀ f, ∀ latch ∈ c.latches, ∀ value, P f →
    P (f.put (latchOutput latch) value) :=
  fun f latch mem => put f (latchOutput latch)
    (by simp [driven, latchOutputs, List.mem_map_of_mem mem])

theorem keeps_driven_targets : (Phase.applyUpdates definitions limit c.updates).Keeps P :=
  Phase.keeps_applyUpdates fun f u mem => put f u.target
    (by simp [driven, targets, List.mem_map_of_mem mem])

theorem keeps_firstPhase : (c.firstPhase definitions limit).Keeps P :=
  (keeps_driven_inputs put).bind fun _ =>
    (Phase.keeps_resetLatches (put_driven_latchOutput put)).bind fun _ => keeps_driven_targets put

theorem keeps_nextPhase {cycle : Int} : (c.nextPhase definitions limit cycle).Keeps P :=
  (Phase.keeps_copyLatches (put_driven_latchOutput put)).bind fun _ =>
    (keeps_driven_inputs put).bind fun _ => keeps_driven_targets put

end Keeps

namespace Reached

/-- Every cycle ends with a pass over the updates that starts with all inputs and outputs of latches
    bound. -/
theorem pass {start : Bindings Bool} (reached : c.Reached definitions limit start cycle v) :
    ∃ seeded, Phase.applyUpdates definitions limit c.updates seeded = .ok () v ∧
      ∀ name, name ∈ c.inputs ∨ name ∈ c.latchOutputs → name ∈ seeded.names := by
  cases reached with
  | first h =>
      obtain ⟨seeded, reset, first, second, third⟩ := firstPhase_ok h
      refine ⟨reset, third, ?_⟩
      intro name written
      rw [(Phase.resetLatches_wrote second).mem_names, (Phase.seed_wrote first).mem_names]
      exact written.imp_left .inr
  | next earlier h =>
      obtain ⟨copied, seeded, first, second, third⟩ := nextPhase_ok h
      refine ⟨seeded, third, ?_⟩
      intro name written
      rw [(Phase.seed_wrote second).mem_names, (Phase.copyLatches_wrote first).mem_names]
      exact written.symm.imp_left .inr

/-- From an empty start the first cycle has made a pass that began with nothing else bound. -/
theorem first_pass (reached : c.Reached definitions limit .empty cycle v) :
    ∃ f f', Phase.applyUpdates definitions limit c.updates f = .ok () f' ∧
      ∀ name, name ∈ f.names ↔ name ∈ c.inputs ∨ name ∈ c.latchOutputs := by
  induction reached with
  | first h =>
      obtain ⟨seeded, reset, first, second, third⟩ := firstPhase_ok h
      refine ⟨reset, _, third, ?_⟩
      intro name
      rw [(Phase.resetLatches_wrote second).mem_names, (Phase.seed_wrote first).mem_names]
      simp [latchOutputs]
  | next earlier h ih => exact ih

theorem deeper {start : Bindings Bool} (levels : limit ≤ limit')
    (reached : c.Reached definitions limit start cycle v) :
    c.Reached definitions limit' start cycle v := by
  induction reached with
  | first h =>
      obtain ⟨seeded, reset, first, second, third⟩ := firstPhase_ok h
      apply Reached.first
      rw [firstPhase, bind_of_ok first, bind_of_ok second]
      exact Phase.applyUpdates_deeper levels third
  | next earlier h ih =>
      obtain ⟨copied, seeded, first, second, third⟩ := nextPhase_ok h
      apply ih.next
      rw [nextPhase, bind_of_ok first, bind_of_ok second]
      exact Phase.applyUpdates_deeper levels third

end Reached

end Circuit

end SyncCircuit
