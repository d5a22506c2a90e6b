import Mathlib.Data.List.Nodup
import SyncCircuit.Circuit.Structure

/-! # Well-formed circuits

The structural check walks over declarations, targets and definitions with a list of what it has seen.
Each walk accepts exactly if what is left has no repetition and meets nothing seen before, so the check
as a whole accepts exactly the circuits that `Circuit.WellFormed` describes.
-/

namespace SyncCircuit

namespace Circuit

/-- The structural rules of a circuit. -/
structure WellFormed (c : Circuit) : Prop where
  declared : (c.inputs ++ c.outputs ++ c.latches).Nodup
  targets : c.targets.Nodup
  target_not_input : ∀ target ∈ c.targets, target ∉ c.inputs
  target_not_latchOutput : ∀ target ∈ c.targets, target ∉ c.latchOutputs
  parameters : ∀ d ∈ c.definitions, d.parameters.Nodup

theorem WellFormed.target_not_seeded {c : Circuit} (wellFormed : c.WellFormed) {name : String}
    (target : name ∈ c.targets) : ¬ (name ∈ c.inputs ∨ name ∈ c.latchOutputs) := by
  intro seeded
  cases seeded with
  | inl input => exact wellFormed.target_not_input name target input
  | inr output => exact wellFormed.target_not_latchOutput name target output

private theorem lookup_eq_none {seen : List (String × Role)} {name : String} :
    seen.lookup name = none ↔ name ∉ seen.map Prod.fst := by
  rw [List.lookup_eq_none_iff, List.mem_map]
  constructor
  · intro absent found
    obtain ⟨entry, mem, rfl⟩ := found
    simpa using absent entry mem
  · intro absent entry mem
    simpa using fun same => absent ⟨entry, mem, same.symm⟩

theorem checkRoles_eq_ok_iff (seen rest : List (String × Role)) :
    checkRoles seen rest = .ok () ↔
      (rest.map Prod.fst).Nodup ∧ ∀ name ∈ rest.map Prod.fst, name ∉ seen.map Prod.fst := by
  induction rest generalizing seen with
  | nil => simp [checkRoles]
  | cons entry rest ih =>
      obtain ⟨name, role⟩ := entry
      rw [checkRoles]
      cases found : seen.lookup name with
      | some first =>
          have known : name ∈ seen.map Prod.fst := by
            by_contra absent
            rw [lookup_eq_none.mpr absent] at found
            cases found
          constructor
          · intro h
            by_cases same : first = role <;> simp [same] at h
          · intro h
            exact absurd known (h.2 name List.mem_cons_self)
      | none =>
          have absent := lookup_eq_none.mp found
          simp only [ih, List.map_cons, List.nodup_cons, List.mem_cons, forall_eq_or_imp, not_or]
          constructor
          · rintro ⟨distinct, apart⟩
            exact ⟨⟨fun mem => (apart name mem).1 rfl, distinct⟩, absent,
              fun other mem => (apart other mem).2⟩
          · rintro ⟨⟨head, distinct⟩, _, apart⟩
            exact ⟨distinct, fun other mem => ⟨fun same => head (same ▸ mem), apart other mem⟩⟩

theorem checkTargets_eq_ok_iff (c : Circuit) (seen rest : List String) :
    c.checkTargets seen rest = .ok () ↔
      rest.Nodup ∧
        ∀ target ∈ rest, target ∉ seen ∧ target ∉ c.inputs ∧ target ∉ c.latchOutputs := by
  induction rest generalizing seen with
  | nil => simp [checkTargets]
  | cons target rest ih =>
      rw [checkTargets]
      by_cases known : target ∈ seen
      · simp [known]
      by_cases input : target ∈ c.inputs
      · simp [known, input]
      by_cases output : target ∈ c.latchOutputs
      · simp [known, input, output]
      simp only [known, input, output, if_false, ih, List.nodup_cons, List.mem_cons,
        forall_eq_or_imp, not_or]
      constructor
      · rintro ⟨distinct, apart⟩
        exact ⟨⟨fun mem => (apart target mem).1.1 rfl, distinct⟩, by simp,
          fun other mem => ⟨(apart other mem).1.2, (apart other mem).2⟩⟩
      · rintro ⟨⟨head, distinct⟩, _, apart⟩
        exact ⟨distinct, fun other mem =>
          ⟨⟨fun same => head (same ▸ mem), (apart other mem).1⟩, (apart other mem).2⟩⟩

theorem checkParameters_eq_ok_iff (definitions : List Definition) :
    checkParameters definitions = .ok () ↔ ∀ d ∈ definitions, d.parameters.Nodup := by
  induction definitions with
  | nil => simp [checkParameters]
  | cons d rest ih =>
      rw [checkParameters]
      by_cases distinct : d.parameters.Nodup
      · simp [distinct, ih]
      · simp [distinct]

theorem map_fst_declarations (c : Circuit) :
    c.declarations.map Prod.fst = c.inputs ++ c.outputs ++ c.latches := by
  simp [declarations, Function.comp_def]

/-- The check accepts exactly the well-formed circuits. -/
theorem checkStructure_eq_ok_iff (c : Circuit) : c.checkStructure = .ok () ↔ c.WellFormed := by
  have steps : c.checkStructure = .ok () ↔
      checkRoles [] c.declarations = .ok () ∧ c.checkTargets [] c.targets = .ok () ∧
        checkParameters c.definitions = .ok () := by
    simp only [checkStructure, bind, Except.bind]
    cases checkRoles [] c.declarations with
    | error e => simp
    | ok _ =>
        cases c.checkTargets [] c.targets with
        | error e => simp
        | ok _ => simp
  rw [steps, checkRoles_eq_ok_iff, checkTargets_eq_ok_iff, checkParameters_eq_ok_iff,
    map_fst_declarations]
  constructor
  · rintro ⟨⟨declared, _⟩, ⟨distinct, apart⟩, parameters⟩
    exact ⟨declared, distinct, fun target mem => (apart target mem).2.1,
      fun target mem => (apart target mem).2.2, parameters⟩
  · rintro ⟨declared, distinct, notInput, notOutput, parameters⟩
    exact ⟨⟨declared, by simp⟩,
      ⟨distinct, fun target mem => ⟨by simp, notInput target mem, notOutput target mem⟩⟩, parameters⟩

end Circuit

end SyncCircuit
