import Mathlib.Data.List.Count
import Mathlib.Tactic.Push
import SyncCircuit.Proofs.WellFormed

/-! # Violations of the structural rules

A circuit is refused exactly if it breaks one of the rules, and the report names a rule that it breaks
(`Circuit.checkStructure_refuses_iff`). Each walk of the check reports a name together with what it has met
before, so what a report says is read off the part of the list that has been walked and the name at which
the walk stopped.
-/

namespace SyncCircuit

namespace Circuit

/-- The names that are declared in a role. -/
def declared (c : Circuit) : Role → List String
  | .input => c.inputs
  | .output => c.outputs
  | .latch => c.latches

theorem count_declarations (c : Circuit) (name : String) (role : Role) :
    c.declarations.count (name, role) = (c.declared role).count name := by
  have own : ∀ (names : List String) (r : Role), (names.map (·, r)).count (name, r) = names.count name :=
    fun names r => List.count_map_of_injective names (·, r) (fun _ _ same => (Prod.ext_iff.mp same).1) name
  have none : ∀ (names : List String) (r : Role), r ≠ role → (names.map (·, r)).count (name, role) = 0 := by
    intro names r other
    rw [List.count_eq_zero, List.mem_map]
    rintro ⟨_, -, same⟩
    exact other (Prod.ext_iff.mp same).2
  rw [declarations, List.count_append, List.count_append]
  cases role <;> simp [own, none, declared]

theorem mem_declarations_iff (c : Circuit) (name : String) (role : Role) :
    (name, role) ∈ c.declarations ↔ name ∈ c.declared role := by
  rw [← List.count_pos_iff, count_declarations, List.count_pos_iff]

end Circuit

/-- What a report says about a circuit. -/
def StructureError.Holds (c : Circuit) : StructureError → Prop
  | .declaredTwice name role => 2 ≤ (c.declared role).count name
  | .declaredBoth name first second =>
      first ≠ second ∧ name ∈ c.declared first ∧ name ∈ c.declared second
  | .updatedTwice name => 2 ≤ c.targets.count name
  | .inputUpdated name => name ∈ c.targets ∧ name ∈ c.inputs
  | .latchOutputUpdated name => name ∈ c.targets ∧ name ∈ c.latchOutputs
  | .repeatedParameter function => ∃ d ∈ c.definitions, d.name = function ∧ ¬ d.parameters.Nodup

namespace Circuit

variable {c : Circuit} {cause : StructureError}

private theorem pair_sublist {α : Type} {x y : α} {seen rest whole : List α}
    (split : seen.reverse ++ y :: rest = whole) (earlier : x ∈ seen) : List.Sublist [x, y] whole := by
  have first : List.Sublist [x] seen.reverse := List.singleton_sublist.mpr (List.mem_reverse.mpr earlier)
  have second : List.Sublist [y] (y :: rest) := List.singleton_sublist.mpr List.mem_cons_self
  rw [← split]
  exact first.append second

theorem checkRoles_reports {seen rest : List (String × Role)} (split : seen.reverse ++ rest = c.declarations)
    (refused : checkRoles seen rest = .error cause) : cause.Holds c := by
  induction rest generalizing seen with
  | nil => cases refused
  | cons entry rest ih =>
      obtain ⟨name, role⟩ := entry
      rw [checkRoles] at refused
      cases found : seen.lookup name with
      | none =>
          rw [found] at refused
          exact ih (by simpa using split) refused
      | some first =>
          obtain ⟨before, after, rfl, -⟩ := List.lookup_eq_some_iff.mp found
          have pair : List.Sublist [(name, first), (name, role)] c.declarations :=
            pair_sublist split (by simp)
          rw [found] at refused
          by_cases same : first = role
          · simp only [same, if_true] at refused
            cases refused
            rw [same] at pair
            have twice : 2 ≤ c.declarations.count (name, role) :=
              List.replicate_sublist_iff.mp pair
            rwa [count_declarations] at twice
          · simp only [same, if_false] at refused
            cases refused
            refine ⟨same, ?_, ?_⟩
            · exact (c.mem_declarations_iff name first).mp (pair.subset (by simp))
            · exact (c.mem_declarations_iff name role).mp (pair.subset (by simp))

theorem checkTargets_reports {seen rest : List String} (split : seen.reverse ++ rest = c.targets)
    (refused : c.checkTargets seen rest = .error cause) : cause.Holds c := by
  induction rest generalizing seen with
  | nil => cases refused
  | cons target rest ih =>
      have mem : target ∈ c.targets := by simp [← split]
      rw [checkTargets] at refused
      by_cases known : target ∈ seen
      · rw [if_pos known] at refused
        cases refused
        exact List.replicate_sublist_iff.mp (pair_sublist split known)
      rw [if_neg known] at refused
      by_cases input : target ∈ c.inputs
      · rw [if_pos input] at refused
        cases refused
        exact ⟨mem, input⟩
      rw [if_neg input] at refused
      by_cases output : target ∈ c.latchOutputs
      · rw [if_pos output] at refused
        cases refused
        exact ⟨mem, output⟩
      rw [if_neg output] at refused
      exact ih (by simpa using split) refused

theorem checkParameters_reports {definitions : List Definition} (among : definitions ⊆ c.definitions)
    (refused : checkParameters definitions = .error cause) : cause.Holds c := by
  induction definitions with
  | nil => cases refused
  | cons d rest ih =>
      rw [List.cons_subset] at among
      rw [checkParameters] at refused
      by_cases distinct : d.parameters.Nodup
      · rw [if_pos distinct] at refused
        exact ih among.2 refused
      · rw [if_neg distinct] at refused
        cases refused
        exact ⟨d, among.1, rfl, distinct⟩

theorem checkStructure_reports (refused : c.checkStructure = .error cause) : cause.Holds c := by
  simp only [checkStructure, bind, Except.bind] at refused
  cases roles : checkRoles [] c.declarations with
  | error e =>
      rw [roles] at refused
      cases refused
      exact checkRoles_reports rfl roles
  | ok _ =>
      rw [roles] at refused
      cases targets : c.checkTargets [] c.targets with
      | error e =>
          rw [targets] at refused
          cases refused
          exact checkTargets_reports rfl targets
      | ok _ =>
          rw [targets] at refused
          exact checkParameters_reports (List.Subset.refl _) refused

theorem checkStructure_eq_error_iff (c : Circuit) :
    (∃ cause, c.checkStructure = .error cause) ↔ ¬ c.WellFormed := by
  rw [← checkStructure_eq_ok_iff]
  cases c.checkStructure with
  | ok _ => simp
  | error e => simp

/-- The check refuses exactly the circuits that break a structural rule: a name is declared twice, in one
    role or in two; two updates have one target; an update writes an input or the output of a latch; a
    function repeats a parameter. And what it reports is so. -/
theorem checkStructure_refuses_iff (c : Circuit) :
    ((∃ cause, c.checkStructure = .error cause) ↔
      ¬ (c.inputs ++ c.outputs ++ c.latches).Nodup ∨
      ¬ (c.updates.map (·.target)).Nodup ∨
      (∃ u ∈ c.updates, u.target ∈ c.inputs ∨ ∃ latch ∈ c.latches, u.target = latchOutput latch) ∨
      ∃ d ∈ c.definitions, ¬ d.parameters.Nodup) ∧
    ∀ cause, c.checkStructure = .error cause → cause.Holds c := by
  refine ⟨?_, fun cause => checkStructure_reports⟩
  rw [checkStructure_eq_error_iff]
  constructor
  · intro broken
    by_contra sound
    push Not at sound
    obtain ⟨declared, targets, apart, parameters⟩ := sound
    refine broken ⟨declared, targets, ?_, ?_, parameters⟩
    · intro target mem
      obtain ⟨u, update, rfl⟩ := List.mem_map.mp mem
      exact (apart u update).1
    · intro target mem output
      obtain ⟨u, update, rfl⟩ := List.mem_map.mp mem
      obtain ⟨latch, known, same⟩ := List.mem_map.mp output
      exact (apart u update).2 latch known same.symm
  · rintro (repeated | repeated | ⟨u, update, input | ⟨latch, known, same⟩⟩ | ⟨d, mem, repeated⟩) wellFormed
    · exact repeated wellFormed.declared
    · exact repeated wellFormed.targets
    · exact wellFormed.target_not_input u.target (List.mem_map_of_mem update) input
    · exact wellFormed.target_not_latchOutput u.target (List.mem_map_of_mem update)
        (List.mem_map.mpr ⟨latch, known, same.symm⟩)
    · exact repeated (wellFormed.parameters d mem)

/-- A latch whose input is declared as an output too. -/
private def overlapping : Circuit where
  name := "overlapping"
  inputs := ["In"]
  outputs := ["Out"]
  latches := ["Out"]
  updates := [⟨"Out", .signal "In"⟩]

theorem checkStructure_refuses_overlapping :
    overlapping.checkStructure = .error (.declaredBoth "Out" .output .latch) ∧
      (¬ (overlapping.inputs ++ overlapping.outputs ++ overlapping.latches).Nodup ∨
        ¬ (overlapping.updates.map (·.target)).Nodup ∨
        (∃ u ∈ overlapping.updates, u.target ∈ overlapping.inputs ∨
          ∃ latch ∈ overlapping.latches, u.target = latchOutput latch) ∨
        ∃ d ∈ overlapping.definitions, ¬ d.parameters.Nodup) ∧
      StructureError.Holds overlapping (.declaredBoth "Out" .output .latch) := by
  have refused : overlapping.checkStructure = .error (.declaredBoth "Out" .output .latch) := rfl
  obtain ⟨rules, reports⟩ := checkStructure_refuses_iff overlapping
  exact ⟨refused, rules.mp ⟨_, refused⟩, reports _ refused⟩

end Circuit

end SyncCircuit
