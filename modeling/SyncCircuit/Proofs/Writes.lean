import SyncCircuit.Bindings

/-! # Writing one name after another

Phases of a cycle write signals and calls bind parameters, in both cases name by name into ordered
bindings. Which values are written is left open here (`Bindings.Wrote`): where a name stands afterwards,
and whether it is bound at all, does not depend on them.
-/

namespace SyncCircuit

namespace Bindings

variable {α : Type}

/-- Names were written one after another, each with some value. -/
inductive Wrote : List String → Bindings α → Bindings α → Prop where
  | nil {f} : Wrote [] f f
  | cons {name rest f g} (value : α) (later : Wrote rest (f.put name value) g) :
      Wrote (name :: rest) f g

namespace Wrote

variable {names more : List String} {f g h : Bindings α}

theorem append (first : Wrote names f g) (second : Wrote more g h) : Wrote (names ++ more) f h := by
  induction first with
  | nil => exact second
  | cons value later ih => exact .cons value (ih second)

theorem get?_eq (wrote : Wrote names f g) {name : String} (untouched : name ∉ names) :
    g.get? name = f.get? name := by
  induction wrote with
  | nil => rfl
  | cons value later ih =>
      rw [List.mem_cons, not_or] at untouched
      rw [ih untouched.2, get?_put_of_ne _ value untouched.1]

/-- Bound names keep their places, and new ones follow in the order in which they are first
    written. -/
theorem names_eq (wrote : Wrote names f g) :
    g.names = f.names ++ (names.filter (· ∉ f.names)).eraseDups := by
  induction wrote with
  | nil => simp
  | @cons name rest f g value later ih =>
      rw [ih, names_put]
      by_cases bound : name ∈ f.names
      · simp [bound]
      · simp only [bound, if_false, List.append_assoc, List.singleton_append, List.mem_append,
          List.mem_singleton, not_or, not_false_eq_true, decide_true, List.filter_cons_of_pos,
          List.eraseDups_cons, List.filter_filter]
        congr 3
        refine List.filter_congr fun other _ => ?_
        by_cases same : other = name <;> simp [same]

theorem names_eq_of_bound (wrote : Wrote names f g) (bound : ∀ name ∈ names, name ∈ f.names) :
    g.names = f.names := by
  have fresh : names.filter (· ∉ f.names) = [] :=
    List.filter_eq_nil_iff.mpr fun name mem => by simpa using bound name mem
  rw [wrote.names_eq, fresh, List.eraseDups_nil, List.append_nil]

theorem mem_names (wrote : Wrote names f g) (name : String) :
    name ∈ g.names ↔ name ∈ f.names ∨ name ∈ names := by
  by_cases bound : name ∈ f.names <;> simp [wrote.names_eq, List.mem_eraseDups, bound]

end Wrote

theorem wrote_foldl_put (pairs : List (String × α)) (f : Bindings α) :
    Wrote (pairs.map Prod.fst) f (pairs.foldl (fun b pair => b.put pair.1 pair.2) f) := by
  induction pairs generalizing f with
  | nil => exact .nil
  | cons pair rest ih => exact .cons pair.2 (ih _)

theorem names_ofList (pairs : List (String × α)) :
    (ofList pairs).names = (pairs.map Prod.fst).eraseDups := by
  rw [ofList, (wrote_foldl_put pairs empty).names_eq, names_empty, List.nil_append,
    List.filter_eq_self.mpr fun _ _ => by simp]

theorem map_put {β : Type} (f : α → β) (b : Bindings α) (name : String) (value : α) :
    (b.put name value).map f = (b.map f).put name (f value) := by
  apply eq_of_names_of_get?
  · simp only [names_map, names_put]
  · intro asked
    simp only [get?_map, get?_put]
    split <;> rfl

theorem map_ofList {β : Type} (f : α → β) (pairs : List (String × α)) :
    (ofList pairs).map f = ofList (pairs.map fun pair => (pair.1, f pair.2)) := by
  have fold : ∀ b : Bindings α, (pairs.foldl (fun b pair => b.put pair.1 pair.2) b).map f =
      (pairs.map fun pair => (pair.1, f pair.2)).foldl (fun b pair => b.put pair.1 pair.2)
        (b.map f) := by
    induction pairs with
    | nil => exact fun _ => rfl
    | cons pair rest ih =>
        intro b
        rw [List.foldl_cons, List.map_cons, List.foldl_cons, ih, map_put]
  exact fold empty

end Bindings

end SyncCircuit
