/-! # Ordered bindings

A finite map from names to values that remembers the order in which the names were first bound.
Writing a bound name changes its value where it stands; writing a new one puts it at the end. Two
observations determine a map: its names in order, and the value under each name
(`eq_of_names_of_get?`).
-/

namespace SyncCircuit

/-- Values under distinct names, in the order in which the names were first bound. -/
structure Bindings (α : Type) where
  entries : List (String × α)
  distinct : (entries.map Prod.fst).Nodup
  deriving DecidableEq

namespace Bindings

variable {α β : Type}

/-- Write a value under a name: in place if the name is bound, at the end otherwise. -/
def putEntry (name : String) (value : α) : List (String × α) → List (String × α)
  | [] => [(name, value)]
  | (other, old) :: rest =>
      if other = name then (name, value) :: rest else (other, old) :: putEntry name value rest

theorem map_fst_putEntry (name : String) (value : α) (entries : List (String × α)) :
    (putEntry name value entries).map Prod.fst =
      if name ∈ entries.map Prod.fst then entries.map Prod.fst
      else entries.map Prod.fst ++ [name] := by
  induction entries with
  | nil => simp [putEntry]
  | cons entry rest ih =>
      obtain ⟨other, old⟩ := entry
      by_cases same : other = name
      · simp [putEntry, same]
      · have flipped : ¬ name = other := fun h => same h.symm
        simp only [putEntry, same, if_false, List.map_cons, ih, List.mem_cons, flipped, false_or]
        split <;> simp

def empty : Bindings α := ⟨[], by simp⟩

instance : Inhabited (Bindings α) := ⟨empty⟩

def names (b : Bindings α) : List String :=
  b.entries.map Prod.fst

def values (b : Bindings α) : List α :=
  b.entries.map Prod.snd

def get? (b : Bindings α) (name : String) : Option α :=
  b.entries.lookup name

def contains (b : Bindings α) (name : String) : Bool :=
  (b.get? name).isSome

/-- Bind a name to a value. A bound name keeps its place, a new one goes to the end. -/
def put (b : Bindings α) (name : String) (value : α) : Bindings α where
  entries := putEntry name value b.entries
  distinct := by
    rw [map_fst_putEntry]
    have old := b.distinct
    split
    · exact old
    · rename_i absent
      rw [List.nodup_append]
      refine ⟨old, by simp, ?_⟩
      intro known mem fresh last same
      rw [List.mem_singleton] at last
      exact absent (last ▸ same ▸ mem)

/-- Bind pairs one after another: a repeated name keeps its first place and its last value. -/
def ofList (pairs : List (String × α)) : Bindings α :=
  pairs.foldl (fun b pair => b.put pair.1 pair.2) empty

def mapWithName (f : String → α → β) (b : Bindings α) : Bindings β where
  entries := b.entries.map fun entry => (entry.1, f entry.1 entry.2)
  distinct := by
    have old := b.distinct
    rwa [List.map_map]

def map (f : α → β) (b : Bindings α) : Bindings β :=
  b.mapWithName fun _ value => f value

@[simp]
theorem names_empty : (empty : Bindings α).names = [] := rfl

@[simp]
theorem get?_empty (name : String) : (empty : Bindings α).get? name = none := rfl

theorem names_nodup (b : Bindings α) : b.names.Nodup := b.distinct

theorem names_put (b : Bindings α) (name : String) (value : α) :
    (b.put name value).names = if name ∈ b.names then b.names else b.names ++ [name] :=
  map_fst_putEntry name value b.entries

theorem mem_names_put (b : Bindings α) (name asked : String) (value : α) :
    asked ∈ (b.put name value).names ↔ asked ∈ b.names ∨ asked = name := by
  rw [names_put]
  split
  · constructor
    · exact .inl
    · rintro (bound | rfl) <;> assumption
  · rw [List.mem_append, List.mem_singleton]

private theorem lookup_cons_eq_ite (asked : String) (entry : String × α)
    (rest : List (String × α)) :
    (entry :: rest).lookup asked = if asked = entry.1 then some entry.2 else rest.lookup asked := by
  rw [List.lookup_cons]
  by_cases hit : asked = entry.1
  · simp [hit]
  · simp only [hit, if_false, beq_eq_false_iff_ne.mpr hit]

private theorem lookup_putEntry (name asked : String) (value : α) (entries : List (String × α)) :
    (putEntry name value entries).lookup asked =
      if asked = name then some value else entries.lookup asked := by
  induction entries with
  | nil => simp [putEntry, lookup_cons_eq_ite]
  | cons entry rest ih =>
      obtain ⟨other, old⟩ := entry
      by_cases same : other = name
      · simp only [putEntry, same, if_true, lookup_cons_eq_ite]
        split <;> rfl
      · simp only [putEntry, same, if_false, lookup_cons_eq_ite, ih]
        by_cases hit : asked = other
        · simp [hit, same]
        · simp [hit]

/-- Writing a name changes what is read under it, and nothing else. -/
theorem get?_put (b : Bindings α) (name asked : String) (value : α) :
    (b.put name value).get? asked = if asked = name then some value else b.get? asked :=
  lookup_putEntry name asked value b.entries

@[simp]
theorem get?_put_self (b : Bindings α) (name : String) (value : α) :
    (b.put name value).get? name = some value := by
  simp [get?_put]

theorem get?_put_of_ne (b : Bindings α) {name asked : String} (value : α) (h : asked ≠ name) :
    (b.put name value).get? asked = b.get? asked := by
  simp [get?_put, h]

theorem mem_putEntry {name : String} {value : α} {entries : List (String × α)} {entry : String × α}
    (h : entry ∈ putEntry name value entries) : entry = (name, value) ∨ entry ∈ entries := by
  induction entries with
  | nil => exact .inl (List.mem_singleton.mp h)
  | cons first rest ih =>
      obtain ⟨other, old⟩ := first
      by_cases same : other = name
      · rw [putEntry, if_pos same, List.mem_cons] at h
        exact h.imp_right (List.mem_cons_of_mem _)
      · rw [putEntry, if_neg same, List.mem_cons] at h
        cases h with
        | inl here => exact .inr (List.mem_cons.mpr (.inl here))
        | inr later => exact (ih later).imp_right (List.mem_cons_of_mem _)

theorem mem_of_mem_ofList {pairs : List (String × α)} {entry : String × α}
    (h : entry ∈ (ofList pairs).entries) : entry ∈ pairs := by
  have fold : ∀ (pairs : List (String × α)) (b : Bindings α),
      entry ∈ (pairs.foldl (fun b pair => b.put pair.1 pair.2) b).entries →
        entry ∈ pairs ∨ entry ∈ b.entries := by
    intro pairs
    induction pairs with
    | nil => exact fun _ mem => .inr mem
    | cons pair rest ih =>
        intro b mem
        cases ih (b.put pair.1 pair.2) mem with
        | inl later => exact .inl (List.mem_cons_of_mem _ later)
        | inr here =>
            cases mem_putEntry here with
            | inl new => exact .inl (List.mem_cons.mpr (.inl new))
            | inr old => exact .inr old
  exact (fold pairs empty h).resolve_right (List.not_mem_nil)

private theorem lookup_isSome_iff (name : String) (entries : List (String × α)) :
    (entries.lookup name).isSome = true ↔ name ∈ entries.map Prod.fst := by
  induction entries with
  | nil => simp
  | cons entry rest ih =>
      rw [lookup_cons_eq_ite, List.map_cons, List.mem_cons, ← ih]
      split <;> simp [*]

theorem contains_iff_mem_names (b : Bindings α) (name : String) :
    b.contains name = true ↔ name ∈ b.names :=
  lookup_isSome_iff name b.entries

theorem get?_eq_none_iff (b : Bindings α) (name : String) :
    b.get? name = none ↔ name ∉ b.names := by
  rw [← contains_iff_mem_names, contains]
  cases b.get? name <;> simp

theorem mem_names_iff (b : Bindings α) (name : String) :
    name ∈ b.names ↔ ∃ value, b.get? name = some value := by
  rw [← contains_iff_mem_names, contains, Option.isSome_iff_exists]

@[simp]
theorem names_mapWithName (f : String → α → β) (b : Bindings α) :
    (b.mapWithName f).names = b.names := by
  simp [mapWithName, names, Function.comp_def]

@[simp]
theorem get?_mapWithName (f : String → α → β) (b : Bindings α) (name : String) :
    (b.mapWithName f).get? name = (b.get? name).map (f name) := by
  obtain ⟨entries, distinct⟩ := b
  simp only [mapWithName, get?]
  clear distinct
  induction entries with
  | nil => rfl
  | cons entry rest ih =>
      simp only [List.map_cons, lookup_cons_eq_ite, ih]
      split <;> simp [*]

@[simp]
theorem names_map (f : α → β) (b : Bindings α) : (b.map f).names = b.names :=
  names_mapWithName _ b

@[simp]
theorem get?_map (f : α → β) (b : Bindings α) (name : String) :
    (b.map f).get? name = (b.get? name).map f :=
  get?_mapWithName _ b name

private theorem entries_eq_of_lookup {as bs : List (String × α)} (distinct : (as.map Prod.fst).Nodup)
    (names : as.map Prod.fst = bs.map Prod.fst)
    (reads : ∀ name, as.lookup name = bs.lookup name) : as = bs := by
  induction as generalizing bs with
  | nil => cases bs with
      | nil => rfl
      | cons b bs => simp at names
  | cons a as ih => cases bs with
      | nil => simp at names
      | cons b bs =>
          obtain ⟨head, tail⟩ := List.cons.inj names
          have fresh := (List.nodup_cons.mp distinct).1
          have values : a.2 = b.2 := by
            have read := reads a.1
            rw [lookup_cons_eq_ite, lookup_cons_eq_ite, if_pos rfl, if_pos head] at read
            exact Option.some.inj read
          rw [Prod.ext head values]
          congr 1
          refine ih (List.nodup_cons.mp distinct).2 tail fun name => ?_
          by_cases here : name = a.1
          · have absent : ∀ es : List (String × α), a.1 ∉ es.map Prod.fst → es.lookup a.1 = none := by
              intro es missing
              cases found : es.lookup a.1 with
              | none => rfl
              | some value =>
                  exact absurd ((lookup_isSome_iff a.1 es).mp (by simp [found])) missing
            rw [here, absent as fresh, absent bs (tail ▸ fresh)]
          · have read := reads name
            rwa [lookup_cons_eq_ite, lookup_cons_eq_ite, if_neg here, if_neg (head ▸ here)] at read

/-- The names in order and the value under each name determine the bindings. -/
theorem eq_of_names_of_get? {a b : Bindings α} (names : a.names = b.names)
    (reads : ∀ name, a.get? name = b.get? name) : a = b := by
  obtain ⟨as, distinct⟩ := a
  obtain ⟨bs, _⟩ := b
  have same : as = bs := entries_eq_of_lookup distinct names reads
  subst same
  rfl

theorem put_eq_self {b : Bindings α} {name : String} {value : α} (h : b.get? name = some value) :
    b.put name value = b := by
  apply eq_of_names_of_get?
  · rw [names_put, if_pos ((b.mem_names_iff name).mpr ⟨value, h⟩)]
  · intro asked
    rw [get?_put]
    split
    · rename_i same
      rw [same, h]
    · rfl

end Bindings

end SyncCircuit
