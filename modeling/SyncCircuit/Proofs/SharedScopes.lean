import Mathlib.Logic.Relation
import SyncCircuit.ScopeTree

/-! # Scopes that share their surroundings

Scopes have parents in common, so what is written through one of them is seen from others. Where a name is
looked up is a matter of the chain of parents (`ScopeTree.Reaches`): the search goes outwards through scopes
that do not bind the name, and ends at the first one that does. A write is seen from exactly those scopes
whose search passes through, or ends at, the scope that is written.

A tree is built up from a root by calls on its scopes (`ScopeTree.Reachable`). No call moves a scope, and a
parent is always older than its children (`ScopeTree.Nested`), so searches come to an end, and the root is
the same from everywhere.
-/

namespace SyncCircuit

namespace ScopeTree

/-- The scope with which a tree starts. -/
def root : Nat := 0

/-- What a call on one of the scopes makes of a tree, whatever the call ends with. -/
inductive Step (t : ScopeTree) : ScopeTree → Prop where
  | addChild {s} (known : s < t.size) : Step t (t.addChild s)
  | set {s} (known : s < t.size) (name : String) (value : Bool) : Step t (t.set s name value)
  | bind {s} (known : s < t.size) (name : String) (value : Bool) : Step t (t.bind s name value)
  | define {s d t'} (known : s < t.size) (accepted : define s d t = .ok () t') : Step t t'
  | refuse {s d e t'} (known : s < t.size) (refused : define s d t = .error e t') : Step t t'

/-- Some number of calls lead from a root alone to a tree. -/
def Reachable (t : ScopeTree) : Prop :=
  Relation.ReflTransGen Step empty t

variable {t t' : ScopeTree} {s u i p : Nat} {name asked : String} {value : Bool}

/-- The tree with one more definition at the root of a scope. -/
def registered (t : ScopeTree) (s : Nat) (d : Definition) : ScopeTree :=
  t.modify (t.rootOf s) fun node => { node with table := (t.definitions s).put d.name d }

theorem define_cases (s : Nat) (d : Definition) (t : ScopeTree) :
    (t.definition? s d.name = none ∧ define s d t = .ok () (t.registered s d)) ∨
      (∃ old, t.definition? s d.name = some old) ∧ define s d t = .error ⟨d.name⟩ t := by
  unfold define Definitions.define definition? Bindings.contains
  cases (t.definitions s).get? d.name with
  | none => exact .inl ⟨rfl, rfl⟩
  | some old => exact .inr ⟨⟨old, rfl⟩, rfl⟩

theorem size_registered (t : ScopeTree) (s : Nat) (d : Definition) : (t.registered s d).size = t.size :=
  t.size_modify _ _

theorem outer_registered (t : ScopeTree) (s i : Nat) (d : Definition) :
    (t.registered s d).outer i = t.outer i := by
  simp only [outer, registered, node_modify]
  split <;> rfl

theorem vars_registered (t : ScopeTree) (s i : Nat) (d : Definition) :
    (t.registered s d).vars i = t.vars i := by
  simp only [vars, registered, node_modify]
  split <;> rfl

/-- All that a step can do: nothing, add a scope, bind a name in some scope, or register a definition. -/
theorem Step.cases (step : t.Step t') :
    t' = t ∨ (∃ s < t.size, t' = t.addChild s) ∨ (∃ i name value, t' = t.bind i name value) ∨
      ∃ s < t.size, ∃ d, t.definition? s d.name = none ∧ t' = t.registered s d := by
  cases step with
  | addChild known => exact .inr (.inl ⟨_, known, rfl⟩)
  | set known name value => exact .inr (.inr (.inl ⟨_, name, value, rfl⟩))
  | bind known name value => exact .inr (.inr (.inl ⟨_, name, value, rfl⟩))
  | @define s d _ known accepted =>
      rcases define_cases s d t with ⟨new, registers⟩ | ⟨-, refuses⟩
      · rw [registers] at accepted
        cases accepted
        exact .inr (.inr (.inr ⟨s, known, d, new, rfl⟩))
      · rw [refuses] at accepted
        cases accepted
  | @refuse s d _ _ known refused =>
      rcases define_cases s d t with ⟨-, registers⟩ | ⟨-, refuses⟩
      · rw [registers] at refused
        cases refused
      · rw [refuses] at refused
        cases refused
        exact .inl rfl

/-- Only the root has no parent, and the chain of any other scope goes on with that of an older one. -/
structure Nested (t : ScopeTree) : Prop where
  root_known : root < t.size
  enclosed : ∀ s < t.size, s = root ∧ t.outer s = [] ∨ ∃ p < s, t.outer s = t.chain p

theorem chain_addChild (old : u < t.size) : (t.addChild s).chain u = t.chain u := by
  rw [chain, chain, outer_addChild, if_neg (Nat.ne_of_lt old)]

theorem nested_empty : empty.Nested where
  root_known := Nat.zero_lt_one
  enclosed s known := .inl ⟨Nat.lt_one_iff.mp known, by rw [Nat.lt_one_iff.mp known]; rfl⟩

namespace Nested

theorem congr (nested : t.Nested) (size : t'.size = t.size) (outer : ∀ i, t'.outer i = t.outer i) :
    t'.Nested where
  root_known := size ▸ nested.root_known
  enclosed s known := by
    simp only [chain, outer]
    exact nested.enclosed s (size ▸ known)

theorem addChild (nested : t.Nested) (known : s < t.size) : (t.addChild s).Nested where
  root_known := by
    rw [size_addChild]
    exact Nat.lt_succ_of_lt nested.root_known
  enclosed i inside := by
    rw [size_addChild] at inside
    rw [outer_addChild]
    by_cases new : i = t.size
    · rw [if_pos new]
      exact .inr ⟨s, new ▸ known, (chain_addChild known).symm⟩
    · have old : i < t.size := by omega
      rw [if_neg new]
      refine (nested.enclosed i old).imp_right ?_
      rintro ⟨p, older, encloses⟩
      exact ⟨p, older, encloses.trans (chain_addChild (by omega)).symm⟩

theorem bind (nested : t.Nested) (i : Nat) (name : String) (value : Bool) :
    (t.bind i name value).Nested :=
  nested.congr (t.size_bind i name value) fun j => t.outer_bind i j name value

theorem registered (nested : t.Nested) (s : Nat) (d : Definition) : (t.registered s d).Nested :=
  nested.congr (t.size_registered s d) fun j => t.outer_registered s j d

theorem step (nested : t.Nested) (step : t.Step t') : t'.Nested := by
  rcases step.cases with rfl | ⟨s, known, rfl⟩ | ⟨i, name, value, rfl⟩ | ⟨s, -, d, -, rfl⟩
  · exact nested
  · exact nested.addChild known
  · exact nested.bind i name value
  · exact nested.registered s d

end Nested

theorem Reachable.nested (reachable : t.Reachable) : t.Nested := by
  induction reachable with
  | refl => exact nested_empty
  | tail _ step ih => exact ih.step step

namespace Nested

theorem outer_of_parent? (nested : t.Nested) (parent : t.parent? s = some p) :
    p < s ∧ t.outer s = t.chain p := by
  by_cases known : s < t.size
  · rcases nested.enclosed s known with ⟨-, none⟩ | ⟨q, older, encloses⟩
    · simp [parent?, none] at parent
    · rw [parent?, encloses, chain, List.head?_cons] at parent
      cases parent
      exact ⟨older, encloses⟩
  · simp [parent?, outer, node_of_size_le (Nat.le_of_not_lt known)] at parent

/-- What holds of a scope as soon as it holds of its parent holds of all scopes. -/
theorem induct (nested : t.Nested) {motive : Nat → Prop}
    (outwards : ∀ s, (∀ p, t.parent? s = some p → motive p) → motive s) (s : Nat) : motive s := by
  induction s using Nat.strongRecOn with
  | ind s ih => exact outwards s fun p parent => ih p (nested.outer_of_parent? parent).1

theorem binder?_eq (nested : t.Nested) (s : Nat) (name : String) :
    t.binder? s name = if (t.vars s).contains name then some s
      else (t.parent? s).bind fun p => t.binder? p name := by
  rw [binder?, chain, List.find?_cons]
  cases bound : (t.vars s).contains name with
  | true => rfl
  | false =>
      cases parent : t.parent? s with
      | none =>
          rw [parent?, List.head?_eq_none_iff] at parent
          rw [parent]
          rfl
      | some p =>
          rw [(nested.outer_of_parent? parent).2]
          rfl

theorem get?_eq (nested : t.Nested) (s : Nat) (name : String) :
    t.get? s name = ((t.vars s).get? name).or ((t.parent? s).bind fun p => t.get? p name) := by
  rw [get?, nested.binder?_eq, Bindings.contains]
  cases found : (t.vars s).get? name with
  | some value => simp [found]
  | none =>
      simp only [Option.isSome_none, Bool.false_eq_true, if_false, Option.none_or]
      rw [Option.bind_assoc]
      rfl

theorem rootOf_eq (nested : t.Nested) (known : s < t.size) : t.rootOf s = root := by
  induction s using Nat.strongRecOn with
  | ind s ih =>
      unfold rootOf
      rcases nested.enclosed s known with ⟨rfl, none⟩ | ⟨p, older, encloses⟩
      · simp [chain, none]
      · have outwards : t.chain s = s :: t.chain p := by rw [chain, encloses]
        simp only [outwards]
        exact ih p older (Nat.lt_trans older known)

end Nested

/-- A search for a name comes to a certain scope: none of the scopes before it binds the name. -/
inductive Reaches (t : ScopeTree) (name : String) (goal : Nat) : Nat → Prop where
  | here : Reaches t name goal goal
  | outwards {v next : Nat} (unbound : (t.vars v).contains name = false)
      (parent : t.parent? v = some next) (further : Reaches t name goal next) : Reaches t name goal v

/-- From a scope a name is found in another: that one is the nearest which binds it. -/
def Resolves (t : ScopeTree) (name : String) (s i : Nat) : Prop :=
  t.Reaches name i s ∧ (t.vars i).contains name = true

/-- What is written under a name through one scope shows in another. Either both find the name in the same
    place, or the first does not find it at all, and a search from the second comes to the first. -/
def Shows (t : ScopeTree) (name : String) (s u : Nat) : Prop :=
  (∃ i, t.Resolves name s i ∧ t.Resolves name u i) ∨
    (¬ ∃ i, t.Resolves name s i) ∧ t.Reaches name s u

theorem lt_size_of_contains (bound : (t.vars i).contains name = true) : i < t.size := by
  rcases Nat.lt_or_ge i t.size with used | unused
  · exact used
  · rw [vars, node_of_size_le unused] at bound
    cases bound

namespace Nested

theorem binder?_eq_some_iff (nested : t.Nested) : t.binder? s name = some i ↔ t.Resolves name s i := by
  constructor
  · refine nested.induct (motive := fun s => t.binder? s name = some i → t.Resolves name s i) ?_ s
    intro s ih found
    rw [nested.binder?_eq] at found
    cases bound : (t.vars s).contains name with
    | true =>
        rw [bound, if_pos rfl] at found
        cases found
        exact ⟨.here, bound⟩
    | false =>
        rw [bound] at found
        obtain ⟨p, parent, found⟩ := Option.bind_eq_some_iff.mp found
        obtain ⟨reaches, binds⟩ := ih p parent found
        exact ⟨.outwards bound parent reaches, binds⟩
  · rintro ⟨reaches, bound⟩
    induction reaches with
    | here => rw [nested.binder?_eq, if_pos bound]
    | outwards unbound parent _ ih =>
        rw [nested.binder?_eq, unbound, parent]
        exact ih

theorem contains_iff (nested : t.Nested) : t.contains s name = true ↔ ∃ i, t.Resolves name s i := by
  simp only [contains, Option.isSome_iff_exists, nested.binder?_eq_some_iff]

theorem read_eq_ok_iff (nested : t.Nested) :
    t.read s name = .ok value ↔ ∃ i, t.Resolves name s i ∧ (t.vars i).get? name = some value := by
  have found : t.read s name = .ok value ↔ t.get? s name = some value := by
    unfold read
    cases t.get? s name <;> simp
  rw [found, get?, Option.bind_eq_some_iff]
  simp only [nested.binder?_eq_some_iff]

theorem read_eq_error_iff (nested : t.Nested) {cause : EvalError} :
    t.read s name = .error cause ↔ cause = .unbound name ∧ ¬ ∃ i, t.Resolves name s i := by
  by_cases found : ∃ i, t.Resolves name s i
  · obtain ⟨i, resolves⟩ := found
    obtain ⟨value, bound⟩ := Option.isSome_iff_exists.mp resolves.2
    rw [nested.read_eq_ok_iff.mpr ⟨i, resolves, bound⟩]
    constructor
    · exact fun failed => nomatch failed
    · exact fun ⟨_, nowhere⟩ => absurd ⟨i, resolves⟩ nowhere
  · have none : t.get? s name = none := by
      rw [get?, Option.bind_eq_none_iff]
      exact fun i binder => absurd ⟨i, nested.binder?_eq_some_iff.mp binder⟩ found
    simp only [read, none, found, not_false_eq_true, and_true, Except.error.injEq]
    exact eq_comm

theorem read_bind_of_reaches (nested : t.Nested) (known : i < t.size) (reaches : t.Reaches name i u) :
    (t.bind i name value).read u name = .ok value := by
  have found : (t.bind i name value).get? u name = some value := by
    induction reaches with
    | here =>
        rw [(nested.bind i name value).get?_eq, vars_bind, if_pos ⟨rfl, known⟩, Bindings.get?_put_self]
        rfl
    | @outwards v next unbound parent _ ih =>
        have up : (t.bind i name value).parent? v = some next := by rw [parent?, outer_bind, ← parent?, parent]
        rw [(nested.bind i name value).get?_eq, vars_bind, up]
        split
        · rw [Bindings.get?_put_self]
          rfl
        · have none : (t.vars v).get? name = none := by
            rwa [Bindings.contains, Option.isSome_eq_false_iff, Option.isNone_iff_eq_none] at unbound
          rw [none]
          exact ih
  rw [read, found]

theorem read_bind_of_not_reaches (nested : t.Nested) (apart : ¬ (asked = name ∧ t.Reaches name i u)) :
    (t.bind i name value).read u asked = t.read u asked := by
  have same : (t.bind i name value).get? u asked = t.get? u asked := by
    revert apart
    refine nested.induct (motive := fun u => ¬ (asked = name ∧ t.Reaches name i u) →
      (t.bind i name value).get? u asked = t.get? u asked) ?_ u
    intro u ih apart
    have own : ((t.bind i name value).vars u).get? asked = (t.vars u).get? asked := by
      rw [vars_bind]
      split
      · rename_i here
        refine Bindings.get?_put_of_ne _ value fun same => apart ⟨same, ?_⟩
        rw [here.1]
        exact .here
      · rfl
    rw [(nested.bind i name value).get?_eq, nested.get?_eq, own, parent?, outer_bind, ← parent?]
    cases found : (t.vars u).get? asked with
    | some value => rfl
    | none =>
        cases parent : t.parent? u with
        | none => rfl
        | some p =>
            refine ih p parent ?_
            rintro ⟨rfl, reaches⟩
            refine apart ⟨rfl, .outwards ?_ parent reaches⟩
            rw [Bindings.contains, found]
            rfl
  rw [read, read, same]

/-- The scope that a write changes is the one to which the search has to come. -/
theorem shows_iff (nested : t.Nested) :
    t.Shows name s u ↔ t.Reaches name ((t.binder? s name).getD s) u := by
  cases found : t.binder? s name with
  | some i =>
      have resolves := nested.binder?_eq_some_iff.mp found
      constructor
      · rintro (⟨j, first, second⟩ | ⟨nowhere, -⟩)
        · cases found.symm.trans (nested.binder?_eq_some_iff.mpr first)
          exact second.1
        · exact absurd ⟨i, resolves⟩ nowhere
      · exact fun reaches => .inl ⟨i, resolves, reaches, resolves.2⟩
  | none =>
      have nowhere : ¬ ∃ i, t.Resolves name s i := by
        rintro ⟨i, resolves⟩
        cases found.symm.trans (nested.binder?_eq_some_iff.mpr resolves)
      constructor
      · rintro (⟨j, first, -⟩ | ⟨-, reaches⟩)
        · exact absurd ⟨j, first⟩ nowhere
        · exact reaches
      · exact fun reaches => .inr ⟨nowhere, reaches⟩

theorem read_set_of_shows (nested : t.Nested) (known : s < t.size) (seen : t.Shows name s u) :
    (t.set s name value).read u name = .ok value := by
  refine nested.read_bind_of_reaches ?_ (nested.shows_iff.mp seen)
  cases found : t.binder? s name with
  | none => exact known
  | some i => exact lt_size_of_contains (nested.binder?_eq_some_iff.mp found).2

theorem read_set_of_not_shows (nested : t.Nested) (apart : ¬ (asked = name ∧ t.Shows name s u)) :
    (t.set s name value).read u asked = t.read u asked := by
  rw [nested.shows_iff] at apart
  exact nested.read_bind_of_not_reaches apart

end Nested

theorem read_congr (outer : t'.outer u = t.outer u) (vars : ∀ i, t'.vars i = t.vars i) :
    t'.read u name = t.read u name := by
  simp only [read, get?, binder?, chain, outer, vars]

theorem read_addChild (t : ScopeTree) (s u : Nat) (name : String) :
    (t.addChild s).read u name = if u = t.size then t.read s name else t.read u name := by
  split
  · rename_i new
    have nothing : (t.vars t.size).contains name = false := by
      rw [vars, node_of_size_le (Nat.le_refl _)]
      rfl
    simp only [new, read, get?, binder?, vars_addChild, chain, outer_addChild, if_true,
      List.find?_cons, nothing]
  · rename_i old
    exact read_congr (by rw [outer_addChild, if_neg old]) fun i => t.vars_addChild s i

variable {f : String} {d : Definition}

namespace Nested

theorem definition?_eq (nested : t.Nested) (known : s < t.size) (f : String) :
    t.definition? s f = (t.node root).table.get? f := by
  rw [definition?, definitions, nested.rootOf_eq known]

theorem table_registered (nested : t.Nested) (known : s < t.size) (d : Definition) :
    ((t.registered s d).node root).table = (t.node root).table.put d.name d := by
  rw [ScopeTree.registered, node_modify, definitions, nested.rootOf_eq known, if_pos ⟨rfl, nested.root_known⟩]

theorem definition?_registered (nested : t.Nested) (known : s < t.size) (inside : u < t.size)
    (f : String) :
    (t.registered s d).definition? u f = if f = d.name then some d else t.definition? u f := by
  have still : u < (t.registered s d).size := by rwa [size_registered]
  rw [(nested.registered s d).definition?_eq still, nested.table_registered known, Bindings.get?_put,
    nested.definition?_eq inside]

theorem table_step (nested : t.Nested) (step : t.Step t') (defined : (t.node root).table.get? f = some d) :
    (t'.node root).table.get? f = some d := by
  rcases step.cases with rfl | ⟨s, known, rfl⟩ | ⟨i, name, value, rfl⟩ | ⟨s, known, new, free, rfl⟩
  · exact defined
  · rw [node_addChild, if_neg (Nat.ne_of_lt nested.root_known)]
    exact defined
  · rw [ScopeTree.bind, node_modify]
    split <;> exact defined
  · rw [nested.table_registered known, Bindings.get?_put_of_ne]
    · exact defined
    · rintro rfl
      rw [nested.definition?_eq known, defined] at free
      cases free

theorem table_steps (nested : t.Nested) (steps : Relation.ReflTransGen Step t t')
    (defined : (t.node root).table.get? f = some d) :
    t'.Nested ∧ (t'.node root).table.get? f = some d := by
  induction steps with
  | refl => exact ⟨nested, defined⟩
  | tail _ step ih => exact ⟨ih.1.step step, ih.1.table_step step ih.2⟩

end Nested

/-- How the scopes of a tree are read and written, and where functions are defined. -/
structure Lawful (t : ScopeTree) : Prop where
  /-- A name reads as its value in the nearest scope that binds it. -/
  read_ok : ∀ s < t.size, ∀ name value, t.read s name = .ok value ↔
    ∃ i, t.Resolves name s i ∧ (t.vars i).get? name = some value
  /-- A name cannot be read exactly if no scope on the way to the root binds it. -/
  read_error : ∀ s < t.size, ∀ name cause, t.read s name = .error cause ↔
    cause = .unbound name ∧ ¬ ∃ i, t.Resolves name s i
  contains_iff : ∀ s < t.size, ∀ name, t.contains s name = true ↔ ∃ i, t.Resolves name s i
  /-- A new scope reads like its parent, and the others read as before. -/
  read_addChild : ∀ s < t.size, ∀ u ≤ t.size, ∀ name,
    (t.addChild s).read u name = if u = t.size then t.read s name else t.read u name
  read_set : ∀ s < t.size, ∀ u < t.size, ∀ name value, t.Shows name s u →
    (t.set s name value).read u name = .ok value
  /-- Writing changes nothing else, for any scope and any name. -/
  frame_set : ∀ s < t.size, ∀ u < t.size, ∀ name value asked, ¬ (asked = name ∧ t.Shows name s u) →
    (t.set s name value).read u asked = t.read u asked
  read_bind : ∀ s < t.size, ∀ u < t.size, ∀ name value, t.Reaches name s u →
    (t.bind s name value).read u name = .ok value
  /-- Binding changes nothing else, for any scope and any name. -/
  frame_bind : ∀ s < t.size, ∀ u < t.size, ∀ name value asked, ¬ (asked = name ∧ t.Reaches name s u) →
    (t.bind s name value).read u asked = t.read u asked
  /-- A function is defined for all scopes or for none. -/
  definition?_eq : ∀ s < t.size, ∀ u < t.size, ∀ f, t.definition? u f = t.definition? s f
  /-- A new definition is there for all scopes and changes nothing else. -/
  define_ok : ∀ s < t.size, ∀ d, t.definition? s d.name = none → ∃ t', define s d t = .ok () t' ∧
    ∀ u < t.size, (∀ f, t'.definition? u f = if f = d.name then some d else t.definition? u f) ∧
      ∀ name, t'.read u name = t.read u name
  /-- A second definition of a function is refused, and the tree stays as it is. -/
  define_error : ∀ s < t.size, ∀ d old, t.definition? s d.name = some old →
    define s d t = .error ⟨d.name⟩ t
  /-- A definition is never replaced, whatever is called afterwards. -/
  definition?_lasts : ∀ t', Relation.ReflTransGen Step t t' → ∀ s < t.size, ∀ u < t'.size, ∀ f d,
    t.definition? s f = some d → t'.definition? u f = some d

/-- The law holds in every tree that is built up from a root by adding scopes, writing, binding and defining,
    from any of its scopes and in any order. -/
theorem Reachable.lawful (reachable : t.Reachable) : t.Lawful where
  read_ok _ _ _ _ := reachable.nested.read_eq_ok_iff
  read_error _ _ _ _ := reachable.nested.read_eq_error_iff
  contains_iff _ _ _ := reachable.nested.contains_iff
  read_addChild s _ u _ := t.read_addChild s u
  read_set _ known _ _ _ _ := reachable.nested.read_set_of_shows known
  frame_set _ _ _ _ _ _ _ := reachable.nested.read_set_of_not_shows
  read_bind _ known _ _ _ _ := reachable.nested.read_bind_of_reaches known
  frame_bind _ _ _ _ _ _ _ := reachable.nested.read_bind_of_not_reaches
  definition?_eq s known u inside f := by
    rw [reachable.nested.definition?_eq known, reachable.nested.definition?_eq inside]
  define_ok s known d free := by
    rcases define_cases s d t with ⟨-, registers⟩ | ⟨⟨old, taken⟩, -⟩
    · refine ⟨_, registers, fun u inside => ⟨fun f => ?_, fun name => ?_⟩⟩
      · exact reachable.nested.definition?_registered known inside f
      · exact read_congr (t.outer_registered s u d) fun i => t.vars_registered s i d
    · cases free.symm.trans taken
  define_error s _ d old taken := by
    rcases define_cases s d t with ⟨free, -⟩ | ⟨-, refuses⟩
    · cases free.symm.trans taken
    · exact refuses
  definition?_lasts t' steps s known u inside f d defined := by
    rw [reachable.nested.definition?_eq known] at defined
    obtain ⟨nested, lasts⟩ := reachable.nested.table_steps steps defined
    rw [nested.definition?_eq inside, lasts]

private def inverter : Definition :=
  ⟨"inv", ["X"], .not (.signal "X")⟩

/-- Two children of the root, of which the first has a child and binds a name of the root again. A function
    is defined from the innermost scope. -/
private def family : ScopeTree :=
  let shared := empty.set 0 "A" true
  let children := ((shared.addChild 0).addChild 0).addChild 1
  (children.bind 1 "A" true).registered 3 inverter

private theorem reachable_family : family.Reachable := by
  have first : Reachable (empty.set 0 "A" true) := .single (.set (by decide) "A" true)
  have second := (first.tail (.addChild (s := 0) (by decide))).tail (.addChild (s := 0) (by decide))
  have third := (second.tail (.addChild (s := 1) (by decide))).tail (.bind (s := 1) (by decide) "A" true)
  exact third.tail (.define (s := 3) (d := inverter) (by decide) rfl)

theorem Reachable.lawful_family :
    family.Reachable ∧ (family.set 2 "A" false).read 0 "A" = .ok false ∧
      (family.set 2 "A" false).read 3 "A" = family.read 3 "A" ∧
      family.definition? 2 "inv" = family.definition? 3 "inv" ∧
      define 0 inverter family = .error ⟨"inv"⟩ family := by
  have law := Reachable.lawful reachable_family
  have nested := reachable_family.nested
  have seen : family.Shows "A" 2 0 := .inl ⟨0, ⟨.outwards rfl rfl .here, rfl⟩, .here, rfl⟩
  have unseen : ¬ family.Shows "A" 2 3 := by
    intro shown
    have found : family.binder? 3 "A" = some 0 :=
      nested.binder?_eq_some_iff.mpr ⟨nested.shows_iff.mp shown, rfl⟩
    exact absurd found (by decide)
  refine ⟨reachable_family, ?_, ?_, ?_, ?_⟩
  · exact law.read_set 2 (by decide) 0 (by decide) "A" false seen
  · exact law.frame_set 2 (by decide) 3 (by decide) "A" false "A" fun ⟨_, shown⟩ => unseen shown
  · exact law.definition?_eq 3 (by decide) 2 (by decide) "inv"
  · exact law.define_error 0 (by decide) inverter inverter rfl

end ScopeTree

end SyncCircuit
