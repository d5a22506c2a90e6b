import SyncCircuit.Eval

/-! # Trees of scopes

Scopes that share their enclosing scopes. Every scope is known by its number; number zero is the
root. Reading a name starts at a scope and goes outwards along its chain to the root. Writing a name
changes the nearest scope of the chain that binds it, and binding a name changes the scope itself.
Functions are defined and looked up at the root of a scope, whichever scope that is done from.
-/

namespace SyncCircuit

/-- A scope as a part of a tree. -/
structure ScopeNode where
  /-- The numbers of the enclosing scopes, nearest first; the root has none. -/
  outer : List Nat
  vars : Bindings Bool := .empty
  /-- The functions that are defined here. Only those of the root are ever looked up. -/
  table : Definitions := .empty

/-- A tree of scopes. -/
structure ScopeTree where
  nodes : List ScopeNode

namespace ScopeTree

/-- A root scope alone, with nothing bound or defined. -/
def empty : ScopeTree :=
  ⟨[{ outer := [] }]⟩

/-- The number of scopes; they are numbered in the order in which they were made. -/
def size (t : ScopeTree) : Nat :=
  t.nodes.length

/-- A scope by its number. A number that is not in use stands for a scope with nothing in it. -/
def node (t : ScopeTree) (s : Nat) : ScopeNode :=
  t.nodes[s]?.getD { outer := [] }

/-- The numbers of the scopes that enclose a scope, nearest first. -/
def outer (t : ScopeTree) (s : Nat) : List Nat :=
  (t.node s).outer

def vars (t : ScopeTree) (s : Nat) : Bindings Bool :=
  (t.node s).vars

/-- A scope followed by those that enclose it, out to the root. -/
def chain (t : ScopeTree) (s : Nat) : List Nat :=
  s :: t.outer s

/-- The directly enclosing scope; the root has none. -/
def parent? (t : ScopeTree) (s : Nat) : Option Nat :=
  (t.outer s).head?

/-- The outermost scope of the chain. -/
def rootOf (t : ScopeTree) (s : Nat) : Nat :=
  (t.chain s).getLast (by simp [chain])

/-- The nearest scope on the chain that binds a name. -/
def binder? (t : ScopeTree) (s : Nat) (name : String) : Option Nat :=
  (t.chain s).find? fun i => (t.vars i).contains name

def get? (t : ScopeTree) (s : Nat) (name : String) : Option Bool :=
  (t.binder? s name).bind fun i => (t.vars i).get? name

def read (t : ScopeTree) (s : Nat) (name : String) : Except EvalError Bool :=
  match t.get? s name with
  | some value => .ok value
  | none => .error (.unbound name)

def contains (t : ScopeTree) (s : Nat) (name : String) : Bool :=
  (t.binder? s name).isSome

/-- The functions that can be applied in a scope: those that are defined at its root. -/
def definitions (t : ScopeTree) (s : Nat) : Definitions :=
  (t.node (t.rootOf s)).table

def definition? (t : ScopeTree) (s : Nat) (function : String) : Option Definition :=
  (t.definitions s).get? function

def modify (t : ScopeTree) (s : Nat) (change : ScopeNode → ScopeNode) : ScopeTree :=
  ⟨t.nodes.modify s change⟩

/-- Bind a name in a scope itself, whatever the enclosing scopes bind. -/
def bind (t : ScopeTree) (s : Nat) (name : String) (value : Bool) : ScopeTree :=
  t.modify s fun node => { node with vars := node.vars.put name value }

/-- Write a name: in the nearest scope of the chain that binds it, and in the scope itself if none
    does. -/
def set (t : ScopeTree) (s : Nat) (name : String) (value : Bool) : ScopeTree :=
  t.bind ((t.binder? s name).getD s) name value

def addChild (t : ScopeTree) (s : Nat) : ScopeTree :=
  ⟨t.nodes ++ [{ outer := t.chain s }]⟩

/-- Register a definition at the root of a scope; a function that is already defined there is
    refused. -/
def define (s : Nat) (d : Definition) : EStateM DuplicateDefinition ScopeTree Unit := fun t =>
  match (t.definitions s).define d with
  | .ok table => .ok () (t.modify (t.rootOf s) fun node => { node with table })
  | .error e => .error e t

/-- What an expression sees in a scope. -/
def view (t : ScopeTree) (s : Nat) : Scope where
  definitions := t.definitions s
  globals := t.vars (t.rootOf s)
  locals := (t.chain s).dropLast.map t.vars

/-- Evaluate the expression of an update in a scope and write its target there. -/
def update (t : ScopeTree) (limit : Int) (s : Nat) (u : Update) : Except EvalError ScopeTree := do
  let value ← u.value.eval limit (t.view s)
  return t.set s u.target value

/-- The variables of a scope, one on a line. -/
def text (t : ScopeTree) (s : Nat) : String :=
  "\n".intercalate <| (t.vars s).entries.map fun entry =>
    entry.1 ++ " = " ++ (if entry.2 then "1" else "0")

/-- The written form of a scope: its kind and its variables. -/
def describe (t : ScopeTree) (s : Nat) : String :=
  let kind := if (t.parent? s).isNone then "root" else "call"
  let shown := (t.vars s).entries.map fun entry =>
    Text.quoted entry.1 ++ ": " ++ (Datum.bool entry.2).describe
  "Environment(" ++ kind ++ ", " ++ Text.braced shown ++ ")"

/-- An expression reads in a scope what the tree has there. -/
theorem read_view (t : ScopeTree) (s : Nat) (name : String) : (t.view s).read name = t.read s name := by
  have frames : (t.view s).frames = (t.chain s).map t.vars := by
    conv => rhs; rw [← List.dropLast_concat_getLast (l := t.chain s) (by simp [chain])]
    simp [Scope.frames, view, rootOf]
  have same : (t.view s).get? name = t.get? s name := by
    rw [Scope.get?, frames, get?, binder?]
    induction t.chain s with
    | nil => rfl
    | cons i rest ih =>
        rw [List.map_cons, List.findSome?_cons, List.find?_cons, Bindings.contains]
        cases found : (t.vars i).get? name with
        | some value => simp [found]
        | none => exact ih
  cases found : t.get? s name <;> simp [Scope.read, read, same, found]

theorem node_of_size_le {t : ScopeTree} {s : Nat} (unused : t.size ≤ s) : t.node s = { outer := [] } := by
  rw [node, List.getElem?_eq_none unused, Option.getD_none]

theorem node_modify (t : ScopeTree) (s i : Nat) (change : ScopeNode → ScopeNode) :
    (t.modify s change).node i = if s = i ∧ i < t.size then change (t.node i) else t.node i := by
  simp only [node, modify, size, List.getElem?_modify]
  by_cases inside : i < t.nodes.length
  · by_cases here : s = i <;> simp [here, inside]
  · simp [inside]

@[simp]
theorem size_modify (t : ScopeTree) (s : Nat) (change : ScopeNode → ScopeNode) :
    (t.modify s change).size = t.size :=
  List.length_modify change t.nodes s

@[simp]
theorem size_bind (t : ScopeTree) (s : Nat) (name : String) (value : Bool) :
    (t.bind s name value).size = t.size :=
  t.size_modify s _

@[simp]
theorem outer_bind (t : ScopeTree) (s i : Nat) (name : String) (value : Bool) :
    (t.bind s name value).outer i = t.outer i := by
  simp only [outer, bind, node_modify]
  split <;> rfl

theorem vars_bind (t : ScopeTree) (s i : Nat) (name : String) (value : Bool) :
    (t.bind s name value).vars i =
      if s = i ∧ i < t.size then (t.vars i).put name value else t.vars i := by
  simp only [vars, bind, node_modify]
  split <;> rfl

@[simp]
theorem size_addChild (t : ScopeTree) (s : Nat) : (t.addChild s).size = t.size + 1 := by
  simp [size, addChild]

theorem node_addChild (t : ScopeTree) (s i : Nat) :
    (t.addChild s).node i = if i = t.size then { outer := t.chain s } else t.node i := by
  simp only [node, addChild, size, List.getElem?_append]
  rcases Nat.lt_trichotomy i t.nodes.length with old | rfl | beyond
  · simp [old, Nat.ne_of_lt old]
  · simp
  · have gap : i - t.nodes.length ≠ 0 := by omega
    simp [Nat.not_lt_of_gt beyond, Nat.ne_of_gt beyond, gap]

theorem outer_addChild (t : ScopeTree) (s i : Nat) :
    (t.addChild s).outer i = if i = t.size then t.chain s else t.outer i := by
  simp only [outer, node_addChild]
  split <;> rfl

@[simp]
theorem vars_addChild (t : ScopeTree) (s i : Nat) : (t.addChild s).vars i = t.vars i := by
  simp only [vars, node_addChild]
  split
  · rename_i new
    rw [node_of_size_le (Nat.le_of_eq new.symm)]
  · rfl

end ScopeTree

end SyncCircuit
