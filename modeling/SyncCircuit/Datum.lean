import SyncCircuit.Floating.Shortest
import SyncCircuit.Text

/-! # Plain data

Values that reach the simulator from outside without a promise about their kind: samples offered
for a trace, values offered for a signal, and things that stand where an expression is expected.
-/

namespace SyncCircuit

/-- A piece of plain data. -/
inductive Datum where
  | null
  | bool (value : Bool)
  | int (value : Int)
  | real (value : Floating)
  | text (value : String)
  | list (items : List Datum)
  /-- Named fields, in the order in which they are written. -/
  | record (fields : List (String × Datum))
  deriving Inhabited

namespace Datum

mutual

def describe : Datum → String
  | .null => "None"
  | .bool true => "True"
  | .bool false => "False"
  | .int value => toString value
  | .real value => value.text
  | .text value => Text.quoted value
  | .list items => Text.bracketed (describeAll items)
  | .record fields => Text.braced (describeFields fields)

def describeAll : List Datum → List String
  | [] => []
  | item :: rest => item.describe :: describeAll rest

def describeFields : List (String × Datum) → List String
  | [] => []
  | (name, value) :: rest => (Text.quoted name ++ ": " ++ value.describe) :: describeFields rest

end

/-- The truth of a datum: zero, the empty text, the empty list, the empty record and the absent
    value are false, and all else is true. -/
def truthy : Datum → Bool
  | .null => false
  | .bool value => value
  | .int value => value != 0
  | .real value => !value.isZero
  | .text value => value != ""
  | .list items => !items.isEmpty
  | .record fields => !fields.isEmpty

/-- The exact number a datum stands for, as a numerator with its sign and a denominator. Truth values
    count as one and zero. -/
def number? : Datum → Option (Int × Nat)
  | .bool value => some (if value then 1 else 0, 1)
  | .int value => some (value, 1)
  | .real value => value.fraction?
  | _ => none

/-- Whether two data stand for the same number. Both zeros are the same, and what is undefined is not
    even the same as itself. -/
def sameNumber (a b : Datum) : Bool :=
  match a, b with
  | .real (.infinite p), .real (.infinite q) => p == q
  | _, _ =>
      match a.number?, b.number? with
      | some (x, p), some (y, q) => x * q == y * p
      | _, _ => false

mutual

/-- Whether two data are the same: numbers by their value, lists item by item, and records by their
    fields in whatever order. -/
def same : Datum → Datum → Bool
  | .null, .null => true
  | .text a, .text b => a == b
  | .list as, .list bs => sameAll as bs
  | .record as, .record bs => as.length == bs.length && sameFields as bs
  | .bool a, b => sameNumber (.bool a) b
  | .int a, b => sameNumber (.int a) b
  | .real a, b => sameNumber (.real a) b
  | _, _ => false

def sameAll : List Datum → List Datum → Bool
  | [], [] => true
  | a :: as, b :: bs => a.same b && sameAll as bs
  | _, _ => false

/-- Whether every field of the first record is found in the second with the same value. -/
def sameFields : List (String × Datum) → List (String × Datum) → Bool
  | [], _ => true
  | (name, a) :: as, bs =>
      (match bs.lookup name with
        | some b => a.same b
        | none => false) && sameFields as bs

end

/-- The value of a datum offered as a sample: a truth value, or one of the integers zero and one. -/
def sample? : Datum → Option Bool
  | .bool value => some value
  | .int 0 => some false
  | .int 1 => some true
  | _ => none

end Datum

end SyncCircuit
