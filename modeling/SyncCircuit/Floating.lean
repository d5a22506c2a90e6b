/-! # Binary floating-point numbers

Numbers with a mantissa of fifty-three bits and an exponent of eleven, as they are kept by nearly all
machines. A decimal is read as the number nearest to it; of two equally near numbers the one with
the even mantissa counts, and what is too large is infinite.
-/

namespace SyncCircuit

/-- A non-negative ratio, not necessarily in lowest terms. -/
structure Ratio where
  num : Nat
  den : Nat
  deriving DecidableEq, Repr

namespace Ratio

/-- The product of a whole number and a power of a base. -/
def scaled (n base : Nat) : Int → Ratio
  | .ofNat k => ⟨n * Nat.pow base k, 1⟩
  | .negSucc k => ⟨n, Nat.pow base (k + 1)⟩

/-- A ratio measured in units of a power of a base. -/
def inUnits (r : Ratio) (base : Nat) : Int → Ratio
  | .ofNat k => ⟨r.num, r.den * Nat.pow base k⟩
  | .negSucc k => ⟨r.num * Nat.pow base (k + 1), r.den⟩

def floor (r : Ratio) : Nat :=
  r.num / r.den

/-- The whole number nearest to a ratio; half-way between two the even one. -/
def round (r : Ratio) : Nat :=
  let rest := r.num % r.den
  if 2 * rest < r.den then r.floor
  else if r.den < 2 * rest then r.floor + 1
  else if r.floor % 2 = 0 then r.floor
  else r.floor + 1

/-- The exponent of the greatest power of two that does not exceed a positive ratio. -/
def log2 (r : Ratio) : Int :=
  let guess := (r.num.log2 : Int) - r.den.log2
  let unit := r.inUnits 2 guess
  if unit.den ≤ unit.num then guess else guess - 1

end Ratio

def digitCount (n : Nat) : Nat :=
  (Nat.toDigits 10 n).length

/-- A binary floating-point number. -/
inductive Floating where
  /-- The number `mantissa * 2 ^ exponent` with a sign, which zero has too. -/
  | finite (negative : Bool) (mantissa : Nat) (exponent : Int)
  | infinite (negative : Bool)
  /-- The result of an operation that has none. -/
  | undefined
  deriving DecidableEq, Repr, Inhabited

namespace Floating

def precision : Nat := 53

/-- The exponent of the finest numbers. -/
def leastExponent : Int := -1074

/-- The exponent of the coarsest numbers. -/
def greatestExponent : Int := 971

/-- The number with a sign nearest to a ratio. -/
def ofRatio (negative : Bool) (r : Ratio) : Floating :=
  if r.num = 0 then .finite negative 0 leastExponent
  else
    let fine := r.log2 - (precision - 1 : Nat)
    let exponent := if fine < leastExponent then leastExponent else fine
    let mantissa := (r.inUnits 2 exponent).round
    let (mantissa, exponent) :=
      if mantissa = Nat.pow 2 precision then (Nat.pow 2 (precision - 1), exponent + 1)
      else (mantissa, exponent)
    if greatestExponent < exponent then .infinite negative
    else .finite negative mantissa exponent

/-- The number with a sign nearest to `digits * 10 ^ exponent`. Decimals that are beyond all numbers
    or below half of the least one are told by the place of their first digit, whatever the size of
    their exponents. -/
def ofDecimal (negative : Bool) (digits : Nat) (exponent : Int) : Floating :=
  let places := (digitCount digits : Int) + exponent
  if digits = 0 || places < -330 then .finite negative 0 leastExponent
  else if 310 < places then .infinite negative
  else ofRatio negative (Ratio.scaled digits 10 exponent)

def isZero : Floating → Bool
  | .finite _ mantissa _ => mantissa == 0
  | _ => false

/-- The exact value of a finite number, as a numerator with its sign and a denominator. -/
def fraction? : Floating → Option (Int × Nat)
  | .finite negative mantissa exponent =>
      let size := Ratio.scaled mantissa 2 exponent
      some (if negative then -(size.num : Int) else size.num, size.den)
  | _ => none

end Floating

end SyncCircuit
