import SyncCircuit.Floating

/-! # Written floating-point numbers

A number is written with the fewest decimal digits that are read as that number, and of these with
the digits nearest to it. Numbers from a ten-thousandth on and below ten to the sixteenth are written
with a decimal point in place, and all others with an exponent of at least two digits.
-/

namespace SyncCircuit

/-- The place of the first digit of a positive ratio: the least exponent of a power of ten that
    exceeds it. -/
def Ratio.decimalPlace (r : Ratio) : Int :=
  if r.den ≤ r.num then digitCount r.floor
  else 1 - (digitCount ((r.den - 1) / r.num) : Int)

/-- The decimal `0.digits * 10 ^ place`. -/
structure Decimal where
  digits : List Char
  place : Int
  deriving DecidableEq, Repr

namespace Decimal

/-- The decimal `n * 10 ^ exponent`, without zeros at its end. -/
def ofScaled (n : Nat) (exponent : Int) : Decimal :=
  let digits := Nat.toDigits 10 n
  { digits := (digits.reverse.dropWhile (· = '0')).reverse
    place := (digits.length : Int) + exponent }

/-- The places of the first digit that are written with the decimal point in place. -/
def isPlain (place : Int) : Bool :=
  -4 < place && place ≤ 16

def zeros (count : Int) : List Char :=
  List.replicate count.toNat '0'

/-- A decimal with its point in place, and at least one digit on either side of it. -/
def plain (d : Decimal) : String :=
  String.ofList <|
    if d.place ≤ 0 then ['0', '.'] ++ zeros (-d.place) ++ d.digits
    else
      let whole := d.digits.take d.place.toNat ++ zeros (d.place - d.digits.length)
      let fraction := d.digits.drop d.place.toNat
      whole ++ ['.'] ++ (if fraction.isEmpty then ['0'] else fraction)

/-- A decimal with its point after the first digit, if more follow, and a signed exponent. -/
def scientific (d : Decimal) : String :=
  let exponent := d.place - 1
  let size := Nat.toDigits 10 exponent.natAbs
  String.ofList <|
    d.digits.take 1 ++ (if d.digits.length ≤ 1 then [] else '.' :: d.digits.drop 1) ++
      ['e', if exponent < 0 then '-' else '+'] ++ zeros (2 - (size.length : Int)) ++ size

def text (d : Decimal) : String :=
  if isPlain d.place then d.plain else d.scientific

end Decimal

namespace Floating

/-- Of the two neighbours of a ratio among the multiples of a power of ten, the one that is read as
    a number; of two such neighbours the nearer. -/
def neighbour? (x : Floating) (value : Ratio) (exponent : Int) : Option Nat :=
  let measured := value.inUnits 10 exponent
  let below := measured.floor
  match ofDecimal false below exponent == x, ofDecimal false (below + 1) exponent == x with
  | true, true => some measured.round
  | true, false => some below
  | false, true => some (below + 1)
  | false, false => none

/-- The shortest decimal of the number `mantissa * 2 ^ exponent`: the digits are tried by their
    count. Seventeen always suffice. -/
def shortest (mantissa : Nat) (exponent : Int) : Decimal :=
  let value := Ratio.scaled mantissa 2 exponent
  let place := value.decimalPlace
  let attempt (count : Nat) : Option Decimal :=
    (neighbour? (.finite false mantissa exponent) value (place - count)).map
      (Decimal.ofScaled · (place - count))
  ((List.range' 1 17).findSome? attempt).getD
    (Decimal.ofScaled (value.inUnits 10 (place - 17)).round (place - 17))

def text : Floating → String
  | .finite negative mantissa exponent =>
      (if negative then "-" else "") ++
        if mantissa = 0 then "0.0" else (shortest mantissa exponent).text
  | .infinite negative => if negative then "-inf" else "inf"
  | .undefined => "nan"

end Floating

end SyncCircuit
