import HighlightGrammar.Binary64

/-!
# Shortest decimals

`Binary64.shortest` is the decimal with the fewest digits among those that round to a number, and of
several such the nearest to it.  `FloatFormat` says where positional notation ends; a decimal outside it
is written with one digit before the point and a signed exponent.
-/

namespace HighlightGrammar

/-- The number `digits · 10 ^ exponent`. -/
structure Decimal where
  digits : Nat
  exponent : Int
deriving DecidableEq, Repr

namespace Decimal

def digitCount (n : Nat) : Nat := (Nat.toDigits 10 n).length

/-- Move final zeros of the digits into the exponent. -/
def trim (d : Decimal) : Decimal :=
  if d.digits ≠ 0 ∧ d.digits % 10 = 0 then trim ⟨d.digits / 10, d.exponent + 1⟩ else d
termination_by d.digits
decreasing_by exact Nat.div_lt_self (by omega) (by decide)

end Decimal

namespace Binary64

/-- The reals that round to a number: the two ends, and whether they belong to it. -/
structure Neighbourhood where
  low : Fraction
  high : Fraction
  closed : Bool
deriving Repr

namespace Neighbourhood

def contains (n : Neighbourhood) (a : Fraction) : Bool :=
  if n.closed then n.low.le a && a.le n.high else n.low.lt a && a.lt n.high

end Neighbourhood

/-- Half way to the number below and to the number above.  Below a power of two the numbers are twice as
dense. -/
def neighbourhood (x : Binary64) : Neighbourhood where
  low :=
    if x.significand = Nat.pow 2 52 ∧ leastExponent < x.exponent then
      (Fraction.power 2 (x.exponent - 2)).mul ⟨4 * x.significand - 1, 1⟩
    else (Fraction.power 2 (x.exponent - 1)).mul ⟨2 * x.significand - 1, 1⟩
  high := (Fraction.power 2 (x.exponent - 1)).mul ⟨2 * x.significand + 1, 1⟩
  closed := x.significand % 2 == 0

/-- The exponent `k` with `10 ^ k ≤ a < 10 ^ (k + 1)`, for a positive fraction. -/
def decimalExponent (a : Fraction) : Int :=
  let guess : Int := (Decimal.digitCount a.numerator : Int) - Decimal.digitCount a.denominator
  if (Fraction.power 10 guess).le a then guess else guess - 1

/-- The decimal of `count` digits nearest to a positive number, if one of its two neighbours with that
many digits rounds to it. -/
def decimalOfCount (x : Binary64) (count : Nat) : Option Decimal :=
  let exponent := decimalExponent x.magnitude - count + 1
  let unit := Fraction.power 10 exponent
  let below := (x.magnitude.div unit).floor
  let fits (n : Nat) : Bool := x.neighbourhood.contains (unit.mul ⟨n, 1⟩)
  let nearest := (x.magnitude.div unit).roundEven
  if fits nearest then some ⟨nearest, exponent⟩
  else if fits below then some ⟨below, exponent⟩
  else if fits (below + 1) then some ⟨below + 1, exponent⟩
  else none

/-- Seventeen digits tell any two numbers apart. -/
def greatestCount : Nat := 17

/-- The shortest decimal that rounds to a number other than zero. -/
def shortest (x : Binary64) : Decimal :=
  match (List.range greatestCount).findSome? fun count => x.decimalOfCount (count + 1) with
  | some d => d.trim
  | none => ⟨x.significand, 0⟩

end Binary64

/-- The decimal exponents of the first digit that are written positionally. -/
structure FloatFormat where
  leastPlain : Int
  greatestPlain : Int

namespace FloatFormat

def zeros (n : Nat) : String := String.ofList (List.replicate n '0')

/-- Positional notation, with a point and at least one digit after it. -/
def plain (digits : String) (exponent : Int) : String :=
  if exponent < 0 then "0." ++ zeros ((-exponent).toNat - 1) ++ digits
  else
    let whole := exponent.toNat + 1
    if digits.length ≤ whole then digits ++ zeros (whole - digits.length) ++ ".0"
    else String.ofList (digits.toList.take whole) ++ "." ++ String.ofList (digits.toList.drop whole)

/-- One digit, the others after a point, and the exponent with its sign. -/
def scientific (digits : String) (exponent : Int) : String :=
  let fraction := String.ofList (digits.toList.drop 1)
  String.ofList (digits.toList.take 1) ++ (if fraction.isEmpty then "" else "." ++ fraction) ++ "e" ++
    (if exponent < 0 then "-" else "+") ++ toString exponent.natAbs

/-- The text of a number. -/
def render (format : FloatFormat) (x : Binary64) : String :=
  let magnitude :=
    if x.isZero then "0.0"
    else
      let d := x.shortest
      let digits := toString d.digits
      let exponent := d.exponent + digits.length - 1
      if format.leastPlain ≤ exponent ∧ exponent ≤ format.greatestPlain then plain digits exponent
      else scientific digits exponent
  if x.negative then "-" ++ magnitude else magnitude

end FloatFormat

end HighlightGrammar
