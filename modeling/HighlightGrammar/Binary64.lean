/-!
# Binary floating-point numbers

A `Binary64` is a sign and a magnitude `significand · 2 ^ exponent`, with at most 53 bits in the
significand and exponents between -1074 and 971: the finite numbers of the 64-bit binary format, with
both zeros.  Arithmetic is exact on fractions and rounds once, to the nearest number, a tie going to the
even significand.
-/

namespace HighlightGrammar

structure Binary64 where
  negative : Bool
  significand : Nat
  exponent : Int
deriving DecidableEq, Repr

/-- A fraction of natural numbers. -/
structure Fraction where
  numerator : Nat
  denominator : Nat
deriving DecidableEq, Repr

namespace Fraction

/-- `base ^ exponent`, for exponents of either sign. -/
def power (base : Nat) (exponent : Int) : Fraction :=
  ⟨base.pow exponent.toNat, base.pow (-exponent).toNat⟩

def mul (a b : Fraction) : Fraction := ⟨a.numerator * b.numerator, a.denominator * b.denominator⟩

def div (a b : Fraction) : Fraction := ⟨a.numerator * b.denominator, a.denominator * b.numerator⟩

def le (a b : Fraction) : Bool := a.numerator * b.denominator ≤ b.numerator * a.denominator

def lt (a b : Fraction) : Bool := a.numerator * b.denominator < b.numerator * a.denominator

/-- The whole part. -/
def floor (a : Fraction) : Nat := a.numerator / a.denominator

/-- The nearest natural number; a tie goes to the even neighbour. -/
def roundEven (a : Fraction) : Nat :=
  let whole := a.numerator / a.denominator
  let rest := 2 * (a.numerator % a.denominator)
  if rest < a.denominator then whole
  else if a.denominator < rest then whole + 1
  else whole + whole % 2

end Fraction

namespace Binary64

def leastExponent : Int := -1074

def greatestExponent : Int := 971

def zero (negative : Bool) : Binary64 := ⟨negative, 0, leastExponent⟩

def isZero (x : Binary64) : Bool := x.significand == 0

def neg (x : Binary64) : Binary64 := { x with negative := !x.negative }

/-- The magnitude as a fraction. -/
def magnitude (x : Binary64) : Fraction := (Fraction.power 2 x.exponent).mul ⟨x.significand, 1⟩

/-- A number without fractional part. -/
def isWhole (x : Binary64) : Bool := x.magnitude.numerator % x.magnitude.denominator == 0

/-- The exponent at which a positive fraction has a significand of 53 bits, or the least exponent. -/
def scaleOf (a : Fraction) : Int :=
  let guess : Int := (a.numerator.log2 : Int) - a.denominator.log2 - 52
  let scaled := a.div (Fraction.power 2 guess)
  max leastExponent (if scaled.lt ⟨Nat.pow 2 52, 1⟩ then guess - 1 else guess)

/-- The number nearest to a fraction, or nothing if it lies beyond the greatest number. -/
def round (negative : Bool) (a : Fraction) : Option Binary64 :=
  if a.numerator = 0 then some (zero negative)
  else
    let exponent := scaleOf a
    let significand := (a.div (Fraction.power 2 exponent)).roundEven
    let result : Binary64 :=
      if significand = Nat.pow 2 53 then ⟨negative, Nat.pow 2 52, exponent + 1⟩ else ⟨negative, significand, exponent⟩
    if greatestExponent < result.exponent then none else some result

def ofNat (n : Nat) : Option Binary64 := round false ⟨n, 1⟩

def mul (a b : Binary64) : Option Binary64 :=
  round (a.negative != b.negative) (a.magnitude.mul b.magnitude)

def div (a b : Binary64) : Option Binary64 :=
  round (a.negative != b.negative) (a.magnitude.div b.magnitude)

/-- The greatest power of ten that is scaled by in one step. -/
def greatestPower : Nat := 308

/-- Scale by a power of ten.  The power is rounded to a number first, so the result is rounded twice;
powers below the least step are reached by several divisions. -/
def scaleByTen (x : Binary64) (exponent : Int) : Option Binary64 := do
  if exponent.natAbs ≤ greatestPower then
    let power ← ofNat (Nat.pow 10 exponent.natAbs)
    if 0 ≤ exponent then x.mul power else x.div power
  else if x.isZero then some x
  else if 0 ≤ exponent then none
  else
    let power ← ofNat (Nat.pow 10 greatestPower)
    let smaller ← x.div power
    smaller.scaleByTen (exponent + greatestPower)
termination_by exponent.natAbs
decreasing_by simp only [greatestPower] at *; omega

/-- The number written by a whole significand and a power of ten. -/
def ofDecimal (significand : Nat) (exponent : Int) : Option Binary64 :=
  (ofNat significand).bind (·.scaleByTen exponent)

end Binary64

end HighlightGrammar
