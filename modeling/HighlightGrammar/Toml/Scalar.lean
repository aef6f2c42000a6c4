import HighlightGrammar.Binary64
import HighlightGrammar.Text.Scanned
import HighlightGrammar.Toml.Basic

/-!
# Scalars of TOML

Numbers, truth values, dates and times are runs of certain characters.  A run is classified as a whole,
since nothing that may follow a scalar can be part of one.
-/

namespace HighlightGrammar.Toml

open HighlightGrammar.Text

/-- The characters that scalars other than texts are made of. -/
def isScalarChar (c : Char) : Bool :=
  c.isAlphanum || c == '_' || c == '+' || c == '-' || c == '.' || c == ':'

/-! ## Numbers -/

/-- The digits of a number without the underscores, each of which stands between two digits. -/
def plainDigits? (isDigit : Char → Bool) : List Char → Option (List Char)
  | [] => none
  | [c] => if isDigit c then some [c] else none
  | c :: '_' :: rest => if isDigit c then (plainDigits? isDigit rest).map (c :: ·) else none
  | c :: rest => if isDigit c then (plainDigits? isDigit rest).map (c :: ·) else none

/-- The value of digits in a base. -/
def digitsValue (base : Nat) (digits : List Char) : Nat :=
  digits.foldl (fun n c => n * base + (hexValue? c).getD 0) 0

/-- A sign, which may be missing, and what follows it. -/
def splitSign : List Char → Bool × List Char
  | '-' :: rest => (true, rest)
  | '+' :: rest => (false, rest)
  | run => (false, run)

/-- The digits of a decimal number, which start with zero only if that is all. -/
def wholeDigits? (run : List Char) : Option (List Char) :=
  match plainDigits? Char.isDigit run with
  | some ('0' :: _ :: _) => none
  | other => other

/-- Integers have 64 bits. -/
def ofInt? (value : Int) : Option Toml :=
  if -Int.pow 2 63 ≤ value ∧ value < Int.pow 2 63 then some (.integer value) else none

def ofDigits? (base : Nat) (isDigit : Char → Bool) (run : List Char) : Option Toml :=
  (plainDigits? isDigit run).bind fun digits => ofInt? (digitsValue base digits)

def integer? : List Char → Option Toml
  | '0' :: 'x' :: run => ofDigits? 16 (fun c => (hexValue? c).isSome) run
  | '0' :: 'o' :: run => ofDigits? 8 (fun c => '0' ≤ c && c ≤ '7') run
  | '0' :: 'b' :: run => ofDigits? 2 (fun c => c == '0' || c == '1') run
  | run =>
    let parts := splitSign run
    (wholeDigits? parts.2).bind fun digits =>
      let value : Int := digitsValue 10 digits
      ofInt? (if parts.1 then -value else value)

/-- The digits of an exponent and their sign, after its mark. -/
def exponentValue? (run : List Char) : Option Int :=
  let parts := splitSign run
  (plainDigits? Char.isDigit parts.2).map fun digits =>
    let value : Int := digitsValue 10 digits
    if parts.1 then -value else value

def isExponentMark (c : Char) : Bool := c == 'e' || c == 'E'

/-- Whether a decimal number lies beyond the finite floats.  Where its first digit stands mostly decides. -/
def overflows (digits : List Char) (exponent : Int) : Bool :=
  let significant := digits.dropWhile (· == '0')
  let first := significant.length + exponent
  if significant.isEmpty || first < 300 then false
  else if 400 < first then true
  else
    let scale := Fraction.power 10 exponent
    (Binary64.round false (scale.mul ⟨digitsValue 10 significant, 1⟩)).isNone

/-- A float with a fraction, an exponent or both.  One beyond the greatest float is refused, while one
beyond the least is not. -/
def decimalFloat? (run : List Char) : Option Toml :=
  let parts := splitSign run
  let mantissa := parts.2.takeWhile (!isExponentMark ·)
  let whole := mantissa.takeWhile (· ≠ '.')
  let finish (digits : List Char) (places : Nat) (exponent : Int) : Option Toml :=
    if !parts.1 && overflows digits (exponent - places) then none else some (.float (String.ofList run))
  match wholeDigits? whole, mantissa.dropWhile (· ≠ '.'), parts.2.dropWhile (!isExponentMark ·) with
  | some digits, [], _ :: mark => (exponentValue? mark).bind fun exponent => finish digits 0 exponent
  | some digits, _ :: fraction, rest =>
    (plainDigits? Char.isDigit fraction).bind fun places =>
      match rest with
      | [] => finish (digits ++ places) places.length 0
      | _ :: mark =>
        (exponentValue? mark).bind fun exponent => finish (digits ++ places) places.length exponent
  | _, _, _ => none

def float? (run : List Char) : Option Toml :=
  let name := (splitSign run).2
  if name = "inf".toList || name = "nan".toList then some (.float (String.ofList run)) else decimalFloat? run

/-! ## Dates and times -/

/-- A number of exactly `width` digits in a range, and what follows it. -/
def field? (width least greatest : Nat) (run : List Char) : Option (Nat × List Char) :=
  let digits := run.take width
  let value := digitsValue 10 digits
  if digits.length = width ∧ digits.all Char.isDigit ∧ least ≤ value ∧ value ≤ greatest then
    some (value, run.drop width)
  else none

def expect? (c : Char) : List Char → Option (List Char)
  | first :: rest => if first = c then some rest else none
  | [] => none

def isLeapYear (year : Nat) : Bool := year % 4 == 0 && (year % 100 != 0 || year % 400 == 0)

def daysInMonth (year month : Nat) : Nat :=
  if month = 2 then if isLeapYear year then 29 else 28
  else if month = 4 ∨ month = 6 ∨ month = 9 ∨ month = 11 then 30
  else 31

/-- A number with leading zeros. -/
def padded (width value : Nat) : String :=
  let digits := toString value
  String.ofList (List.replicate (width - digits.length) '0') ++ digits

/-- A date in normal form, and what follows it. -/
def date? (run : List Char) : Option (String × List Char) := do
  let (year, run) ← field? 4 0 9999 run
  let (month, run) ← field? 2 1 12 (← expect? '-' run)
  let (day, run) ← field? 2 1 (daysInMonth year month) (← expect? '-' run)
  some (padded 4 year ++ "-" ++ padded 2 month ++ "-" ++ padded 2 day, run)

/-- The part of a second that is kept: nine digits, without zeros at the end. -/
def fractionText (digits : List Char) : String :=
  match ((digits.take 9).reverse.dropWhile (· == '0')).reverse with
  | [] => ""
  | kept => "." ++ String.ofList kept

/-- A time in normal form, and what follows it. -/
def time? (run : List Char) : Option (String × List Char) := do
  let (hour, run) ← field? 2 0 23 run
  let (minute, run) ← field? 2 0 59 (← expect? ':' run)
  let (second, run) ← field? 2 0 60 (← expect? ':' run)
  let clock := padded 2 hour ++ ":" ++ padded 2 minute ++ ":" ++ padded 2 second
  match run with
  | '.' :: rest =>
    let digits := rest.takeWhile Char.isDigit
    if digits.isEmpty then none else some (clock ++ fractionText digits, rest.dropWhile Char.isDigit)
  | _ => some (clock, run)

/-- The distance from universal time in normal form, or nothing at all. -/
def offset? : List Char → Option String
  | [] => some ""
  | ['Z'] | ['z'] => some "Z"
  | sign :: run => do
    if sign ≠ '+' ∧ sign ≠ '-' then none
    let (hour, run) ← field? 2 0 23 run
    let (minute, run) ← field? 2 0 59 (← expect? ':' run)
    if run.isEmpty then
      let shown := if sign = '-' ∧ (hour ≠ 0 ∨ minute ≠ 0) then "-" else "+"
      some (shown ++ padded 2 hour ++ ":" ++ padded 2 minute)
    else none

/-- A time and the distance from universal time. -/
def offsetTime? (run : List Char) : Option String := do
  let (clock, run) ← time? run
  some (clock ++ (← offset? run))

def moment? (run : List Char) : Option Toml :=
  match date? run with
  | some (day, []) => some (.moment day)
  | some (day, mark :: rest) =>
    if mark = 'T' ∨ mark = 't' then (offsetTime? rest).map fun clock => .moment (day ++ "T" ++ clock) else none
  | none =>
    match time? run with
    | some (clock, []) => some (.moment clock)
    | _ => none

/-! ## Runs -/

/-- The scalar that a run writes. -/
def scalar? (run : List Char) : Option Toml :=
  if run = "true".toList then some (.bool true)
  else if run = "false".toList then some (.bool false)
  else moment? run <|> float? run <|> integer? run

end HighlightGrammar.Toml
