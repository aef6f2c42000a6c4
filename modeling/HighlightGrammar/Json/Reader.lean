import HighlightGrammar.Json.Basic
import HighlightGrammar.Json.Fault
import HighlightGrammar.Text.Scanned

/-!
# Reading JSON texts

A scanner takes the characters still to be read and gives a value and a shorter rest, or stops with a
reason.  Where it stops is told by the number of bytes that lie beyond that place.  Values may be nested
`greatestDepth` deep.
-/

namespace HighlightGrammar.Json

open HighlightGrammar.Text

/-- Why a scanner stopped, and how many bytes of the text lie beyond that place. -/
structure Stop where
  reason : Reason
  left : Nat

/-- Scanners of an input give a rest shorter than it. -/
abbrev Scan (α : Type) (input : List Char) : Type := Except Stop (Scanned α input.length)

/-- The bytes beyond the first byte of an input. -/
def beyondFirst (input : List Char) : Nat := byteCount input - 1

def isSpace (c : Char) : Bool := c == ' ' || c == '\t' || c == '\n' || c == '\r'

def skipSpace (input : List Char) : List Char := input.dropWhile isSpace

theorem length_skipSpace_le (input : List Char) : (skipSpace input).length ≤ input.length :=
  length_dropWhile_le isSpace input

theorem length_le_of_skipSpace {c : Char} {input rest : List Char} (body : skipSpace input = c :: rest) :
    (c :: rest).length ≤ input.length :=
  body ▸ length_skipSpace_le input

/-! ## Numbers -/

def digitValue (c : Char) : Nat := c.toNat - '0'.toNat

/-- Take decimal digits into a significand as long as it fits into 64 bits.  Gives the significand and the
number of digits taken. -/
def absorb (significand : Nat) : List Char → Nat × Nat
  | [] => (significand, 0)
  | c :: rest =>
    let next := significand * 10 + digitValue c
    if next < 2 ^ 64 then
      let taken := absorb next rest
      (taken.1, taken.2 + 1)
    else (significand, 0)

/-- The value of exponent digits, or how many digits are left after the first that leads beyond 31 bits. -/
def exponentValue (value : Nat) : List Char → Except Nat Nat
  | [] => .ok value
  | c :: rest =>
    let next := value * 10 + digitValue c
    if next < 2 ^ 31 then exponentValue next rest else .error rest.length

def signed (negative : Bool) (x : Binary64) : Binary64 := if negative then x.neg else x

/-- The float with a significand and a power of ten. -/
def decimal (negative : Bool) (significand : Nat) (exponent : Int) (rest : List Char) :
    Except Stop Number :=
  match Binary64.ofDecimal significand exponent with
  | some x => .ok (.float (signed negative x))
  | none => .error ⟨.numberOutOfRange, byteCount rest⟩

theorem length_dropDigits_lt (c : Char) (rest : List Char) :
    (rest.dropWhile Char.isDigit).length < (c :: rest).length := by
  have le := length_dropWhile_le Char.isDigit rest
  simp only [List.length_cons]
  omega

/-- The digits of an exponent.  One that is too large makes the number zero or out of range. -/
def scanExponentDigits (negative below : Bool) (significand : Nat) (start : Int) :
    (input : List Char) → Scan Number input
  | [] => .error ⟨.endInValue, 0⟩
  | c :: others =>
    let rest := others.dropWhile Char.isDigit
    have shorter : rest.length < (c :: others).length := length_dropDigits_lt c others
    if c.isDigit then
      match exponentValue 0 (c :: others.takeWhile Char.isDigit) with
      | .ok value => do
        let number ← decimal negative significand (if below then start - value else start + value) rest
        .ok ⟨number, rest, shorter⟩
      | .error more =>
        if significand ≠ 0 ∧ ¬ below then .error ⟨.numberOutOfRange, byteCount rest + more⟩
        else .ok ⟨.float (Binary64.zero negative), rest, shorter⟩
    else .error ⟨.invalidNumber, beyondFirst (c :: others)⟩

/-- The exponent of a number, after its mark. -/
def scanExponent (negative : Bool) (significand : Nat) (start : Int) :
    (input : List Char) → Scan Number input
  | '+' :: rest => (scanExponentDigits negative false significand start rest).map (·.widen (by simp))
  | '-' :: rest => (scanExponentDigits negative true significand start rest).map (·.widen (by simp))
  | input => scanExponentDigits negative false significand start input

/-- What may follow the last digit before an exponent. -/
def scanScale (negative : Bool) (significand : Nat) (exponent : Int) (input : List Char) :
    Except Stop (Scanned Number (input.length + 1)) :=
  match input with
  | 'e' :: rest | 'E' :: rest => (scanExponent negative significand exponent rest).map (·.widen (by simp; omega))
  | rest => do
    let number ← decimal negative significand exponent rest
    .ok ⟨number, rest, by simp⟩

/-- The digits after a point, of which there is at least one. -/
def scanFraction (negative : Bool) (significand : Nat) (dropped : Nat) :
    (input : List Char) → Scan Number input
  | [] => .error ⟨.endInValue, 0⟩
  | c :: others =>
    if c.isDigit then
      let taken := absorb significand (c :: others.takeWhile Char.isDigit)
      let rest := others.dropWhile Char.isDigit
      (scanScale negative taken.1 (dropped - taken.2) rest).map (·.widen (length_dropDigits_lt c others))
    else .error ⟨.invalidNumber, beyondFirst (c :: others)⟩

/-- What may follow the digits of the whole part, `dropped` of which did not fit into the significand. -/
def scanTail (negative : Bool) (significand : Nat) (dropped : Nat) (input : List Char) :
    Except Stop (Scanned Number (input.length + 1)) :=
  match input with
  | '.' :: rest => (scanFraction negative significand dropped rest).map (·.widen (by simp; omega))
  | rest =>
    if dropped = 0 ∧ rest.head? ≠ some 'e' ∧ rest.head? ≠ some 'E' then
      if !negative then .ok ⟨.whole significand, rest, by simp⟩
      else if significand = 0 ∨ Nat.pow 2 63 < significand then do
        let number ← decimal negative significand 0 rest
        .ok ⟨number, rest, by simp⟩
      else .ok ⟨.whole (-significand), rest, by simp⟩
    else scanScale negative significand dropped rest

/-- A number after its sign. -/
def scanNumber (negative : Bool) : (input : List Char) → Scan Number input
  | [] => .error ⟨.endInValue, 0⟩
  | '0' :: rest =>
    if (rest.headD ' ').isDigit then .error ⟨.invalidNumber, beyondFirst rest⟩
    else scanTail negative 0 0 rest
  | c :: others =>
    if c.isDigit then
      let digits := c :: others.takeWhile Char.isDigit
      let taken := absorb 0 digits
      (scanTail negative taken.1 (digits.length - taken.2) (others.dropWhile Char.isDigit)).map
        (·.widen (length_dropDigits_lt c others))
    else .error ⟨.invalidNumber, beyondFirst (c :: others)⟩

/-! ## Texts -/

/-- Four hexadecimal digits. -/
def scanHex (input : List Char) : Scan Nat input :=
  if byteCount input < 4 then .error ⟨.endInText, 0⟩
  else
    match input with
    | a :: b :: c :: d :: rest =>
      match [a, b, c, d].mapM hexValue? with
      | some digits => .ok ⟨digits.foldl (fun n digit => n * 16 + digit) 0, rest, by simp; omega⟩
      | none => .error ⟨.invalidEscape, byteCount (a :: b :: c :: d :: rest) - 4⟩
    | short => .error ⟨.invalidEscape, byteCount short - 4⟩

def isLeadingSurrogate (code : Nat) : Bool := 0xD800 ≤ code && code ≤ 0xDBFF

def isTrailingSurrogate (code : Nat) : Bool := 0xDC00 ≤ code && code ≤ 0xDFFF

/-- The second half of a pair of escapes, after the first half. -/
def scanTrailing (leading : Nat) : (input : List Char) → Scan Char input
  | [] => .error ⟨.endInText, 0⟩
  | '\\' :: 'u' :: rest => do
    let code ← scanHex rest
    if isTrailingSurrogate code.value then
      .ok ⟨Char.ofNat ((leading - 0xD800) * 0x400 + (code.value - 0xDC00) + 0x10000), code.rest,
        by have := code.shorter; simp; omega⟩
    else .error ⟨.loneSurrogate, byteCount code.rest⟩
  | ['\\'] => .error ⟨.endInText, 0⟩
  | '\\' :: rest => .error ⟨.unfinishedSurrogate, beyondFirst rest⟩
  | input => .error ⟨.unfinishedSurrogate, beyondFirst input⟩

/-- The character of an escape by code, after its mark. -/
def scanCode (input : List Char) : Scan Char input := do
  let code ← scanHex input
  if isTrailingSurrogate code.value then .error ⟨.loneSurrogate, byteCount code.rest⟩
  else if isLeadingSurrogate code.value then
    (scanTrailing code.value code.rest).map (·.widen (Nat.le_of_lt code.shorter))
  else .ok (code.map Char.ofNat)

def shortEscapes : List (Char × Char) :=
  [('"', '"'), ('\\', '\\'), ('/', '/'), ('b', '\x08'), ('f', '\x0c'), ('n', '\n'), ('r', '\r'),
   ('t', '\t')]

/-- The character of an escape, after the backslash. -/
def scanEscape : (input : List Char) → Scan Char input
  | [] => .error ⟨.endInText, 0⟩
  | 'u' :: rest => (scanCode rest).map (·.widen (by simp))
  | c :: rest =>
    match shortEscapes.lookup c with
    | some meant => .ok ⟨meant, rest, by simp⟩
    | none => .error ⟨.invalidEscape, beyondFirst (c :: rest)⟩

/-- The rest of a text, after its opening quote and the characters in `before`, last first. -/
def scanText (before : List Char) (input : List Char) : Scan String input :=
  match input with
  | [] => .error ⟨.endInText, 0⟩
  | '"' :: rest => .ok ⟨String.ofList before.reverse, rest, by simp⟩
  | '\\' :: rest => do
    let escaped ← scanEscape rest
    (scanText (escaped.value :: before) escaped.rest).map
      (·.widen (by have := escaped.shorter; simp; omega))
  | c :: rest =>
    if c.toNat < 0x20 then .error ⟨.controlCharacter, byteCount rest⟩
    else (scanText (c :: before) rest).map (·.widen (by simp))
termination_by input.length
decreasing_by
  · have := escaped.shorter; simp; omega
  · simp

/-! ## Values -/

/-- The rest of a word such as `true`. -/
def scanWord (expected : List Char) (meant : Json) (input : List Char) :
    Except Stop (Scanned Json (input.length + 1)) :=
  match expected, input with
  | [], rest => .ok ⟨meant, rest, by simp⟩
  | _ :: _, [] => .error ⟨.endInValue, 0⟩
  | e :: more, c :: rest =>
    if c = e then (scanWord more meant rest).map (·.widen (by simp))
    else .error ⟨.expectedWord, beyondFirst (c :: rest)⟩

/-- The rest of a list, after its opening bracket and the items in `before`, last first. -/
def scanItems (item : (input : List Char) → Scan Json input) (before : List Json) (input : List Char) :
    Scan Json input :=
  match body : skipSpace input with
  | [] => .error ⟨.endInList, 0⟩
  | ']' :: rest => .ok ⟨.list before.reverse, rest, length_le_of_skipSpace body⟩
  | c :: rest =>
    have first : rest.length < input.length := length_le_of_skipSpace body
    if before.isEmpty then do
      let read ← item (c :: rest)
      have shorter : read.rest.length < input.length := Nat.lt_of_lt_of_le read.shorter first
      (scanItems item [read.value] read.rest).map (·.widen (Nat.le_of_lt shorter))
    else if c = ',' then
      match again : skipSpace rest with
      | [] => .error ⟨.endInValue, 0⟩
      | ']' :: after => .error ⟨.trailingComma, byteCount after⟩
      | d :: after => do
        let read ← item (d :: after)
        have shorter : read.rest.length < input.length :=
          Nat.lt_trans (Nat.lt_of_lt_of_le read.shorter (length_le_of_skipSpace again)) first
        (scanItems item (read.value :: before) read.rest).map (·.widen (Nat.le_of_lt shorter))
    else .error ⟨.expectedListEnd, beyondFirst (c :: rest)⟩
termination_by input.length

/-- A key, the colon and the value of a field, after the opening quote of the key. -/
def scanField (item : (input : List Char) → Scan Json input) (input : List Char) :
    Scan (String × Json) input := do
  let key ← scanText [] input
  have skipped := length_skipSpace_le key.rest
  match body : skipSpace key.rest with
  | [] => .error ⟨.endInObject, 0⟩
  | ':' :: rest => do
    let read ← item rest
    .ok ⟨(key.value, read.value), read.rest,
      by have := key.shorter; have := read.shorter; simp [body] at skipped; omega⟩
  | other => .error ⟨.expectedColon, beyondFirst other⟩

/-- The rest of an object, after its opening brace and the given fields, which stand in key order. -/
def scanFields (item : (input : List Char) → Scan Json input) (fields : List (String × Json))
    (input : List Char) : Scan Json input :=
  have skipped := length_skipSpace_le input
  match body : skipSpace input with
  | [] => .error ⟨.endInObject, 0⟩
  | '\x7d' :: rest => .ok ⟨.object fields, rest, by simp [body] at skipped; omega⟩
  | c :: rest =>
    if fields.isEmpty then
      if c = '"' then do
        let read ← scanField item rest
        (scanFields item [read.value] read.rest).map
          (·.widen (by have := read.shorter; simp [body] at *; omega))
      else .error ⟨.keyNotText, beyondFirst (c :: rest)⟩
    else if c = ',' then
      have skippedAgain := length_skipSpace_le rest
      match again : skipSpace rest with
      | [] => .error ⟨.endInValue, 0⟩
      | '"' :: after => do
        let read ← scanField item after
        (scanFields item (insertEntry read.value.1 read.value.2 fields) read.rest).map
          (·.widen (by have := read.shorter; simp [body, again] at *; omega))
      | '\x7d' :: after => .error ⟨.trailingComma, byteCount after⟩
      | other => .error ⟨.keyNotText, beyondFirst other⟩
    else .error ⟨.expectedObjectEnd, beyondFirst (c :: rest)⟩
termination_by input.length
decreasing_by
  · have := read.shorter; simp [body] at *; omega
  · have := read.shorter; simp [body, again] at *; omega

/-- A value that may hold `depth` levels of lists and objects. -/
def scanValue (depth : Nat) (input : List Char) : Scan Json input :=
  have skipped := length_skipSpace_le input
  match body : skipSpace input with
  | [] => .error ⟨.endInValue, 0⟩
  | c :: rest =>
    have shorter : rest.length + 1 ≤ input.length := by simp [body] at skipped; omega
    let wider {α : Type} (scan : Except Stop (Scanned α (rest.length + 1))) : Scan α input :=
      scan.map (·.widen shorter)
    if c = 'n' then wider (scanWord "ull".toList .null rest)
    else if c = 't' then wider (scanWord "rue".toList (.bool true) rest)
    else if c = 'f' then wider (scanWord "alse".toList (.bool false) rest)
    else if c = '"' then wider ((scanText [] rest).map fun read => (read.map .text).widen (by simp))
    else if c = '-' then wider ((scanNumber true rest).map fun read => (read.map .number).widen (by simp))
    else if c.isDigit then wider ((scanNumber false (c :: rest)).map (·.map .number))
    else if c = '[' then
      match depth with
      | 0 => .error ⟨.nestedTooDeep, byteCount rest⟩
      | below + 1 => wider ((scanItems (scanValue below) [] rest).map (·.widen (by simp)))
    else if c = '\x7b' then
      match depth with
      | 0 => .error ⟨.nestedTooDeep, byteCount rest⟩
      | below + 1 => wider ((scanFields (scanValue below) [] rest).map (·.widen (by simp)))
    else .error ⟨.expectedValue, beyondFirst (c :: rest)⟩

/-- How deep lists and objects may be nested. -/
def greatestDepth : Nat := 127

/-- One value and nothing else but space. -/
def scanWhole (input : List Char) : Except Stop Json := do
  let read ← scanValue greatestDepth input
  match skipSpace read.rest with
  | [] => .ok read.value
  | other => .error ⟨.trailingCharacters, beyondFirst other⟩

/-- The value that a text writes. -/
def read (text : String) : Except Fault Json :=
  let input := text.toList
  match scanWhole input with
  | .ok value => .ok value
  | .error stop => .error ⟨stop.reason, Position.ofOffset input (byteCount input - stop.left)⟩

end HighlightGrammar.Json
