import HighlightGrammar.Toml.Draft
import HighlightGrammar.Toml.Scalar

/-!
# Reading TOML files

A file is a sequence of lines: comments, headers of tables, and keys with their values.  Lists may go over
several lines, tables written as values may not.  Values may be nested `greatestDepth` deep, and a key may
have that many parts.
-/

namespace HighlightGrammar.Toml

open HighlightGrammar.Text

/-- Why a scanner stopped, and how many bytes of the text lie beyond that place. -/
structure Stop where
  reason : Reason
  left : Nat

/-- Scanners of an input give a rest shorter than it. -/
abbrev Scan (α : Type) (input : List Char) : Type := Except Stop (Scanned α input.length)

/-- Nothing that may stand here begins with this input. -/
def unexpected {α : Type} (input : List Char) : Except Stop α := .error ⟨.unexpectedText, byteCount input⟩

def isSpace (c : Char) : Bool := c == ' ' || c == '\t'

def skipSpace (input : List Char) : List Char := input.dropWhile isSpace

theorem length_skipSpace_le (input : List Char) : (skipSpace input).length ≤ input.length :=
  length_dropWhile_le isSpace input

/-- The characters that may stand for themselves: all but control characters. -/
def isPlain (c : Char) : Bool := c == '\t' || (0x20 ≤ c.toNat && c.toNat ≠ 0x7f)

/-- What follows the end of a line. -/
def lineEnd? : List Char → Option (List Char)
  | '\n' :: rest => some rest
  | '\r' :: '\n' :: rest => some rest
  | _ => none

theorem length_lineEnd?_lt {input rest : List Char} (ended : lineEnd? input = some rest) :
    rest.length < input.length := by
  unfold lineEnd? at ended
  split at ended
  · cases ended
    exact Nat.lt_succ_self _
  · cases ended
    simp only [List.length_cons]
    omega
  · simp at ended

/-- Skip space and ends of lines. -/
def skipLines : List Char → List Char
  | ' ' :: rest => skipLines rest
  | '\t' :: rest => skipLines rest
  | '\n' :: rest => skipLines rest
  | '\r' :: '\n' :: rest => skipLines rest
  | rest => rest

theorem length_skipLines_le (input : List Char) : (skipLines input).length ≤ input.length := by
  fun_induction skipLines input with
  | case1 rest ih => exact Nat.le_succ_of_le ih
  | case2 rest ih => exact Nat.le_succ_of_le ih
  | case3 rest ih => exact Nat.le_succ_of_le ih
  | case4 rest ih => exact Nat.le_succ_of_le (Nat.le_succ_of_le ih)
  | case5 rest => exact Nat.le_refl _

/-- Skip space, ends of lines and comments. -/
def skipTrivia (input : List Char) : List Char :=
  match skipped : skipLines input with
  | '#' :: rest =>
    have : (rest.dropWhile isPlain).length < input.length := by
      have lines := length_skipLines_le input
      have comment := length_dropWhile_le isPlain rest
      simp [skipped] at lines
      omega
    skipTrivia (rest.dropWhile isPlain)
  | rest => rest
termination_by input.length

theorem length_skipTrivia_le (input : List Char) : (skipTrivia input).length ≤ input.length := by
  fun_induction skipTrivia input with
  | case1 input rest skipped shorter ih => omega
  | case2 input => exact length_skipLines_le input

/-! ## Texts -/

/-- The character with a code of `width` hexadecimal digits. -/
def scanCode (width : Nat) (input : List Char) : Except Stop (Scanned Char (input.length + 1)) :=
  match (input.take width).mapM hexValue? with
  | some digits =>
    let code := digits.foldl (fun n digit => n * 16 + digit) 0
    if digits.length = width ∧ code.isValidChar then
      .ok ⟨Char.ofNat code, input.drop width, length_drop_lt width input⟩
    else unexpected input
  | none => unexpected input

def shortEscapes : List (Char × Char) :=
  [('"', '"'), ('\\', '\\'), ('b', '\x08'), ('f', '\x0c'), ('n', '\n'), ('r', '\r'), ('t', '\t')]

/-- The character of an escape, after the backslash. -/
def scanEscape : (input : List Char) → Scan Char input
  | [] => unexpected []
  | 'u' :: rest => (scanCode 4 rest).map (·.widen (by simp))
  | 'U' :: rest => (scanCode 8 rest).map (·.widen (by simp))
  | c :: rest =>
    match shortEscapes.lookup c with
    | some meant => .ok ⟨meant, rest, length_lt_cons c rest⟩
    | none => unexpected (c :: rest)

/-- The rest of a text on one line, after its opening mark and the characters in `before`, last first.
Between double quotes there are escapes. -/
def scanLine (mark : Char) (before : List Char) (input : List Char) : Scan String input :=
  match input with
  | [] => unexpected []
  | c :: rest =>
    if c = mark then .ok ⟨String.ofList before.reverse, rest, length_lt_cons c rest⟩
    else if c = '\\' ∧ mark = '"' then do
      let escaped ← scanEscape rest
      (scanLine mark (escaped.value :: before) escaped.rest).map
        (·.widen (Nat.le_trans (Nat.le_of_lt escaped.shorter) (length_le_cons c rest)))
    else if isPlain c then (scanLine mark (c :: before) rest).map (·.widen (length_le_cons c rest))
    else unexpected (c :: rest)
termination_by input.length
decreasing_by
  · exact Nat.lt_trans escaped.shorter (length_lt_cons c rest)
  · exact length_lt_cons c rest

/-- The end of a text on several lines, after the first of its closing marks.  Up to two more marks stand
before the closing ones.  Gives how many there are. -/
def closing? (mark : Char) (input : List Char) : Option (Scanned Nat (input.length + 1)) :=
  match input with
  | a :: b :: rest =>
    if a = mark ∧ b = mark then
      let more := min 2 (rest.takeWhile (· == mark)).length
      some ⟨more, rest.drop more, by simp; omega⟩
    else none
  | _ => none

/-- The rest of a text on several lines. -/
def scanLines (mark : Char) (before : List Char) (input : List Char) : Scan String input :=
  match ended : lineEnd? input with
  | some rest =>
    (scanLines mark ('\n' :: before) rest).map (·.widen (Nat.le_of_lt (length_lineEnd?_lt ended)))
  | none =>
    match input with
    | [] => unexpected []
    | c :: rest =>
      if c = mark then
        match closing? mark rest with
        | some close =>
          .ok ⟨String.ofList (List.replicate close.value mark ++ before).reverse, close.rest,
            by have := close.shorter; simp; omega⟩
        | none => (scanLines mark (c :: before) rest).map (·.widen (by simp))
      else if c = '\\' ∧ mark = '"' then
        match continued : lineEnd? (skipSpace rest) with
        | some after =>
          have shorter : (skipLines after).length < (c :: rest).length := by
            have lines := length_skipLines_le after
            have space := length_skipSpace_le rest
            have line := length_lineEnd?_lt continued
            simp
            omega
          (scanLines mark before (skipLines after)).map (·.widen (Nat.le_of_lt shorter))
        | none => do
          let escaped ← scanEscape rest
          (scanLines mark (escaped.value :: before) escaped.rest).map
            (·.widen (by have := escaped.shorter; simp; omega))
      else if isPlain c then (scanLines mark (c :: before) rest).map (·.widen (by simp))
      else unexpected (c :: rest)
termination_by input.length
decreasing_by
  · exact length_lineEnd?_lt ended
  · simp
  · exact shorter
  · have := escaped.shorter; simp; omega
  · simp

/-- A text after the first of its opening marks.  Three marks open a text on several lines, and a line
that ends right after them does not count. -/
def scanText (mark : Char) (input : List Char) : Scan String input :=
  match input with
  | a :: b :: rest =>
    if a = mark ∧ b = mark then
      match ended : lineEnd? rest with
      | some after =>
        (scanLines mark [] after).map (·.widen (Nat.le_trans (Nat.le_of_lt (length_lineEnd?_lt ended))
          (Nat.le_trans (length_le_cons b rest) (length_le_cons a (b :: rest)))))
      | none =>
        (scanLines mark [] rest).map (·.widen (Nat.le_trans (length_le_cons b rest) (length_le_cons a (b :: rest))))
    else scanLine mark [] (a :: b :: rest)
  | short => scanLine mark [] short

/-! ## Keys -/

/-- How deep values may be nested.  The parts of a key count as well. -/
def greatestDepth : Nat := 79

def isBareKeyChar (c : Char) : Bool := c.isAlphanum || c == '_' || c == '-'

def isQuote (c : Char) : Bool := c == '"' || c == '\x27'

/-- One part of a key. -/
def scanKeyPart (input : List Char) : Scan String input :=
  match input with
  | [] => unexpected []
  | c :: rest =>
    if isQuote c then (scanLine c [] rest).map (·.widen (length_le_cons c rest))
    else if isBareKeyChar c then
      .ok ⟨String.ofList (c :: rest.takeWhile isBareKeyChar), rest.dropWhile isBareKeyChar,
        Nat.lt_of_le_of_lt (length_dropWhile_le isBareKeyChar rest) (length_lt_cons c rest)⟩
    else unexpected (c :: rest)

/-- A key: the path to a table, and a name in it.  `before` holds the parts read so far, last first. -/
def scanKey (before : List String) (input : List Char) : Scan (List String × String) input := do
  let part ← scanKeyPart (skipSpace input)
  have shorter : (skipSpace part.rest).length < input.length := by
    have before := length_skipSpace_le input
    have after := length_skipSpace_le part.rest
    have := part.shorter
    omega
  match next : skipSpace part.rest with
  | '.' :: rest =>
    (scanKey (part.value :: before) rest).map (·.widen (by simp [next] at shorter; omega))
  | rest =>
    if greatestDepth ≤ before.length then .error ⟨.nestedTooDeep, byteCount input⟩
    else .ok ⟨(before.reverse, part.value), rest, next ▸ shorter⟩
termination_by input.length
decreasing_by simp [next] at shorter; omega

/-! ## Values -/

/-- What was refused while a table was made, said of a place in the text. -/
def placed (input : List Char) (made : Except Reason Entries) : Except Stop Entries :=
  made.mapError fun reason => ⟨reason, byteCount input⟩

/-- The rest of a list, after its opening bracket or a comma. -/
def scanItems (item : (input : List Char) → Scan Toml input) (before : List Toml) (input : List Char) :
    Scan Toml input :=
  have skipped := length_skipTrivia_le input
  match body : skipTrivia input with
  | ']' :: rest => .ok ⟨.list before.reverse, rest, by simp [body] at skipped; omega⟩
  | other => do
    let read ← item other
    have skippedAgain := length_skipTrivia_le read.rest
    match again : skipTrivia read.rest with
    | ',' :: rest =>
      (scanItems item (read.value :: before) rest).map
        (·.widen (by have := read.shorter; simp [body, again] at *; omega))
    | ']' :: rest =>
      .ok ⟨.list (read.value :: before).reverse, rest,
        by have := read.shorter; simp [body, again] at *; omega⟩
    | stopped => unexpected stopped
termination_by input.length
decreasing_by have := read.shorter; simp [body, again] at *; omega

/-- A key and its value. -/
def scanPair (item : (input : List Char) → Scan Toml input) (input : List Char) :
    Scan ((List String × String) × Toml) input := do
  let key ← scanKey [] input
  match equals : key.rest with
  | '=' :: rest =>
    let read ← item (skipSpace rest)
    .ok ⟨(key.value, read.value), read.rest, by
      have := key.shorter
      have := read.shorter
      have := length_skipSpace_le rest
      simp [equals] at *
      omega⟩
  | other => unexpected other

/-- The rest of a table that is written as a value, after its opening brace or a comma. -/
def scanPairs (item : (input : List Char) → Scan Toml input) (entries : Entries) (input : List Char) :
    Scan Toml input := do
  let pair ← scanPair item input
  let entries ← placed input (entries.assign pair.value.1.1 pair.value.1.2 pair.value.2)
  have shorter : (skipSpace pair.rest).length < input.length :=
    Nat.lt_of_le_of_lt (length_skipSpace_le pair.rest) pair.shorter
  match next : skipSpace pair.rest with
  | ',' :: rest => (scanPairs item entries rest).map (·.widen (by simp [next] at shorter; omega))
  | '\x7d' :: rest => .ok ⟨.table (Draft.closeEntries entries), rest, by simp [next] at shorter; omega⟩
  | other => unexpected other
termination_by input.length
decreasing_by simp [next] at shorter; omega

/-- The rest of a table that is written as a value, after its opening brace. -/
def scanTable (item : (input : List Char) → Scan Toml input) (input : List Char) : Scan Toml input :=
  have skipped := length_skipSpace_le input
  match body : skipSpace input with
  | '\x7d' :: rest => .ok ⟨.table [], rest, by simp [body] at skipped; omega⟩
  | other => (scanPairs item [] other).map (·.widen (body ▸ skipped))

/-- A number, a truth value, a date or a time.  A date may be divided from a time by a space. -/
def scanScalar (input : List Char) : Scan Toml input :=
  match input with
  | [] => unexpected []
  | c :: others =>
    let run := c :: others.takeWhile isScalarChar
    have shorter : (others.dropWhile isScalarChar).length < (c :: others).length := by
      have := length_dropWhile_le isScalarChar others
      simp
      omega
    if isScalarChar c then
      match date? run, rest : others.dropWhile isScalarChar with
      | some (day, []), ' ' :: later =>
        match (offsetTime? (later.takeWhile isScalarChar)) with
        | some clock =>
          .ok ⟨.moment (day ++ "T" ++ clock), later.dropWhile isScalarChar, by
            have := length_dropWhile_le isScalarChar later
            simp [rest] at *
            omega⟩
        | none => .ok ⟨.moment day, ' ' :: later, rest ▸ shorter⟩
      | _, after =>
        match scalar? run with
        | some value => .ok ⟨value, after, rest ▸ shorter⟩
        | none => unexpected (c :: others)
    else unexpected (c :: others)

/-- A value that may hold `depth` levels of lists and tables. -/
def scanValue (depth : Nat) (input : List Char) : Scan Toml input :=
  match input with
  | [] => unexpected []
  | c :: rest =>
    if isQuote c then (scanText c rest).map fun read => (read.map .text).widen (by simp)
    else if c = '[' ∨ c = '\x7b' then
      match depth with
      | 0 => .error ⟨.nestedTooDeep, byteCount rest⟩
      | below + 1 =>
        if c = '[' then (scanItems (scanValue below) [] rest).map (·.widen (by simp))
        else (scanTable (scanValue below) rest).map (·.widen (by simp))
    else scanScalar (c :: rest)

/-! ## Files -/

/-- What is left of a line after space and a comment. -/
def skipComment (input : List Char) : List Char :=
  match skipSpace input with
  | '#' :: comment => comment.dropWhile isPlain
  | other => other

theorem length_skipComment_le (input : List Char) : (skipComment input).length ≤ input.length := by
  have space := length_skipSpace_le input
  unfold skipComment
  split
  · next comment begun =>
    have := length_dropWhile_le isPlain comment
    simp [begun] at space
    omega
  · exact space

/-- The end of a line, after space and a comment.  The last line need not end. -/
def scanLineEnd (input : List Char) : Except Stop (Scanned Unit (input.length + 1)) :=
  have skipped := length_skipComment_le input
  match ended : lineEnd? (skipComment input) with
  | some rest => .ok ⟨(), rest, by have := length_lineEnd?_lt ended; omega⟩
  | none => if (skipComment input).isEmpty then .ok ⟨(), [], by simp⟩ else unexpected (skipComment input)

/-- The brackets that close a header. -/
def scanBrackets (count : Nat) (input : List Char) : Except Stop (Scanned Unit (input.length + 1)) :=
  if input.take count = List.replicate count ']' then .ok ⟨(), input.drop count, length_drop_lt count input⟩
  else unexpected input

/-- The key of a header, its closing brackets, and the end of its line. -/
def scanHeader (count : Nat) (input : List Char) : Scan (List String × String) input := do
  let key ← scanKey [] input
  let closed ← scanBrackets count key.rest
  let line ← scanLineEnd closed.rest
  .ok ⟨key.value, line.rest, by have := key.shorter; have := closed.shorter; have := line.shorter; omega⟩

set_option linter.unusedVariables false in
/-- The lines of a file.  `current` is the table that the last header opened. -/
def scanFile (entries : Entries) (current : List String) (input : List Char) : Except Stop Entries :=
  have skipped := length_skipSpace_le input
  match body : skipSpace input with
  | [] => .ok entries
  | '#' :: rest => do
    let line ← scanLineEnd (rest.dropWhile isPlain)
    scanFile entries current line.rest
  | '\n' :: rest => scanFile entries current rest
  | '\r' :: '\n' :: rest => scanFile entries current rest
  | '[' :: '[' :: rest => do
    let header ← scanHeader 2 rest
    let entries ← placed rest (entries.openListed header.value.1 header.value.2)
    scanFile entries (header.value.1 ++ [header.value.2]) header.rest
  | '[' :: rest => do
    let header ← scanHeader 1 rest
    let entries ← placed rest (entries.openTable header.value.1 header.value.2)
    scanFile entries (header.value.1 ++ [header.value.2]) header.rest
  | line => do
    let pair ← scanPair (scanValue greatestDepth) line
    let ended ← scanLineEnd pair.rest
    let entries ← placed line (entries.assignIn current pair.value.1.1 pair.value.1.2 pair.value.2)
    scanFile entries current ended.rest
termination_by input.length
decreasing_by
  · have := line.shorter
    have := length_dropWhile_le isPlain rest
    simp [body] at *
    omega
  · simp [body] at skipped
    omega
  · simp [body] at skipped
    omega
  · have := header.shorter
    simp [body] at *
    omega
  · have := header.shorter
    simp [body] at *
    omega
  · have := pair.shorter
    have := ended.shorter
    simp [body] at *
    omega

/-- A file may begin with a byte order mark. -/
def skipMark : List Char → List Char
  | '\ufeff' :: rest => rest
  | input => input

/-- The entries of the table that a text writes. -/
def read (text : String) : Except Fault (List (String × Toml)) :=
  let input := text.toList
  match scanFile [] [] (skipMark input) with
  | .ok entries => .ok (Draft.closeEntries entries)
  | .error stop => .error ⟨stop.reason, Position.ofOffset input (byteCount input - stop.left)⟩

end HighlightGrammar.Toml
