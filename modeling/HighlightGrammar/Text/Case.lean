import HighlightGrammar.Text.CaseTable

/-!
# Upper and lower case

Full case mapping, one character at a time: a form may have several characters, and no form depends on
the characters around it.
-/

namespace HighlightGrammar.Text

namespace CaseRun

def covers (run : CaseRun) (code : Nat) : Bool :=
  run.first ≤ code && code ≤ run.last && (code - run.first) % run.stride == 0

end CaseRun

/-- The form of a character by a table of shifted runs and one of longer forms. -/
def caseForm (runs : List CaseRun) (long : List (Nat × List Nat)) (c : Char) : List Char :=
  match long.lookup c.toNat with
  | some codes => codes.map Char.ofNat
  | none =>
    match runs.find? (·.covers c.toNat) with
    | some run => [Char.ofNat (c.toNat + run.shift).toNat]
    | none => [c]

def toUpper (c : Char) : List Char := caseForm upperRuns upperLong c

def toLower (c : Char) : List Char := caseForm lowerRuns lowerLong c

/-- The first character in upper case, the others unchanged. -/
def capitalize (text : String) : String :=
  match text.toList with
  | [] => ""
  | c :: rest => String.ofList (toUpper c ++ rest)

/-- The first character in upper case, the others in lower case. -/
def titlecase (text : String) : String :=
  match text.toList with
  | [] => ""
  | c :: rest => String.ofList (toUpper c ++ rest.flatMap toLower)

end HighlightGrammar.Text
