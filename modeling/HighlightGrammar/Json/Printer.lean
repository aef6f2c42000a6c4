import HighlightGrammar.Decimal
import HighlightGrammar.Json.Basic

/-!
# Writing JSON values

`Json.render` writes a value without space, `Json.pretty` with one item or field on a line.
-/

namespace HighlightGrammar

namespace Json

/-- Numbers from 0.00001 up to, but not including, 10 ^ 16 are written positionally. -/
def floatFormat : FloatFormat := ⟨-5, 15⟩

end Json

def Number.render : Number → String
  | .whole value => toString value
  | .float value => Json.floatFormat.render value

namespace Json

def hexDigit (n : Nat) : Char := (Nat.digitChar (n % 16))

/-- The characters written for one character of a text.  Those below the space have no other form. -/
def escapeChar (c : Char) : List Char :=
  if c = '"' then ['\\', '"']
  else if c = '\\' then ['\\', '\\']
  else if c = '\x08' then ['\\', 'b']
  else if c = '\x0c' then ['\\', 'f']
  else if c = '\n' then ['\\', 'n']
  else if c = '\r' then ['\\', 'r']
  else if c = '\t' then ['\\', 't']
  else if c.toNat < 0x20 then ['\\', 'u', '0', '0', hexDigit (c.toNat / 16), hexDigit c.toNat]
  else [c]

/-- A text between quotes. -/
def quote (text : String) : String := "\"" ++ String.ofList (text.toList.flatMap escapeChar) ++ "\""

mutual

/-- The shortest form of a value. -/
def render : Json → String
  | .null => "null"
  | .bool value => if value then "true" else "false"
  | .number value => value.render
  | .text value => quote value
  | .list items => "[" ++ ",".intercalate (renderItems items) ++ "]"
  | .object fields => "\x7b" ++ ",".intercalate (renderFields fields) ++ "\x7d"

def renderItems : List Json → List String
  | [] => []
  | item :: rest => render item :: renderItems rest

def renderFields : List (String × Json) → List String
  | [] => []
  | (key, value) :: rest => (quote key ++ ":" ++ render value) :: renderFields rest

end

/-- The start of a line `level` levels deep. -/
def indent (level : Nat) : String := "\n" ++ String.ofList (List.replicate (2 * level) ' ')

/-- Brackets around items on lines of their own. -/
def block (opening closing : String) (level : Nat) (items : List String) : String :=
  if items.isEmpty then opening ++ closing
  else
    opening ++ indent (level + 1) ++ (("," ++ indent (level + 1)).intercalate items) ++ indent level ++
      closing

mutual

/-- A value over several lines, `level` levels deep. -/
def prettyAt (level : Nat) : Json → String
  | .list items => block "[" "]" level (prettyItems (level + 1) items)
  | .object fields => block "\x7b" "\x7d" level (prettyFields (level + 1) fields)
  | .null => render .null
  | .bool value => render (.bool value)
  | .number value => render (.number value)
  | .text value => render (.text value)

def prettyItems (level : Nat) : List Json → List String
  | [] => []
  | item :: rest => prettyAt level item :: prettyItems level rest

def prettyFields (level : Nat) : List (String × Json) → List String
  | [] => []
  | (key, value) :: rest => (quote key ++ ": " ++ prettyAt level value) :: prettyFields level rest

end

def pretty (value : Json) : String := prettyAt 0 value

end Json

end HighlightGrammar
