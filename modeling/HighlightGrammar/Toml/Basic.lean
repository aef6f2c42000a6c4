import HighlightGrammar.Text.Position

/-!
# TOML values

The values of a configuration file, and why a text is no such file.
-/

namespace HighlightGrammar

inductive Toml where
  | text (value : String)
  | integer (value : Int)
  /-- A float, as it is written. -/
  | float (written : String)
  | bool (value : Bool)
  /-- A date, a time or both, in normal form. -/
  | moment (normal : String)
  | list (items : List Toml)
  | table (entries : List (String × Toml))
deriving Repr, Inhabited

namespace Toml

def asText? : Toml → Option String
  | .text value => some value
  | _ => none

inductive Reason where
  | unexpectedText
  | duplicateKey (key : String)
  /-- A key that has a value other than a table is extended. -/
  | notTable (key : String)
  | nestedTooDeep
deriving DecidableEq, Repr

def Reason.message : Reason → String
  | .unexpectedText => "unexpected text"
  | .duplicateKey key => "duplicate key `" ++ key ++ "`"
  | .notTable key => "key `" ++ key ++ "` is not a table"
  | .nestedTooDeep => "nested too deep"

/-- Why a text cannot be read, and where. -/
structure Fault where
  reason : Reason
  position : Text.Position
deriving DecidableEq, Repr

/-- Columns are counted from one here. -/
def Fault.message (fault : Fault) : String :=
  "TOML parse error at line " ++ toString fault.position.line ++ ", column " ++
    toString (fault.position.column + 1) ++ "\n" ++ fault.reason.message ++ "\n"

end Toml

end HighlightGrammar
