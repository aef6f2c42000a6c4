import HighlightGrammar.Config.Basic
import HighlightGrammar.Toml.Reader

/-!
# Configuration files

What a configuration file says takes the place of what holds without it, key by key.  A table is taken
whole.  Keys that are not known are ignored, and the root is never taken from the file.
-/

namespace HighlightGrammar.Config

inductive ReadError where
  | malformed (fault : Toml.Fault)
  /-- The value of a key has the wrong type. -/
  | wrongType (key : String)
deriving DecidableEq, Repr

namespace ReadError

def message : ReadError → String
  | .malformed fault => fault.message
  | .wrongType key => "TOML parse error: wrong type of value for key `" ++ key ++ "`"

end ReadError

/-- The text under a key, or what holds without it. -/
def textOr (otherwise : String) (key : String) (entries : List (String × Toml)) : Except ReadError String :=
  match entries.lookup key with
  | none => .ok otherwise
  | some (.text value) => .ok value
  | some _ => .error (.wrongType key)

/-- The key under which a date or a time stands where a table is read. -/
def momentKey : String := "$__toml_private_datetime"

/-- The names in a table.  A date or a time counts as a table that holds only itself. -/
def names? : Toml → Option (SortedMap String String)
  | .table entries => (entries.mapM fun (e : String × Toml) => e.2.asText?.map (e.1, ·)).map SortedMap.ofList
  | .moment normal => some (SortedMap.ofList [(momentKey, normal)])
  | _ => none

/-- The names under a key, or what holds without it. -/
def namesOr (otherwise : SortedMap String String) (key : String) (entries : List (String × Toml)) :
    Except ReadError (SortedMap String String) :=
  match entries.lookup key with
  | none => .ok otherwise
  | some value =>
    match names? value with
    | some names => .ok names
    | none => .error (.wrongType key)

/-- The configuration of a directory with a configuration file. -/
def ofEntries (root : String) (entries : List (String × Toml)) : Except ReadError Config := do
  let base := atRoot root
  .ok {
    root
    documentDir := ← textOr base.documentDir "ir-dir" entries
    outputDir := ← textOr base.outputDir "output-dir" entries
    templateDir := ← textOr base.templateDir "template-dir" entries
    displayNames := ← namesOr base.displayNames "display-names" entries
    templates := ← namesOr base.templates "template-overrides" entries
  }

/-- The configuration of a directory with the text of a configuration file. -/
def read (root text : String) : Except ReadError Config :=
  match Toml.read text with
  | .error fault => .error (.malformed fault)
  | .ok entries => ofEntries root entries

end HighlightGrammar.Config
