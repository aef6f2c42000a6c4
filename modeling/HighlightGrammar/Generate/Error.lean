import HighlightGrammar.Diagnostic
import HighlightGrammar.Files.Error
import HighlightGrammar.Grammar.LoadError
import HighlightGrammar.Json.Fault

/-!
# Errors of generation

Why no file was written for a language.
-/

namespace HighlightGrammar

inductive GenerateError where
  /-- The document is no grammar. -/
  | load (cause : LoadError)
  /-- The document is no JSON. -/
  | parse (path : String) (fault : Json.Fault)
  | file (path : String) (cause : FileError)
  /-- The document was found invalid, and nothing more was tried. -/
  | invalid (path : String) (diagnostics : List Diagnostic)
  /-- Some modes refer to one another by name in a circle. -/
  | residualCycle (ids : List String)
  /-- The configuration file cannot be used. -/
  | config (path reason : String)

namespace GenerateError

def message : GenerateError → String
  | .load cause => "invalid IR: " ++ cause.message
  | .parse path fault => "failed to parse " ++ path ++ ": " ++ fault.message
  | .file path cause => "I/O error on " ++ path ++ ": " ++ cause.message
  | .invalid path diagnostics => path ++ " has " ++ toString diagnostics.length ++ " validation error(s)"
  | .residualCycle ids => "unresolved reference cycle among modes: " ++ ", ".intercalate ids
  | .config path reason => "invalid config " ++ path ++ ": " ++ reason

end GenerateError

end HighlightGrammar
