import HighlightGrammar.Config.Read
import HighlightGrammar.Generate.Error
import HighlightGrammar.Host

/-!
# Finding a configuration

A configuration is read from a given file, or from the file of a directory, if it has one.
-/

namespace HighlightGrammar.Config

variable {m : Type → Type} [Monad m] [Host m]

/-- The configuration of a directory with a given configuration file. -/
def load (path root : String) : m (Except GenerateError Config) := do
  match ← Host.readText path with
  | .error cause => pure (.error (.file path cause))
  | .ok text =>
    match read root text with
    | .error e => pure (.error (.config path e.message))
    | .ok config => pure (.ok config)

/-- The configuration of a directory. -/
def discover (root : String) : m (Except GenerateError Config) := do
  let path := Path.join root fileName
  if ← Host.isFile path then
    Host.note (.readingConfig path)
    load path root
  else pure (.ok (atRoot root))

end HighlightGrammar.Config
