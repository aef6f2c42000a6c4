import HighlightGrammar.Files.Path
import HighlightGrammar.Grammar.Validate
import HighlightGrammar.Host
import HighlightGrammar.Json.Reader

/-!
# Reports on documents

Files that cannot be read or are no JSON are reported like any other problem.
-/

namespace HighlightGrammar

structure Report where
  checked : Nat
  diagnostics : List Diagnostic

namespace Report

def isValid (report : Report) : Bool := report.diagnostics.isEmpty

/-- The problems of a document, given what came of reading its file. -/
def diagnose (path : String) : Except FileError String → List Diagnostic
  | .error cause => [⟨path, none, "failed to read file: " ++ cause.message⟩]
  | .ok text =>
    match Json.read text with
    | .error fault => [⟨path, none, "failed to parse JSON: " ++ fault.message⟩]
    | .ok document => Grammar.validate document path

variable {m : Type → Type} [Monad m] [Host m]

def ofPaths : List String → m Report
  | [] => pure ⟨0, []⟩
  | path :: rest => do
    let diagnostics := diagnose path (← Host.readText path)
    Host.note (.validatedDocument path diagnostics.length)
    let report ← ofPaths rest
    pure ⟨report.checked + 1, diagnostics ++ report.diagnostics⟩

/-- The documents of a directory: its files with the extension for JSON, by name. -/
def documentsIn (directory : String) : m (Except FileError (List String)) := do
  match ← Host.list directory with
  | .error cause => pure (.error cause)
  | .ok names =>
    let named := names.filter fun name => Path.extension? name == some "json"
    let paths := (named.mergeSort fun a b => a ≤ b).map (Path.join directory)
    .ok <$> paths.filterM fun path => Host.isFile path

end Report

end HighlightGrammar
