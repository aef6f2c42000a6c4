import HighlightGrammar.Event
import HighlightGrammar.Files.Error
import HighlightGrammar.Files.Path

/-!
# Hosts

What the work needs of its surroundings: a few operations on files, and somebody to be told of events.
Everything that reads or writes files is written for an arbitrary host.
-/

namespace HighlightGrammar

class Host (m : Type → Type) where
  readText (path : String) : m (Except FileError String)
  writeText (path text : String) : m (Except FileError Unit)
  /-- Make one directory in a directory that exists. -/
  makeDirectory (path : String) : m (Except FileError Unit)
  isFile (path : String) : m Bool
  isDirectory (path : String) : m Bool
  /-- The names in a directory, in any order. -/
  list (path : String) : m (Except FileError (List String))
  note (event : Event) : m Unit

namespace Host

variable {m : Type → Type} [Monad m] [Host m]

/-- A directory that could not be made is no loss if it is there. -/
def unlessDirectory (path : String) (e : FileError) : m (Except FileError Unit) := do
  if ← isDirectory path then pure (.ok ()) else pure (.error e)

/-- Make the first of some directories, each of which lies in the next one, with those that are missing. -/
def makeDirectories : List String → m (Except FileError Unit)
  | [] => pure (.error .missing)
  | path :: above => do
    if path = "" then return .ok ()
    match ← makeDirectory path with
    | .ok () => pure (.ok ())
    | .error .missing =>
      match ← makeDirectories above with
      | .error e => pure (.error e)
      | .ok () =>
        match ← makeDirectory path with
        | .ok () => pure (.ok ())
        | .error e => unlessDirectory path e
    | .error e => unlessDirectory path e

/-- Make a directory, with the directories above it. -/
def ensureDirectory (path : String) : m (Except FileError Unit) := makeDirectories (path :: Path.ancestors path)

end Host

end HighlightGrammar
