import HighlightGrammar.Files.Tree
import HighlightGrammar.Host

/-!
# A world to work in

The host that is a value: a tree of files, and the events of which it was told, last one first.
-/

namespace HighlightGrammar

structure World where
  files : Files
  events : List Event

namespace World

/-- An operation that changes files, or fails and changes nothing. -/
def attempt (change : Files → Except FileError Files) : StateM World (Except FileError Unit) := fun world =>
  match change world.files with
  | .ok files => (.ok (), { world with files })
  | .error e => (.error e, world)

instance : Host (StateM World) where
  readText path := fun world => (world.files.readText path, world)
  writeText path text := attempt (·.write path text.toUTF8)
  makeDirectory path := attempt (·.makeDirectory path)
  isFile path := fun world => (world.files.isFile path, world)
  isDirectory path := fun world => (world.files.isDirectory path, world)
  list path := fun world => (world.files.list path, world)
  note event := fun world => ((), { world with events := event :: world.events })

end World

end HighlightGrammar
