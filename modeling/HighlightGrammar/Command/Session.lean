import HighlightGrammar.Command.Run
import HighlightGrammar.World

/-!
# Commands in a world

Carrying out a command line on a tree of files.  Events are told on the error channel, before anything
else, if one asks for them.
-/

namespace HighlightGrammar.Command

def eventText (verbose : Bool) (events : List Event) : String :=
  if verbose then asLines (events.map (·.line)) else ""

/-- What a command line says, and the files after it. -/
def execute (arguments : List String) (files : Files) : Outcome × Files :=
  match parse arguments with
  | .error halt => (halt.outcome, files)
  | .ok invocation =>
    let (outcome, world) := (invocation.run : StateM World Outcome).run ⟨files, []⟩
    ({ outcome with errors := eventText invocation.verbose world.events.reverse ++ outcome.errors },
      world.files)

end HighlightGrammar.Command
