import HighlightGrammar.Generate.Error
import HighlightGrammar.Grammar.Load
import HighlightGrammar.Swift.File

/-!
# The text for a grammar

From a planned grammar, or from a document, to the text of its file.  The strict way refuses a plan that
falls back to the order of the modes.
-/

namespace HighlightGrammar

/-- What is to be generated from a grammar. -/
structure Target where
  lang : String
  /-- The name under which the language is registered. -/
  register : String
  strict : Bool

namespace Target

/-- The text for a planned grammar. -/
def render (target : Target) (grammar : Grammar) (plan : Plan grammar.size) : Except GenerateError String :=
  if plan.schedule.isFallback && target.strict then
    .error (.residualCycle (plan.schedule.residual.map fun mode => (grammar.modes.get mode).id))
  else .ok (Swift.fileText grammar plan target.lang target.register)

/-- The text for a document. -/
def generate (target : Target) (document : Json) : Except GenerateError String :=
  match Grammar.load document with
  | .error cause => .error (.load cause)
  | .ok grammar => target.render grammar (Plan.ofModes grammar.modes)

end Target

end HighlightGrammar
