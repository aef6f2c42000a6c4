import HighlightGrammar.Text.Quoted

/-!
# Events

What is told about the progress of the work, if one asks for it.
-/

namespace HighlightGrammar

inductive Event where
  | readingConfig (path : String)
  | readConfig (outputDir : String)
  | builtGraph (nodes edges : Nat)
  | foundComponents (components cyclic : Nat)
  | brokeEdge (source relation : String) (position : Nat) (target : String)
  | planned (modes breaks : Nat) (fallback : Bool)
  | rendering (lang : String) (modes breaks : Nat)
  | copiedTemplate (lang template : String)
  | generated (lang path : String)
  | validatedDocument (path : String) (diagnostics : Nat)
  | validatedDocuments (checked diagnostics : Nat)
deriving DecidableEq, Repr

namespace Event

/-- What happened, and the values that belong to it. -/
def parts : Event → String × List (String × String)
  | .readingConfig path => ("loading generator config", [("path", path)])
  | .readConfig outputDir => ("loaded generator config", [("output_dir", outputDir)])
  | .builtGraph nodes edges =>
    ("built dependency graph", [("nodes", toString nodes), ("edges", toString edges)])
  | .foundComponents components cyclic =>
    ("computed strongly connected components",
      [("components", toString components), ("cyclic", toString cyclic)])
  | .brokeEdge source relation position target =>
    ("breaking edge",
      [("source", source), ("relation", relation), ("position", toString position), ("target", target)])
  | .planned modes breaks fallback =>
    ("compiled mode graph",
      [("modes", toString modes), ("break_edges", toString breaks), ("fallback", toString fallback)])
  | .rendering lang modes breaks =>
    ("rendering swift source",
      [("lang", lang), ("modes", toString modes), ("break_edges", toString breaks)])
  | .copiedTemplate lang template =>
    ("copied template override", [("lang", Text.quoted lang), ("template", template)])
  | .generated lang path => ("generate finished", [("lang", lang), ("path", path)])
  | .validatedDocument path diagnostics =>
    ("validated IR document", [("path", path), ("diagnostics", toString diagnostics)])
  | .validatedDocuments checked diagnostics =>
    ("validated IR documents", [("checked", toString checked), ("diagnostics", toString diagnostics)])

/-- One line about an event. -/
def line (event : Event) : String :=
  let fields := event.parts.2.map fun field => " " ++ field.1 ++ "=" ++ field.2
  "DEBUG " ++ event.parts.1 ++ String.join fields

end Event

end HighlightGrammar
