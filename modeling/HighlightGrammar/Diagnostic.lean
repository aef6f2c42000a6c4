import HighlightGrammar.Json.Basic

/-!
# Diagnostics

A diagnostic tells about one problem of a document: which document, perhaps where in it, and what.
-/

namespace HighlightGrammar

structure Diagnostic where
  source : String
  location : Option String
  message : String
deriving DecidableEq, Repr

namespace Diagnostic

/-- One line of text. -/
def line (d : Diagnostic) : String :=
  match d.location with
  | some location => d.source ++ ": " ++ location ++ ": " ++ d.message
  | none => d.source ++ ": " ++ d.message

/-- All three parts, a missing location as null. -/
def toJson (d : Diagnostic) : Json :=
  .ofFields [("location", .ofOption .text d.location), ("message", .text d.message), ("source", .text d.source)]

/-- Only the parts that are there. -/
def toShortJson (d : Diagnostic) : Json :=
  match d.location with
  | some _ => d.toJson
  | none => .ofFields [("message", .text d.message), ("source", .text d.source)]

/-- A location as written: a text, or null for none. -/
def readLocation? : Json → Option (Option String)
  | .null => some none
  | .text location => some (some location)
  | _ => none

/-- A diagnostic from an object with its parts, or from a list of source, location and message. -/
def ofJson? : Json → Option Diagnostic
  | .object fields => do
    let value := Json.object fields
    let source ← value.getText? "source"
    let location ← readLocation? ((value.get? "location").getD .null)
    let message ← value.getText? "message"
    some ⟨source, location, message⟩
  | .list [.text source, location, .text message] =>
    (readLocation? location).map fun location => ⟨source, location, message⟩
  | _ => none

end Diagnostic

end HighlightGrammar
