import HighlightGrammar.Json.Printer

/-!
# Schemas

A schema restricts JSON values by their kind and, for lists and objects, by what is inside of them.
`Schema.violations` lists everything about a value that goes against a schema, in the order of the
schema's parts and of the value's items and fields; `Schema.Conforms` says without it what a schema
demands.  A part that speaks about lists or objects demands nothing of other values.
-/

namespace HighlightGrammar

/-- The kinds of JSON value that a schema tells apart. -/
inductive Kind where
  | array
  | boolean
  | integer
  | null
  | number
  | object
  | string
deriving DecidableEq, Repr

namespace Kind

def name : Kind → String
  | .array => "array"
  | .boolean => "boolean"
  | .integer => "integer"
  | .null => "null"
  | .number => "number"
  | .object => "object"
  | .string => "string"

/-- Whether a value is of a kind.  A float without fractional part is an integer. -/
def admits : Kind → Json → Bool
  | .array, .list _ => true
  | .boolean, .bool _ => true
  | .integer, .number (.whole _) => true
  | .integer, .number (.float x) => x.isWhole
  | .null, .null => true
  | .number, .number _ => true
  | .object, .object _ => true
  | .string, .text _ => true
  | _, _ => false

end Kind

inductive Schema where
  /-- Every value. -/
  | any
  /-- Values of one of the kinds. -/
  | kinds (allowed : List Kind)
  /-- One text only. -/
  | exactly (text : String)
  /-- Objects with a field of this name. -/
  | required (key : String)
  /-- Objects whose field of this name, if there is one, conforms. -/
  | field (key : String) (value : Schema)
  /-- Objects whose fields all conform. -/
  | fields (value : Schema)
  /-- Objects whose keys are made of decimal digits. -/
  | digitKeys
  /-- Lists whose items all conform. -/
  | items (item : Schema)
  /-- Values that conform to one of two schemas. -/
  | either (first second : Schema)
  /-- Values that conform to both schemas. -/
  | both (first second : Schema)
deriving Repr

/-- One way in which a value goes against a schema. -/
inductive Violation where
  | wrongKind (value : Json) (allowed : List Kind)
  | unexpected (text : String)
  | missing (key : String)
  | badKey (key : String)
  | noAlternative (value : Json)
deriving Repr

namespace Violation

/-- Quoted names with commas between them. -/
def kindNames (kinds : List Kind) : String := ", ".intercalate (kinds.map fun kind => Json.quote kind.name)

def message : Violation → String
  | .wrongKind value [kind] => value.render ++ " is not of type " ++ kindNames [kind]
  | .wrongKind value kinds => value.render ++ " is not of types " ++ kindNames kinds
  | .unexpected text => Json.quote text ++ " was expected"
  | .missing key => Json.quote key ++ " is a required property"
  | .badKey key => Json.quote key ++ " does not match \"^[0-9]+$\""
  | .noAlternative value =>
    value.render ++ " is not valid under any of the schemas listed in the 'anyOf' keyword"

end Violation

/-- One or more decimal digits and nothing else. -/
def isDigits (key : String) : Bool := !key.toList.isEmpty && key.toList.all Char.isDigit

namespace Schema

/-- All the given schemas at once. -/
def all (schemas : List Schema) : Schema := schemas.foldr .both .any

/-- A schema for each of several fields. -/
def record (schemas : List (String × Schema)) : Schema :=
  all (schemas.map fun entry => .field entry.1 entry.2)

/-- Everything about a value that goes against a schema. -/
def violations : Schema → Json → List Violation
  | .any, _ => []
  | .kinds allowed, value => if allowed.any (·.admits value) then [] else [.wrongKind value allowed]
  | .exactly text, value => if value.asText? = some text then [] else [.unexpected text]
  | .required key, value =>
    match value with
    | .object entries => if (entries.lookup key).isSome then [] else [.missing key]
    | _ => []
  | .field key schema, value =>
    match value.get? key with
    | some inner => schema.violations inner
    | none => []
  | .fields schema, value => ((value.asFields?).getD []).flatMap fun e => schema.violations e.2
  | .digitKeys, value =>
    ((value.asFields?).getD []).filterMap fun e =>
      if isDigits e.1 then none else some (.badKey e.1)
  | .items schema, value => ((value.asList?).getD []).flatMap schema.violations
  | .either first second, value =>
    if (first.violations value).isEmpty || (second.violations value).isEmpty then []
    else [.noAlternative value]
  | .both first second, value => first.violations value ++ second.violations value

/-- What a schema demands of a value. -/
def Conforms : Schema → Json → Prop
  | .any, _ => True
  | .kinds allowed, value => ∃ kind ∈ allowed, kind.admits value = true
  | .exactly text, value => value = .text text
  | .required key, value => ∀ entries, value = .object entries → ∃ inner, entries.lookup key = some inner
  | .field key schema, value => ∀ inner, value.get? key = some inner → schema.Conforms inner
  | .fields schema, value => ∀ entries, value = .object entries → ∀ e ∈ entries, schema.Conforms e.2
  | .digitKeys, value =>
    ∀ entries, value = .object entries → ∀ e ∈ entries, isDigits e.1 = true
  | .items schema, value => ∀ elements, value = .list elements → ∀ e ∈ elements, schema.Conforms e
  | .either first second, value => first.Conforms value ∨ second.Conforms value
  | .both first second, value => first.Conforms value ∧ second.Conforms value

end Schema

end HighlightGrammar
