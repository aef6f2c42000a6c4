/-!
# Swift expressions

The small part of the language in which grammars are written down: names, literals, lists and calls.
`Expr.render` gives the text of an expression.
-/

namespace HighlightGrammar.Swift

/-- The characters written for one character of a string literal. -/
def escapeChar (c : Char) : List Char :=
  if c = '\\' then ['\\', '\\']
  else if c = '"' then ['\\', '"']
  else if c = '\n' then ['\\', 'n']
  else if c = '\r' then ['\\', 'r']
  else if c = '\t' then ['\\', 't']
  else [c]

/-- The string literal for a text. -/
def quote (text : String) : String := String.ofList ('"' :: text.toList.flatMap escapeChar ++ ['"'])

inductive Expr where
  /-- A name, a number or a truth value. -/
  | atom (text : String)
  /-- A string literal. -/
  | literal (text : String)
  /-- A labelled argument, or an entry of a dictionary. -/
  | entry (key value : Expr)
  | list (items : List Expr)
  | call (callee : String) (arguments : List Expr)
deriving Repr, Inhabited

namespace Expr

mutual

def render : Expr → String
  | .atom text => text
  | .literal text => quote text
  | .entry key value => key.render ++ ": " ++ value.render
  | .list items => "[" ++ ", ".intercalate (renderAll items) ++ "]"
  | .call callee arguments => callee ++ "(" ++ ", ".intercalate (renderAll arguments) ++ ")"

def renderAll : List Expr → List String
  | [] => []
  | e :: rest => e.render :: renderAll rest

end

theorem renderAll_eq_map (es : List Expr) : renderAll es = es.map render := by
  induction es with
  | nil => rfl
  | cons e rest ih => rw [renderAll, ih, List.map_cons]

/-- A list literal, unless there is nothing to list. -/
def nonEmptyList? (items : List Expr) : Option Expr := if items.isEmpty then none else some (.list items)

/-- A list of string literals, unless there are none. -/
def literals? (texts : List String) : Option Expr := nonEmptyList? (texts.map .literal)

/-- A dictionary of string literals, unless it is empty. -/
def dictionary? (entries : List (String × String)) : Option Expr :=
  nonEmptyList? (entries.map fun e => .entry (.literal e.1) (.literal e.2))

/-- An argument with a label, if it has a value. -/
def argument? (label : String) (value : Option Expr) : Option Expr := value.map (.entry (.atom label))

/-- An argument that is given only where it is true. -/
def flag? (label : String) (value : Bool) : Option Expr :=
  if value then some (.entry (.atom label) (.atom "true")) else none

end Expr

end HighlightGrammar.Swift
