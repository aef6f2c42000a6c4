/-!
# Brackets in regular expressions

Grammars are written in a dialect in which an opening bracket inside a character class stands for itself.
The target dialect has nested classes, so there such a bracket has to be escaped.  A backslash takes the
character after it along, whatever that is.
-/

namespace HighlightGrammar

/-- Escape the opening brackets inside of character classes. -/
def escapeBrackets (inClass : Bool) : List Char → List Char
  | [] => []
  | ['\\'] => ['\\']
  | '\\' :: c :: rest => '\\' :: c :: escapeBrackets inClass rest
  | '[' :: rest =>
    if inClass then '\\' :: '[' :: escapeBrackets true rest else '[' :: escapeBrackets true rest
  | ']' :: rest => ']' :: escapeBrackets false rest
  | c :: rest => c :: escapeBrackets inClass rest

/-- The source of a regular expression in the target dialect. -/
def sanitizeSource (source : String) : String := String.ofList (escapeBrackets false source.toList)

end HighlightGrammar
