import HighlightGrammar.Text.Blank

/-!
# Weighted words

In a text of keywords a word may end in a bar and a number, its weight.  Only the words are kept.
-/

namespace HighlightGrammar

/-- A word without its weight.  A bar that no digits follow, or not only digits, is part of the word. -/
def stripWeight (word : List Char) : List Char :=
  match word.reverse.dropWhile Char.isDigit with
  | '|' :: before => if word.reverse.takeWhile Char.isDigit = [] then word else before.reverse
  | _ => word

/-- The words of a text without their weights.  A word that is nothing but a weight is left out. -/
def plainWords (raw : String) : List String :=
  (((Text.words raw.toList).map stripWeight).filter (· ≠ [])).map String.ofList

end HighlightGrammar
