/-!
# Results of scanners

A scanner takes the characters still to be read and gives a value and what is left.  That the rest is
shorter stands in the type, so that readers made of scanners come to an end.
-/

namespace HighlightGrammar.Text

/-- A value and what is left of an input, which has fewer than `bound` characters. -/
structure Scanned (α : Type) (bound : Nat) where
  value : α
  rest : List Char
  shorter : rest.length < bound

namespace Scanned

variable {α β : Type} {bound wider : Nat}

def widen (scanned : Scanned α bound) (le : bound ≤ wider) : Scanned α wider :=
  ⟨scanned.value, scanned.rest, Nat.lt_of_lt_of_le scanned.shorter le⟩

def map (f : α → β) (scanned : Scanned α bound) : Scanned β bound :=
  ⟨f scanned.value, scanned.rest, scanned.shorter⟩

end Scanned

theorem length_dropWhile_le (p : Char → Bool) (input : List Char) :
    (input.dropWhile p).length ≤ input.length :=
  (List.dropWhile_sublist p).length_le

theorem length_lt_cons (c : Char) (rest : List Char) : rest.length < (c :: rest).length :=
  Nat.lt_succ_self rest.length

theorem length_le_cons (c : Char) (rest : List Char) : rest.length ≤ (c :: rest).length :=
  Nat.le_succ rest.length

theorem length_drop_lt (count : Nat) (input : List Char) : (input.drop count).length < input.length + 1 := by
  simp only [List.length_drop]
  omega

/-- The value of a hexadecimal digit. -/
def hexValue? (c : Char) : Option Nat :=
  if c.isDigit then some (c.toNat - '0'.toNat)
  else if 'a' ≤ c ∧ c ≤ 'f' then some (c.toNat - 'a'.toNat + 10)
  else if 'A' ≤ c ∧ c ≤ 'F' then some (c.toNat - 'A'.toNat + 10)
  else none

end HighlightGrammar.Text
