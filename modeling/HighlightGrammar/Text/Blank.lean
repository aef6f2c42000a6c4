/-!
# Blank characters and words

The blank characters are those with the Unicode property White_Space.  A text's words are its longest
runs of other characters.
-/

namespace HighlightGrammar.Text

/-- The code points with the property White_Space, as closed ranges. -/
def blankRanges : List (Nat × Nat) :=
  [(0x09, 0x0D), (0x20, 0x20), (0x85, 0x85), (0xA0, 0xA0), (0x1680, 0x1680), (0x2000, 0x200A),
   (0x2028, 0x2029), (0x202F, 0x202F), (0x205F, 0x205F), (0x3000, 0x3000)]

def isBlank (c : Char) : Bool := blankRanges.any fun r => r.1 ≤ c.toNat && c.toNat ≤ r.2

/-- The longest runs of characters that are not blank, in order. -/
def words : List Char → List (List Char)
  | [] => []
  | c :: rest =>
    if isBlank c then words rest
    else (c :: rest.takeWhile (!isBlank ·)) :: words (rest.dropWhile (!isBlank ·))
termination_by cs => cs.length
decreasing_by
  · simp
  · have shorter := (List.dropWhile_sublist (fun c => !isBlank c) (l := rest)).length_le
    simp only [List.length_cons]
    omega

/-- The words of a text. -/
def splitWords (text : String) : List String := (words text.toList).map String.ofList

end HighlightGrammar.Text
