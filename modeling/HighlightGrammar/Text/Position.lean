/-!
# Places in a text

Texts are measured in the bytes of their UTF-8 form.  A position is a line, counted from one, and the
number of bytes between the start of that line and the place.
-/

namespace HighlightGrammar.Text

/-- The bytes that a list of characters takes in UTF-8. -/
def byteCount (cs : List Char) : Nat := cs.foldr (fun c count => c.utf8Size + count) 0

structure Position where
  line : Nat
  column : Nat
deriving DecidableEq, Repr

namespace Position

/-- Walk `offset` bytes into a text.  The end of the walk may lie inside a character. -/
def walk (position : Position) : List Char → (offset : Nat) → Position
  | [], _ => position
  | c :: rest, offset =>
    if c.utf8Size ≤ offset then
      if c = '\n' then walk ⟨position.line + 1, 0⟩ rest (offset - c.utf8Size)
      else walk ⟨position.line, position.column + c.utf8Size⟩ rest (offset - c.utf8Size)
    else ⟨position.line, position.column + offset⟩

/-- The position that lies `offset` bytes after the start of a text. -/
def ofOffset (text : List Char) (offset : Nat) : Position := walk ⟨1, 0⟩ text offset

end Position

end HighlightGrammar.Text
