import HighlightGrammar.Swift.Expr
import Mathlib.Data.List.Forall2

/-!
# Text in string literals

`Swift.readLiteral` reads back what `Swift.quote` writes, and finds its end whatever follows.  So a scan of a file
from left to right sees each literal as a whole: `Swift.skeleton` keeps the code of a text and erases what stands
between the quotes.  Two texts have the same skeleton if they are put together in the same way from the same code
and from literals, whatever is in these.
-/

namespace HighlightGrammar.Swift

/-! ## Reading literals -/

/-- The character for which an escape stands. -/
def unescape? (c : Char) : Option Char :=
  if c = '\\' then some '\\'
  else if c = '"' then some '"'
  else if c = 'n' then some '\n'
  else if c = 'r' then some '\r'
  else if c = 't' then some '\t'
  else none

/-- The text of a literal whose opening quote has been read, and what follows its closing quote.  A literal ends
on the line where it began. -/
def readLiteral : List Char → Option (List Char × List Char)
  | [] => none
  | ['\\'] => none
  | '\\' :: c :: rest =>
    match unescape? c, readLiteral rest with
    | some meant, some (text, after) => some (meant :: text, after)
    | _, _ => none
  | c :: rest =>
    if c = '"' then some ([], rest)
    else if c = '\n' ∨ c = '\r' then none
    else (readLiteral rest).map fun (text, after) => (c :: text, after)

theorem readLiteral_escapeChar (c : Char) (rest : List Char) :
    readLiteral (escapeChar c ++ rest) = (readLiteral rest).map fun (text, after) => (c :: text, after) := by
  have escaped : ∀ letter, unescape? letter = some c →
      readLiteral ('\\' :: letter :: rest) = (readLiteral rest).map fun (text, after) => (c :: text, after) := by
    intro letter meant
    rw [readLiteral, meant]
    cases readLiteral rest <;> rfl
  by_cases backslash : c = '\\'
  · subst backslash
    exact escaped '\\' rfl
  by_cases quote : c = '"'
  · subst quote
    exact escaped '"' rfl
  by_cases newline : c = '\n'
  · subst newline
    exact escaped 'n' rfl
  by_cases carriage : c = '\r'
  · subst carriage
    exact escaped 'r' rfl
  by_cases tab : c = '\t'
  · subst tab
    exact escaped 't' rfl
  simp [escapeChar, readLiteral, backslash, quote, newline, carriage, tab]

/-- A literal is read back, and ends where it was closed. -/
theorem readLiteral_flatMap_escapeChar (text rest : List Char) :
    readLiteral (text.flatMap escapeChar ++ '"' :: rest) = some (text, rest) := by
  induction text with
  | nil => simp [readLiteral]
  | cons c text ih =>
    rw [List.flatMap_cons, List.append_assoc, readLiteral_escapeChar, ih]
    rfl

theorem length_lt_of_readLiteral {text content after : List Char} (read : readLiteral text = some (content, after)) :
    after.length < text.length := by
  fun_induction readLiteral text generalizing content with
  | case1 | case2 | case4 | case6 => cases read
  | case3 c rest meant inner after' found _ ih =>
    cases read
    have less := ih found
    simp only [List.length_cons]
    omega
  | case5 =>
    cases read
    simp
  | case7 c rest _ _ _ _ ih =>
    obtain ⟨⟨inner, after'⟩, found, same⟩ := Option.map_eq_some_iff.1 read
    cases same
    have less := ih found
    simp only [List.length_cons]
    omega

/-! ## Skeletons -/

/-- A text with nothing between the quotes of its literals.  There is none if a literal is not closed. -/
def skeleton : List Char → Option (List Char)
  | [] => some []
  | c :: rest =>
    if c = '"' then
      match _read : readLiteral rest with
      | none => none
      | some (_, after) => (skeleton after).map fun code => '"' :: '"' :: code
    else (skeleton rest).map (c :: ·)
termination_by text => text.length
decreasing_by
  · exact Nat.lt_succ_of_lt (length_lt_of_readLiteral _read)
  · exact Nat.lt_succ_self _

/-- A text is scanned on its own, whatever follows it, and leaves this of its code. -/
def Scans (text code : List Char) : Prop := ∀ rest, skeleton (text ++ rest) = (skeleton rest).map (code ++ ·)

namespace Scans

variable {text other code otherCode : List Char}

theorem nil : Scans [] [] := by
  intro rest
  simp

theorem append (first : Scans text code) (second : Scans other otherCode) :
    Scans (text ++ other) (code ++ otherCode) := by
  intro rest
  rw [List.append_assoc, first, second, Option.map_map]
  congr 1
  funext after
  exact (List.append_assoc code otherCode after).symm

theorem unquoted (plain : '"' ∉ text) : Scans text text := by
  induction text with
  | nil => exact nil
  | cons c text ih =>
    obtain ⟨different, plainRest⟩ := List.ne_and_not_mem_of_not_mem_cons plain
    intro rest
    rw [List.cons_append, skeleton, if_neg different.symm, ih plainRest, Option.map_map]
    rfl

theorem quote (content : String) : Scans (quote content).toList ['"', '"'] := by
  intro rest
  have read := readLiteral_flatMap_escapeChar content.toList rest
  rw [Swift.quote, String.toList_ofList, List.append_assoc, List.singleton_append, List.cons_append, skeleton,
    if_pos rfl]
  split
  next missing => simp [missing] at read
  next after found =>
    cases found.symm.trans read
    rfl

theorem skeleton_eq (scans : Scans text code) : skeleton text = some code := by
  have whole := scans []
  simpa [skeleton] using whole

end Scans

/-! ## Texts with the same skeleton -/

/-- Two texts leave the same code when they are scanned. -/
def SameCode (text other : String) : Prop := ∃ code, Scans text.toList code ∧ Scans other.toList code

namespace SameCode

theorem append {text other more otherMore : String} (first : SameCode text other)
    (second : SameCode more otherMore) : SameCode (text ++ more) (other ++ otherMore) := by
  obtain ⟨code, scans, otherScans⟩ := first
  obtain ⟨moreCode, moreScans, otherMoreScans⟩ := second
  refine ⟨code ++ moreCode, ?_, ?_⟩
  · rw [String.toList_append]
    exact scans.append moreScans
  · rw [String.toList_append]
    exact otherScans.append otherMoreScans

theorem unquoted {text : String} (plain : '"' ∉ text.toList) : SameCode text text :=
  ⟨text.toList, .unquoted plain, .unquoted plain⟩

theorem quote (text other : String) : SameCode (quote text) (quote other) := ⟨_, .quote text, .quote other⟩

theorem intercalate {between : String} (plain : '"' ∉ between.toList) {texts others : List String}
    (same : List.Forall₂ SameCode texts others) :
    SameCode (between.intercalate texts) (between.intercalate others) := by
  induction same with
  | nil => exact unquoted (by simp)
  | @cons text other texts others head tail ih =>
    cases tail with
    | nil =>
      rw [String.intercalate_singleton, String.intercalate_singleton]
      exact head
    | cons next tail =>
      rw [String.intercalate_cons_cons, String.intercalate_cons_cons]
      exact (head.append (unquoted plain)).append ih

end SameCode

end HighlightGrammar.Swift
