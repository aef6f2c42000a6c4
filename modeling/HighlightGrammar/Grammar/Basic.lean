import HighlightGrammar.SortedMap

/-!
# Highlighting grammars

A grammar describes a language by a list of modes.  A mode says which stretch of text it matches and how
that is marked up; it may contain other modes, stand for a choice of variants, and hand over to a mode
that starts where it ends.  These references form the structure of the grammar, everything else about a
mode is an attribute.

References are positions in the list of modes, so a grammar of `n` modes refers to nothing outside of it.
-/

namespace HighlightGrammar

inductive PatternKind where
  | regex
  | text
deriving DecidableEq, Repr

structure Pattern where
  kind : PatternKind
  source : String
  ignoreCase : Bool
  unicode : Bool
deriving DecidableEq, Repr

/-- Words to mark up, by category.  `raw` holds words in one text, each perhaps with a weight. -/
structure Keywords where
  pattern : Option Pattern
  keyword : List String
  literal : List String
  builtIn : List String
  type : List String
  custom : SortedMap String (List String)
  raw : Option String
deriving DecidableEq

namespace Keywords

protected def empty : Keywords := ⟨none, [], [], [], [], ∅, none⟩

end Keywords

/-- The name for a match as a whole, or names for its capture groups. -/
inductive Scope where
  | simple (name : String)
  | indexed (groups : SortedMap UInt32 String)
deriving DecidableEq

inductive SubLanguage where
  | single (name : String)
  | multiple (names : List String)
deriving DecidableEq, Repr

structure Flags where
  excludeBegin : Bool
  excludeEnd : Bool
  returnBegin : Bool
  returnEnd : Bool
  endsWithParent : Bool
  endsParent : Bool
  skip : Bool
deriving DecidableEq, Repr

/-- What a mode is, apart from its name and its references. -/
structure Attributes where
  scope : Option String
  className : Option String
  opening : Option Pattern
  closing : Option Pattern
  whole : Option Pattern
  keywords : Option Keywords
  beginKeywords : Option String
  illegal : Option Pattern
  flags : Flags
  relevance : Option Int
  subLanguage : Option SubLanguage
  beginScope : Option Scope
  endScope : Option Scope
deriving DecidableEq

namespace Attributes

/-- The scope, or else the class name. -/
def scopeName (a : Attributes) : Option String := a.scope <|> a.className

end Attributes

variable {n : Nat}

/-- A reference among `n` modes: to the mode that holds it, or to a position. -/
inductive Ref (n : Nat) where
  | itself
  | mode (index : Fin n)
deriving DecidableEq, Repr

namespace Ref

/-- The other mode that a reference of `owner` leads to.  Naming one's own position is the same as
referring to oneself. -/
def target? (owner : Fin n) : Ref n → Option (Fin n)
  | .itself => none
  | .mode index => if index = owner then none else some index

/-- The mode that a reference of `owner` leads to. -/
def resolve (owner : Fin n) (ref : Ref n) : Fin n := (ref.target? owner).getD owner

end Ref

/-- The kinds of structural reference. -/
inductive Relation where
  | contains
  | variants
  | starts
deriving DecidableEq, Repr

namespace Relation

def name : Relation → String
  | .contains => "contains"
  | .variants => "variants"
  | .starts => "starts"

def all : List Relation := [.contains, .variants, .starts]

/-- The place of a kind among all kinds. -/
def rank : Relation → Nat
  | .contains => 0
  | .variants => 1
  | .starts => 2

theorem rank_injective {a b : Relation} (same : a.rank = b.rank) : a = b := by
  cases a <;> cases b <;> simp_all [rank]

end Relation

structure Mode (n : Nat) where
  id : String
  attributes : Attributes
  contains : List (Ref n)
  variants : List (Ref n)
  starts : Option (Ref n)
deriving DecidableEq

namespace Mode

/-- The references of one kind, in order. -/
def refs (mode : Mode n) : Relation → List (Ref n)
  | .contains => mode.contains
  | .variants => mode.variants
  | .starts => mode.starts.toList

end Mode

structure Language (n : Nat) where
  name : Option String
  aliases : List String
  disableAutodetect : Bool
  caseInsensitive : Bool
  unicodeRegex : Bool
  keywords : Option Keywords
  illegal : Option Pattern
  classNameAliases : SortedMap String String
  contains : List (Ref n)
deriving DecidableEq

abbrev Modes (n : Nat) : Type := Vector (Mode n) n

/-- A language together with the modes of its grammar. -/
structure Grammar where
  size : Nat
  version : Nat
  language : Language size
  modes : Modes size

namespace Grammar

/-- The position of the first mode with a name. -/
def lookup (grammar : Grammar) (id : String) : Option (Fin grammar.size) :=
  grammar.modes.findFinIdx? (·.id == id)

end Grammar

end HighlightGrammar
