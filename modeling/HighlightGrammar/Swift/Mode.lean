import HighlightGrammar.Grammar.Basic
import HighlightGrammar.Grammar.Bracket
import HighlightGrammar.Grammar.Weight
import HighlightGrammar.Swift.Expr

/-!
# Attributes as Swift expressions

Patterns, keywords, scopes and the call that makes a mode out of them.  What is absent or empty is left
out of a call.
-/

namespace HighlightGrammar

open Swift (Expr)

namespace Pattern

/-- The source in the target dialect.  That case does not matter is said in the source. -/
def foldedSource (p : Pattern) : String :=
  if p.ignoreCase then "(?i)" ++ sanitizeSource p.source else sanitizeSource p.source

def expr (p : Pattern) : Expr := .call "HLJS.re" [.literal p.foldedSource]

end Pattern

namespace Keywords

/-- The plain keywords, followed by those of the raw text. -/
def allKeywords (k : Keywords) : List String := k.keyword ++ (k.raw.map plainWords).getD []

/-- The custom categories that have words. -/
def customEntries (k : Keywords) : List Expr :=
  k.custom.entries.filterMap fun e => (Expr.literals? e.2).map (.entry (.literal e.1))

def arguments (k : Keywords) : List Expr :=
  [Expr.argument? "pattern" (k.pattern.map (·.expr)),
    Expr.argument? "keyword" (Expr.literals? k.allKeywords),
    Expr.argument? "literal" (Expr.literals? k.literal),
    Expr.argument? "builtIn" (Expr.literals? k.builtIn),
    Expr.argument? "type" (Expr.literals? k.type),
    Expr.argument? "custom" (Expr.nonEmptyList? k.customEntries)].filterMap id

def expr (k : Keywords) : Expr :=
  if k.arguments.isEmpty then .call "Keywords" [] else .call "HLJS.kw" k.arguments

end Keywords

namespace Scope

def expr : Scope → Expr
  | .simple name => .call "Scope.simple" [.literal name]
  | .indexed groups =>
    .call "Scope.indexed" [.list (groups.entries.map fun e => .entry (.atom (toString e.1.toNat)) (.literal e.2))]

end Scope

namespace SubLanguage

def expr? : SubLanguage → Option Expr
  | .single name => if name = "" then none else some (.call "SubLanguage.single" [.literal name])
  | .multiple names => (Expr.literals? names).map fun list => .call "SubLanguage.multiple" [list]

end SubLanguage

/-- The structural arguments of a mode, ready to be put into the call. -/
structure Links where
  contains : Option Expr
  variants : Option Expr
  starts : Option Expr

namespace Links

protected def none : Links := ⟨.none, .none, .none⟩

def ofParts (contains variants : List Expr) (starts : Option Expr) : Links where
  contains := Expr.nonEmptyList? contains
  variants := (Expr.nonEmptyList? variants).map fun list => .call "HLJS.variants" [list]
  starts := starts.map fun e => .call "ModeBox" [e]

end Links

namespace Attributes

/-- Whether the mode marks up literals. -/
def isLiteral (a : Attributes) : Bool := a.scope == some "literal" || a.className == some "literal"

/-- The keywords of a mode.  A mode for literals without any has the words that begin it. -/
def keywordsExpr? (a : Attributes) : Option Expr :=
  match a.keywords with
  | some k => some k.expr
  | none =>
    if a.isLiteral then
      (Expr.literals? ((a.beginKeywords.map plainWords).getD [])).map fun list =>
        .call "HLJS.kw" [.entry (.atom "keyword") list]
    else none

def arguments (a : Attributes) (links : Links) : List Expr :=
  [Expr.argument? "scope" (a.scope.map .literal),
    Expr.argument? "className" (a.className.map .literal),
    Expr.argument? "begin" (a.opening.map (·.expr)),
    Expr.argument? "end" (a.closing.map (·.expr)),
    Expr.argument? "match" (a.whole.map (·.expr)),
    Expr.argument? "keywords" a.keywordsExpr?,
    Expr.argument? "illegal" (a.illegal.map (·.expr)),
    Expr.argument? "contains" links.contains,
    Expr.argument? "variants" links.variants,
    Expr.argument? "relevance" (a.relevance.map fun r => .atom (toString r)),
    Expr.flag? "excludeBegin" a.flags.excludeBegin,
    Expr.flag? "excludeEnd" a.flags.excludeEnd,
    Expr.flag? "returnBegin" a.flags.returnBegin,
    Expr.flag? "returnEnd" a.flags.returnEnd,
    Expr.flag? "endsWithParent" a.flags.endsWithParent,
    Expr.flag? "endsParent" a.flags.endsParent,
    Expr.flag? "skip" a.flags.skip,
    Expr.argument? "subLanguage" (a.subLanguage.bind (·.expr?)),
    Expr.argument? "beginScope" (a.beginScope.map (·.expr)),
    Expr.argument? "endScope" (a.endScope.map (·.expr)),
    Expr.argument? "starts" links.starts,
    Expr.argument? "beginKeywords" (a.beginKeywords.map .literal)].filterMap id

def expr (a : Attributes) (links : Links) : Expr := .call "Mode" (a.arguments links)

end Attributes

end HighlightGrammar
