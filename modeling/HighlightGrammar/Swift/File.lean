import HighlightGrammar.Graph.Plan
import HighlightGrammar.Swift.Expansion

/-!
# Swift files

A file declares a function that returns the language, with one constant for each mode in the planned
order, and an extension that registers it.
-/

namespace HighlightGrammar

open Swift (Expr)

variable {n : Nat}

/-- A mode that the language contains. -/
def Language.memberExpr (modes : Modes n) : Ref n → Expr
  | .itself => .atom ".self"
  | .mode index => .call ".mode" [.atom (modes.get index).declaredName]

/-- The arguments of the call that makes the language.  One without a name is named by its identifier. -/
def Language.arguments (language : Language n) (modes : Modes n) (lang : String) : List Expr :=
  [some (.entry (.atom "name") (.literal (language.name.getD lang))),
    Expr.argument? "aliases" (Expr.literals? language.aliases),
    Expr.flag? "disableAutodetect" language.disableAutodetect,
    Expr.flag? "caseInsensitive" language.caseInsensitive,
    Expr.flag? "unicodeRegex" language.unicodeRegex,
    Expr.argument? "keywords" (language.keywords.map (·.expr)),
    Expr.argument? "illegal" (language.illegal.map (·.expr)),
    Expr.argument? "contains" (Expr.nonEmptyList? (language.contains.map (memberExpr modes))),
    Expr.argument? "classNameAliases"
      (Expr.dictionary? language.classNameAliases.entries)].filterMap id

namespace Swift

/-- The lines for the arguments of a call, with a comma after each but the last. -/
def argumentLines : List String → List String
  | [] => []
  | [last] => ["        " ++ last]
  | first :: rest => ("        " ++ first ++ ",") :: argumentLines rest

/-- The expression that declares a mode. -/
def declarationText (modes : Modes n) (breaks : BreakSet) (mode : Fin n) : String :=
  ((Expansion.declaration modes breaks mode).expr modes).render

/-- The lines that declare a mode. -/
def declarationLines (modes : Modes n) (breaks : BreakSet) (mode : Fin n) : List String :=
  ["    let " ++ (modes.get mode).declaredName ++ " = " ++ declarationText modes breaks mode, ""]

/-- The lines of a file. -/
def fileLines (grammar : Grammar) (plan : Plan grammar.size) (lang register : String) : List String :=
  ["import Foundation", "", "public func " ++ lang ++ "Language(_ hljs: Highlight) -> Language \x7b"] ++
    plan.schedule.order.flatMap (declarationLines grammar.modes plan.breaks) ++
    ["    return Language("] ++
    argumentLines ((grammar.language.arguments grammar.modes lang).map (·.render)) ++
    ["    )", "\x7d", "", "public extension Highlight \x7b", "    func register" ++ register ++ "() \x7b",
      "        registerLanguage(" ++ quote lang ++ ") \x7b hljs in " ++ lang ++ "Language(hljs) \x7d",
      "    \x7d", "\x7d", ""]

/-- The text of a file. -/
def fileText (grammar : Grammar) (plan : Plan grammar.size) (lang register : String) : String :=
  "\n".intercalate (fileLines grammar plan lang register)

end Swift

end HighlightGrammar
