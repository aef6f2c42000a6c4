import HighlightGrammar.Grammar.Validate
import HighlightGrammar.Proofs.Plan
import HighlightGrammar.Proofs.Quotation
import HighlightGrammar.Proofs.Targets

/-!
# Words of a grammar stay in their literals

Most texts of a grammar go into string literals and nowhere else.  `Grammar.Reworded` says of two grammars that
they differ in such texts only; then the files written for them differ only between quotes.  The identifiers of
modes and the names of the language and of its registration are written as code, so these must be safe.
-/

namespace HighlightGrammar

open Swift (Expr SameCode)

/-! ## Other words in the same places -/

/-- Another source. -/
structure Pattern.Reworded (p q : Pattern) : Prop where
  kind : p.kind = q.kind
  ignoreCase : p.ignoreCase = q.ignoreCase
  unicode : p.unicode = q.unicode

/-- Other words, as many in each category. -/
structure Keywords.Reworded (k l : Keywords) : Prop where
  pattern : Option.Rel Pattern.Reworded k.pattern l.pattern
  keyword : k.keyword.length = l.keyword.length
  literal : k.literal.length = l.literal.length
  builtIn : k.builtIn.length = l.builtIn.length
  type : k.type.length = l.type.length
  custom : List.Forall₂ (fun c d => c.1 = d.1 ∧ c.2.length = d.2.length) k.custom.entries l.custom.entries
  raw : k.raw = l.raw

/-- Other names for the same groups. -/
inductive Scope.Reworded : Scope → Scope → Prop where
  | simple (name other : String) : Reworded (.simple name) (.simple other)
  | indexed {groups others : SortedMap UInt32 String}
    (keys : List.Forall₂ (fun g h => g.1 = h.1) groups.entries others.entries) :
    Reworded (.indexed groups) (.indexed others)

inductive SubLanguage.Reworded : SubLanguage → SubLanguage → Prop where
  | single {name other : String} (present : name = "" ↔ other = "") : Reworded (.single name) (.single other)
  | multiple {names others : List String} (length : names.length = others.length) :
    Reworded (.multiple names) (.multiple others)

/-- The names of scopes on which more depends than what is written for them. -/
def specialNames : List String := ["string", "subst", "literal"]

/-- Another name for a scope, where neither is special. -/
def RenamedScope (name other : String) : Prop := name = other ∨ (name ∉ specialNames ∧ other ∉ specialNames)

structure Attributes.Reworded (a b : Attributes) : Prop where
  scope : Option.Rel RenamedScope a.scope b.scope
  className : Option.Rel RenamedScope a.className b.className
  opening : Option.Rel Pattern.Reworded a.opening b.opening
  closing : Option.Rel Pattern.Reworded a.closing b.closing
  whole : Option.Rel Pattern.Reworded a.whole b.whole
  keywords : Option.Rel Keywords.Reworded a.keywords b.keywords
  beginKeywords : a.beginKeywords = b.beginKeywords
  illegal : Option.Rel Pattern.Reworded a.illegal b.illegal
  flags : a.flags = b.flags
  relevance : a.relevance = b.relevance
  subLanguage : Option.Rel SubLanguage.Reworded a.subLanguage b.subLanguage
  beginScope : Option.Rel Scope.Reworded a.beginScope b.beginScope
  endScope : Option.Rel Scope.Reworded a.endScope b.endScope

variable {n : Nat}

structure Mode.Reworded (a b : Mode n) : Prop where
  id : a.id = b.id
  attributes : a.attributes.Reworded b.attributes
  contains : a.contains = b.contains
  variants : a.variants = b.variants
  starts : a.starts = b.starts

structure Language.Reworded (a b : Language n) : Prop where
  name : a.name.isSome = b.name.isSome
  aliases : a.aliases.length = b.aliases.length
  disableAutodetect : a.disableAutodetect = b.disableAutodetect
  caseInsensitive : a.caseInsensitive = b.caseInsensitive
  unicodeRegex : a.unicodeRegex = b.unicodeRegex
  keywords : Option.Rel Keywords.Reworded a.keywords b.keywords
  illegal : Option.Rel Pattern.Reworded a.illegal b.illegal
  classNameAliases : List.Forall₂ (fun c d => c.1 = d.1) a.classNameAliases.entries b.classNameAliases.entries
  contains : a.contains = b.contains

inductive Grammar.Reworded : Grammar → Grammar → Prop where
  | mk {n version : Nat} {language other : Language n} {modes others : Modes n}
    (sameLanguage : language.Reworded other)
    (sameModes : ∀ mode : Fin n, (modes.get mode).Reworded (others.get mode)) :
    Reworded ⟨n, version, language, modes⟩ ⟨n, version, other, others⟩

/-! ## Expressions that differ in literals -/

/-- Two expressions are written with the same code. -/
def Swift.Expr.Alike (e f : Expr) : Prop := SameCode e.render f.render

theorem optionRel_map {α β γ δ : Type} {r : α → β → Prop} {s : γ → δ → Prop} {f : α → γ} {g : β → δ}
    (maps : ∀ a b, r a b → s (f a) (g b)) {x : Option α} {y : Option β} (related : Option.Rel r x y) :
    Option.Rel s (x.map f) (y.map g) := by
  cases related with
  | some here => exact .some (maps _ _ here)
  | none => exact .none

theorem forall₂_of_length_eq {α β γ δ : Type} {r : γ → δ → Prop} {f : α → γ} {g : β → δ}
    (all : ∀ a b, r (f a) (g b)) {l : List α} {m : List β} (length : l.length = m.length) :
    List.Forall₂ r (l.map f) (m.map g) := by
  induction l generalizing m with
  | nil =>
    cases m with
    | nil => exact .nil
    | cons b m => cases length
  | cons a l ih =>
    cases m with
    | nil => cases length
    | cons b m => exact .cons (all a b) (ih (Nat.succ.inj length))

namespace Swift.Expr

namespace Alike

theorem atom {text : String} (plain : '"' ∉ text.toList) : Alike (.atom text) (.atom text) := by
  simp only [Alike, render]
  exact .unquoted plain

theorem literal (text other : String) : Alike (.literal text) (.literal other) := by
  simp only [Alike, render]
  exact .quote text other

theorem entry {key key' value value' : Expr} (first : Alike key key') (second : Alike value value') :
    Alike (.entry key value) (.entry key' value') := by
  simp only [Alike, render]
  exact (first.append (.unquoted (by decide))).append second

theorem renderAll {items others : List Expr} (same : List.Forall₂ Alike items others) :
    SameCode (", ".intercalate (renderAll items)) (", ".intercalate (Expr.renderAll others)) := by
  rw [renderAll_eq_map, renderAll_eq_map]
  exact .intercalate (by decide) (List.forall₂_map_left_iff.2 (List.forall₂_map_right_iff.2 same))

theorem list {items others : List Expr} (same : List.Forall₂ Alike items others) :
    Alike (.list items) (.list others) := by
  simp only [Alike, render]
  exact (SameCode.append (.unquoted (by decide)) (renderAll same)).append (.unquoted (by decide))

theorem call {callee : String} (plain : '"' ∉ callee.toList) {items others : List Expr}
    (same : List.Forall₂ Alike items others) : Alike (.call callee items) (.call callee others) := by
  simp only [Alike, render]
  exact ((SameCode.append (.unquoted plain) (.unquoted (by decide))).append (renderAll same)).append
    (.unquoted (by decide))

theorem wrap {callee : String} (plain : '"' ∉ callee.toList) {e f : Expr} (same : Alike e f) :
    Alike (.call callee [e]) (.call callee [f]) :=
  call plain (.cons same .nil)

/-! Optional parts are both there or both left out. -/

theorem nonEmptyList? {items others : List Expr} (same : List.Forall₂ Alike items others) :
    Option.Rel Alike (nonEmptyList? items) (Expr.nonEmptyList? others) := by
  cases same with
  | nil => exact .none
  | cons head tail => exact .some (list (.cons head tail))

theorem literals? {texts others : List String} (length : texts.length = others.length) :
    Option.Rel Alike (literals? texts) (Expr.literals? others) :=
  nonEmptyList? (forall₂_of_length_eq literal length)

theorem dictionary? {entries others : List (String × String)}
    (keys : List.Forall₂ (fun c d => c.1 = d.1) entries others) :
    Option.Rel Alike (dictionary? entries) (Expr.dictionary? others) := by
  apply nonEmptyList?
  apply List.rel_map _ keys
  intro c d same
  exact entry (literal c.1 d.1) (literal c.2 d.2)

theorem argument? {label : String} (plain : '"' ∉ label.toList) {value other : Option Expr}
    (same : Option.Rel Alike value other) : Option.Rel Alike (argument? label value) (Expr.argument? label other) := by
  apply optionRel_map _ same
  intro e f here
  exact entry (atom plain) here

theorem flag? {label : String} (plain : '"' ∉ label.toList) (value : Bool) :
    Option.Rel Alike (flag? label value) (Expr.flag? label value) := by
  cases value with
  | false => exact .none
  | true => exact .some (entry (atom plain) (atom (by decide)))

theorem filterMap_id {arguments others : List (Option Expr)} (same : List.Forall₂ (Option.Rel Alike) arguments others) :
    List.Forall₂ Alike (arguments.filterMap id) (others.filterMap id) :=
  List.rel_filterMap (fun _ _ here => here) same

end Alike

end Swift.Expr

/-! ## Attributes -/

open Swift.Expr (Alike)

theorem quote_notMem_repr (n : Nat) : '"' ∉ (toString n).toList := by
  intro member
  rw [Nat.toString_eq_repr, Nat.toList_repr] at member
  have digit := Nat.isDigit_of_mem_toDigits (by decide) (by decide) member
  exact absurd digit (by decide)

theorem quote_notMem_intRepr (i : Int) : '"' ∉ (toString i).toList := by
  cases i with
  | ofNat n => exact quote_notMem_repr n
  | negSucc n =>
    change '"' ∉ ("-" ++ toString (n + 1)).toList
    rw [String.toList_append, List.mem_append, not_or]
    exact ⟨by decide, quote_notMem_repr (n + 1)⟩

theorem Pattern.alike (p q : Pattern) : Alike p.expr q.expr := .wrap (by decide) (.literal _ _)

theorem Scope.Reworded.alike {s t : Scope} (reworded : s.Reworded t) : Alike s.expr t.expr := by
  cases reworded with
  | simple name other => exact .wrap (by decide) (.literal name other)
  | indexed keys =>
    apply Alike.wrap (by decide)
    apply Alike.list
    apply List.rel_map _ keys
    rintro ⟨group, name⟩ ⟨_, other⟩ rfl
    exact .entry (.atom (quote_notMem_repr _)) (.literal name other)

theorem SubLanguage.Reworded.alike {s t : SubLanguage} (reworded : s.Reworded t) :
    Option.Rel Alike s.expr? t.expr? := by
  cases reworded with
  | @single name other present =>
    by_cases empty : name = ""
    · rw [expr?, expr?, if_pos empty, if_pos (present.1 empty)]
      exact .none
    · rw [expr?, expr?, if_neg empty, if_neg fun also => empty (present.2 also)]
      exact .some (.wrap (by decide) (.literal name other))
  | multiple length =>
    apply optionRel_map _ (Alike.literals? length)
    intro e f here
    exact .wrap (by decide) here

theorem Keywords.Reworded.customEntries {k l : Keywords} (reworded : k.Reworded l) :
    List.Forall₂ Alike k.customEntries l.customEntries := by
  apply List.rel_filterMap _ reworded.custom
  rintro c d ⟨-, length⟩
  apply optionRel_map _ (Alike.literals? length)
  intro e f here
  exact .entry (.literal c.1 d.1) here

theorem Keywords.Reworded.arguments {k l : Keywords} (reworded : k.Reworded l) :
    List.Forall₂ Alike k.arguments l.arguments := by
  have all : k.allKeywords.length = l.allKeywords.length := by
    rw [allKeywords, allKeywords, List.length_append, List.length_append, reworded.keyword, reworded.raw]
  apply Alike.filterMap_id
  simp only [List.forall₂_cons, List.forall₂_nil_left_iff, and_true]
  refine ⟨?_, ?_, ?_, ?_, ?_, ?_⟩
  · exact Alike.argument? (by decide) (optionRel_map (fun p q _ => p.alike q) reworded.pattern)
  · exact Alike.argument? (by decide) (Alike.literals? all)
  · exact Alike.argument? (by decide) (Alike.literals? reworded.literal)
  · exact Alike.argument? (by decide) (Alike.literals? reworded.builtIn)
  · exact Alike.argument? (by decide) (Alike.literals? reworded.type)
  · exact Alike.argument? (by decide) (Alike.nonEmptyList? reworded.customEntries)

theorem Keywords.Reworded.alike {k l : Keywords} (reworded : k.Reworded l) : Alike k.expr l.expr := by
  have same := reworded.arguments
  rw [expr, expr]
  cases arguments : k.arguments with
  | nil =>
    rw [arguments, List.forall₂_nil_left_iff] at same
    rw [same]
    exact .call (by decide) .nil
  | cons first rest =>
    rw [arguments] at same
    cases others : l.arguments with
    | nil => simp [others] at same
    | cons otherFirst otherRest =>
      rw [others] at same
      exact .call (by decide) same

namespace RenamedScope

variable {scope other : Option String} (renamed : Option.Rel RenamedScope scope other)

include renamed

/-- A special name is there in both or in neither. -/
theorem eq_some_iff (name : String) (special : name ∈ specialNames) : scope = some name ↔ other = some name := by
  cases renamed with
  | none => exact Iff.rfl
  | some here =>
    simp only [Option.some.injEq]
    cases here with
    | inl same => rw [same]
    | inr ordinary =>
      constructor
      · rintro rfl
        exact absurd special ordinary.1
      · rintro rfl
        exact absurd special ordinary.2

theorem literal : Option.Rel Alike (scope.map .literal) (other.map .literal) :=
  optionRel_map (fun a b _ => .literal a b) renamed

end RenamedScope

namespace Attributes.Reworded

variable {a b : Attributes} (reworded : a.Reworded b)

include reworded

theorem scopeName : Option.Rel RenamedScope a.scopeName b.scopeName := by
  have scope := reworded.scope
  rw [Attributes.scopeName, Attributes.scopeName]
  cases first : a.scope with
  | none =>
    rw [first] at scope
    cases second : b.scope with
    | none => exact reworded.className
    | some name => rw [second] at scope; cases scope
  | some name =>
    rw [first] at scope
    cases second : b.scope with
    | none => rw [second] at scope; cases scope
    | some other => rw [second] at scope; exact scope

theorem canonicalRank : a.canonicalRank = b.canonicalRank := by
  have forStrings := RenamedScope.eq_some_iff reworded.scopeName "string" (by decide)
  have forSubstitutions := RenamedScope.eq_some_iff reworded.scopeName "subst" (by decide)
  rw [Attributes.canonicalRank, Attributes.canonicalRank]
  exact if_congr forStrings rfl (if_congr forSubstitutions rfl rfl)

theorem isLiteral : a.isLiteral = b.isLiteral := by
  have scope := RenamedScope.eq_some_iff reworded.scope "literal" (by decide)
  have className := RenamedScope.eq_some_iff reworded.className "literal" (by decide)
  rw [Bool.eq_iff_iff, Attributes.isLiteral, Attributes.isLiteral]
  simp only [Bool.or_eq_true, beq_iff_eq, scope, className]

theorem keywordsExpr? : Option.Rel Alike a.keywordsExpr? b.keywordsExpr? := by
  have keywords := reworded.keywords
  rw [Attributes.keywordsExpr?, Attributes.keywordsExpr?]
  cases first : a.keywords with
  | some k =>
    cases second : b.keywords with
    | none => rw [first, second] at keywords; cases keywords
    | some l =>
      rw [first, second] at keywords
      cases keywords with
      | some here => exact .some here.alike
  | none =>
    cases second : b.keywords with
    | some l => rw [first, second] at keywords; cases keywords
    | none =>
      -- The words that begin a mode are the same, so nothing is left to compare but the scopes.
      simp only [reworded.isLiteral, reworded.beginKeywords]
      split
      · apply optionRel_map _ (Alike.literals? rfl)
        intro e f here
        exact .wrap (by decide) (.entry (.atom (by decide)) here)
      · exact .none

theorem arguments {links others : Links} (contains : Option.Rel Alike links.contains others.contains)
    (variants : Option.Rel Alike links.variants others.variants)
    (starts : Option.Rel Alike links.starts others.starts) :
    List.Forall₂ Alike (a.arguments links) (b.arguments others) := by
  have pattern {p q : Option Pattern} (same : Option.Rel Pattern.Reworded p q) :
      Option.Rel Alike (p.map (·.expr)) (q.map (·.expr)) := optionRel_map (fun p q _ => p.alike q) same
  have scope {s t : Option Scope} (same : Option.Rel Scope.Reworded s t) :
      Option.Rel Alike (s.map (·.expr)) (t.map (·.expr)) := optionRel_map (fun _ _ here => here.alike) same
  have relevance : Option.Rel Alike (a.relevance.map fun r => .atom (toString r))
      (b.relevance.map fun r => .atom (toString r)) := by
    rw [← reworded.relevance]
    cases a.relevance with
    | none => exact .none
    | some r => exact .some (.atom (quote_notMem_intRepr r))
  have subLanguage : Option.Rel Alike (a.subLanguage.bind (·.expr?)) (b.subLanguage.bind (·.expr?)) := by
    have same := reworded.subLanguage
    revert same
    generalize a.subLanguage = s, b.subLanguage = t
    intro same
    cases same with
    | none => exact .none
    | some here => exact here.alike
  have beginKeywords : Option.Rel Alike (a.beginKeywords.map .literal) (b.beginKeywords.map .literal) := by
    rw [← reworded.beginKeywords]
    cases a.beginKeywords with
    | none => exact .none
    | some words => exact .some (.literal words words)
  apply Alike.filterMap_id
  simp only [List.forall₂_cons, List.forall₂_nil_left_iff, and_true, reworded.flags]
  refine ⟨?_, ?_, ?_, ?_, ?_, ?_, ?_, ?_, ?_, ?_, ?_, ?_, ?_, ?_, ?_, ?_, ?_, ?_, ?_, ?_, ?_, ?_⟩
  · exact Alike.argument? (by decide) (RenamedScope.literal reworded.scope)
  · exact Alike.argument? (by decide) (RenamedScope.literal reworded.className)
  · exact Alike.argument? (by decide) (pattern reworded.opening)
  · exact Alike.argument? (by decide) (pattern reworded.closing)
  · exact Alike.argument? (by decide) (pattern reworded.whole)
  · exact Alike.argument? (by decide) reworded.keywordsExpr?
  · exact Alike.argument? (by decide) (pattern reworded.illegal)
  · exact Alike.argument? (by decide) contains
  · exact Alike.argument? (by decide) variants
  · exact Alike.argument? (by decide) relevance
  · exact Alike.flag? (by decide) _
  · exact Alike.flag? (by decide) _
  · exact Alike.flag? (by decide) _
  · exact Alike.flag? (by decide) _
  · exact Alike.flag? (by decide) _
  · exact Alike.flag? (by decide) _
  · exact Alike.flag? (by decide) _
  · exact Alike.argument? (by decide) subLanguage
  · exact Alike.argument? (by decide) (scope reworded.beginScope)
  · exact Alike.argument? (by decide) (scope reworded.endScope)
  · exact Alike.argument? (by decide) starts
  · exact Alike.argument? (by decide) beginKeywords

/-- What is written for a mode with some parts. -/
theorem alike {contains contains' variants variants' : List Expr} {starts starts' : Option Expr}
    (first : List.Forall₂ Alike contains contains') (second : List.Forall₂ Alike variants variants')
    (third : Option.Rel Alike starts starts') :
    Alike (a.expr (.ofParts contains variants starts)) (b.expr (.ofParts contains' variants' starts')) := by
  apply Alike.call (by decide)
  apply reworded.arguments
  · exact Alike.nonEmptyList? first
  · apply optionRel_map _ (Alike.nonEmptyList? second)
    intro e f here
    exact .wrap (by decide) here
  · apply optionRel_map _ third
    intro e f here
    exact .wrap (by decide) here

theorem alike_none : Alike (a.expr .none) (b.expr .none) :=
  .call (by decide) (reworded.arguments .none .none .none)

end Attributes.Reworded

/-! ## Declarations and files -/

theorem quote_notMem_of_safe {text : String} (safe : Grammar.isIdentifierSafe text = true) : '"' ∉ text.toList := by
  intro member
  have allowed := List.all_eq_true.1 safe _ member
  exact absurd allowed (by decide)

section Files

variable {modes others : Modes n} (reworded : ∀ mode : Fin n, (modes.get mode).Reworded (others.get mode))

include reworded

theorem Modes.sameTargets_of_reworded : modes.SameTargets others := by
  intro owner relation
  have same := reworded owner
  cases relation with
  | contains => rw [Mode.refs, Mode.refs, same.contains]
  | variants => rw [Mode.refs, Mode.refs, same.variants]
  | starts => rw [Mode.refs, Mode.refs, same.starts]

theorem Plan.ofModes_reworded : ofModes modes = ofModes others :=
  ofModes_congr (Modes.sameTargets_of_reworded reworded) fun mode => (reworded mode).attributes.canonicalRank

variable (safe : ∀ mode : Fin n, '"' ∉ (modes.get mode).declaredName.toList)

include safe

theorem Expansion.alike (e : Expansion n) : Alike (e.expr modes) (e.expr others) := by
  induction e using induction with
  | itself =>
    rw [expr, expr]
    exact .atom (by decide)
  | named mode =>
    rw [expr, expr, Mode.declaredName, Mode.declaredName, ← (reworded mode).id]
    exact .atom (safe mode)
  | shallow mode =>
    rw [expr, expr]
    exact (reworded mode).attributes.alike_none
  | full mode contains variants starts ih =>
    rw [expr, expr, memberExprs_eq_map, memberExprs_eq_map, exprs_eq_map, exprs_eq_map]
    apply (reworded mode).attributes.alike
    · rw [List.forall₂_map_left_iff, List.forall₂_map_right_iff, List.forall₂_same]
      intro part member
      have below := ih .contains part member
      cases part with
      | itself => exact .atom (by decide)
      | named _ | shallow _ | full _ _ _ _ => exact .wrap (by decide) below
    · rw [List.forall₂_map_left_iff, List.forall₂_map_right_iff, List.forall₂_same]
      exact ih .variants
    · cases starts with
      | none => exact .none
      | some part => exact .some (ih .starts part (by simp [parts]))

theorem Language.Reworded.arguments {language other : Language n} (same : language.Reworded other) (lang : String) :
    List.Forall₂ Alike (language.arguments modes lang) (other.arguments others lang) := by
  have member (ref : Ref n) : Alike (memberExpr modes ref) (memberExpr others ref) := by
    cases ref with
    | itself => exact .atom (by decide)
    | mode index =>
      rw [memberExpr, memberExpr, Mode.declaredName, Mode.declaredName, ← (reworded index).id]
      exact .wrap (by decide) (.atom (safe index))
  apply Alike.filterMap_id
  simp only [List.forall₂_cons, List.forall₂_nil_left_iff, and_true, same.disableAutodetect, same.caseInsensitive,
    same.unicodeRegex, same.contains]
  refine ⟨?_, ?_, ?_, ?_, ?_, ?_, ?_, ?_, ?_⟩
  · exact .some (.entry (.atom (by decide)) (.literal _ _))
  · exact Alike.argument? (by decide) (Alike.literals? same.aliases)
  · exact Alike.flag? (by decide) _
  · exact Alike.flag? (by decide) _
  · exact Alike.flag? (by decide) _
  · exact Alike.argument? (by decide) (optionRel_map (fun _ _ here => here.alike) same.keywords)
  · exact Alike.argument? (by decide) (optionRel_map (fun p q _ => p.alike q) same.illegal)
  · apply Alike.argument? (by decide)
    apply Alike.nonEmptyList?
    rw [List.forall₂_map_left_iff, List.forall₂_map_right_iff, List.forall₂_same]
    exact fun ref _ => member ref
  · exact Alike.argument? (by decide) (Alike.dictionary? same.classNameAliases)

end Files

namespace Swift

theorem SameCode.argumentLines {arguments others : List String} (same : List.Forall₂ SameCode arguments others) :
    List.Forall₂ SameCode (argumentLines arguments) (Swift.argumentLines others) := by
  induction same with
  | nil => exact .nil
  | @cons argument other arguments others head tail ih =>
    cases tail with
    | nil => exact .cons (.append (.unquoted (by decide)) head) .nil
    | cons next tail =>
      exact .cons ((SameCode.append (.unquoted (by decide)) head).append (.unquoted (by decide))) ih

variable {modes others : Modes n}

theorem sameCode_declarationLines (reworded : ∀ mode : Fin n, (modes.get mode).Reworded (others.get mode))
    (safe : ∀ mode : Fin n, '"' ∉ (modes.get mode).declaredName.toList) (breaks : BreakSet) (mode : Fin n) :
    List.Forall₂ SameCode (declarationLines modes breaks mode) (declarationLines others breaks mode) := by
  have targets := Modes.sameTargets_of_reworded reworded
  have named : (others.get mode).declaredName = (modes.get mode).declaredName := by
    rw [Mode.declaredName, Mode.declaredName, (reworded mode).id]
  have declared : SameCode (declarationText modes breaks mode) (declarationText others breaks mode) := by
    rw [declarationText, declarationText, Expansion.declaration_congr targets]
    exact Expansion.alike reworded safe _
  rw [declarationLines, declarationLines, named]
  refine .cons ?_ (.cons (.unquoted (by decide)) .nil)
  exact ((SameCode.append (.unquoted (by decide)) (.unquoted (safe mode))).append
    (.unquoted (by decide))).append declared

/-- Other words in a grammar leave the code of its file as it is. -/
theorem sameCode_fileText {grammar other : Grammar} (reworded : grammar.Reworded other)
    (ids : ∀ mode : Fin grammar.size, Grammar.isIdentifierSafe (grammar.modes.get mode).id = true)
    {lang register : String} (safeLang : Grammar.isIdentifierSafe lang = true)
    (safeRegister : Grammar.isIdentifierSafe register = true) :
    SameCode (fileText grammar (Plan.ofModes grammar.modes) lang register)
      (fileText other (Plan.ofModes other.modes) lang register) := by
  cases reworded with
  | @mk n version language otherLanguage modes others sameLanguage sameModes =>
  have safe : ∀ mode : Fin n, '"' ∉ (modes.get mode).declaredName.toList := by
    intro mode
    rw [Mode.declaredName, String.toList_append, List.mem_append, not_or]
    exact ⟨by decide, quote_notMem_of_safe (ids mode)⟩
  have plan : Plan.ofModes modes = Plan.ofModes others := Plan.ofModes_reworded sameModes
  have plainLang : SameCode lang lang := .unquoted (quote_notMem_of_safe safeLang)
  have plainRegister : SameCode register register := .unquoted (quote_notMem_of_safe safeRegister)
  apply SameCode.intercalate (by decide)
  simp only [fileLines, plan]
  -- Line by line: what opens the function, the declarations, the language, and what registers it.
  refine List.rel_append (List.rel_append (List.rel_append (List.rel_append ?opening ?declarations) ?call)
    ?arguments) ?registration
  case opening =>
    refine .cons (.unquoted (by decide)) (.cons (.unquoted (by decide)) (.cons ?_ .nil))
    exact (SameCode.append (.unquoted (by decide)) plainLang).append (.unquoted (by decide))
  case declarations =>
    have same : List.Forall₂ Eq (Plan.ofModes others).schedule.order (Plan.ofModes others).schedule.order :=
      List.forall₂_refl _
    apply List.rel_flatMap same
    rintro mode _ rfl
    exact sameCode_declarationLines sameModes safe _ mode
  case call => exact .cons (.unquoted (by decide)) .nil
  case arguments =>
    apply SameCode.argumentLines
    rw [List.forall₂_map_left_iff, List.forall₂_map_right_iff]
    exact Language.Reworded.arguments sameModes safe sameLanguage lang
  case registration =>
    have registers : SameCode ("    func register" ++ register ++ "() \x7b")
        ("    func register" ++ register ++ "() \x7b") :=
      (SameCode.append (.unquoted (by decide)) plainRegister).append (.unquoted (by decide))
    have returns : SameCode
        ("        registerLanguage(" ++ quote lang ++ ") \x7b hljs in " ++ lang ++ "Language(hljs) \x7d")
        ("        registerLanguage(" ++ quote lang ++ ") \x7b hljs in " ++ lang ++ "Language(hljs) \x7d") :=
      (((SameCode.append (.unquoted (by decide)) (.quote lang lang)).append (.unquoted (by decide))).append
        plainLang).append (.unquoted (by decide))
    refine .cons (.unquoted (by decide)) (.cons (.unquoted (by decide)) (.cons (.unquoted (by decide))
      (.cons (.unquoted (by decide)) (.cons registers (.cons returns ?_)))))
    exact .cons (.unquoted (by decide)) (.cons (.unquoted (by decide)) (.cons (.unquoted (by decide)) .nil))

/-- The files for two grammars that differ in words have the same skeleton, and there is one: no word ends the
literal in which it stands. -/
theorem skeleton_render_reworded (grammar other : Grammar) (target : Target) (reworded : grammar.Reworded other)
    (ids : ∀ mode : Fin grammar.size, Grammar.isIdentifierSafe (grammar.modes.get mode).id = true)
    (lang : Grammar.isIdentifierSafe target.lang = true)
    (register : Grammar.isIdentifierSafe target.register = true) :
    ∃ text otherText code, target.render grammar (Plan.ofModes grammar.modes) = .ok text ∧
      target.render other (Plan.ofModes other.modes) = .ok otherText ∧
      skeleton text.toList = some code ∧ skeleton otherText.toList = some code := by
  obtain ⟨code, scans, otherScans⟩ := sameCode_fileText reworded ids lang register
  exact ⟨_, _, code, target.render_ofModes grammar, target.render_ofModes other, scans.skeleton_eq,
    otherScans.skeleton_eq⟩

/-- A language with one mode, and three texts of its choice. -/
def sampleGrammar (source word name : String) : Grammar where
  size := 1
  version := 1
  language :=
    { name := some name
      aliases := [word]
      disableAutodetect := false
      caseInsensitive := false
      unicodeRegex := false
      keywords := none
      illegal := none
      classNameAliases := ∅
      contains := [.mode 0] }
  modes :=
    #v[{ id := "text"
         attributes :=
           { Attributes.scoped name with
             opening := some ⟨.regex, source, true, false⟩
             keywords := some { Keywords.empty with keyword := [word, word] } }
         contains := [.itself]
         variants := [.itself]
         starts := none }]

/-- Quotes, backslashes, line ends and the start of an interpolation. -/
theorem skeleton_render_hostile_words :
    let grammar := sampleGrammar "a+" "b" "c"
    let other := sampleGrammar "\\" "\"), run(\\(x" "\r\n\"] //"
    let target : Target := ⟨"demo", "Demo", true⟩
    ∃ text otherText code, target.render grammar (Plan.ofModes grammar.modes) = .ok text ∧
      target.render other (Plan.ofModes other.modes) = .ok otherText ∧
      skeleton text.toList = some code ∧ skeleton otherText.toList = some code := by
  intro grammar other target
  have language : grammar.language.Reworded other.language :=
    ⟨rfl, rfl, rfl, rfl, rfl, .none, .none, .nil, rfl⟩
  have attributes : (grammar.modes.get (0 : Fin 1)).attributes.Reworded (other.modes.get (0 : Fin 1)).attributes :=
    ⟨.some (.inr (by decide)), .none, .some ⟨rfl, rfl, rfl⟩, .none, .none, .some ⟨.none, rfl, rfl, rfl, rfl, .nil, rfl⟩,
      rfl, .none, rfl, rfl, .none, .none, .none⟩
  have modes : ∀ mode : Fin 1, (grammar.modes.get mode).Reworded (other.modes.get mode) := by
    intro mode
    rw [Subsingleton.elim mode 0]
    exact ⟨rfl, attributes, rfl, rfl, rfl⟩
  have ids : ∀ mode : Fin 1, Grammar.isIdentifierSafe (grammar.modes.get mode).id = true := by decide
  exact skeleton_render_reworded grammar other target (.mk language modes) ids (by decide) (by decide)

end Swift

end HighlightGrammar
