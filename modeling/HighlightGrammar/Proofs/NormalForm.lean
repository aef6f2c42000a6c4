import HighlightGrammar.Proofs.Collections
import HighlightGrammar.Proofs.Patterns
import HighlightGrammar.Proofs.Reading
import Mathlib.Data.Option.Basic

/-!
# Normal forms of attributes

Different attributes may be written the same: what is empty is left out, raw words are appended to the plain ones, and
a pattern is written in the target dialect.  The normal form of attributes forgets exactly these differences.

`NormalForm.call` is the call that makes a mode, said without the writer: it has an argument for each attribute and one
for the references of each kind.  The labels are all different, so the arguments that are there tell which are absent.
The call tells both the attributes and what was written for the references, and its text can be read back by
`Swift.Expr.render_injective`.
-/

namespace HighlightGrammar

open Swift (Expr)
open Swift.Expr (IsItem IsValue isDelimiter isWord)

/-! ## Labelled arguments -/

/-- The arguments of a call that have values, with their labels. -/
def labelled (fields : List (String × Option Expr)) : List Expr :=
  fields.filterMap fun field => field.2.map (.entry (.atom field.1))

theorem label_mem_of_mem_labelled {fields : List (String × Option Expr)} {label : String} {value : Expr}
    (member : .entry (.atom label) value ∈ labelled fields) : label ∈ fields.map Prod.fst := by
  obtain ⟨field, fieldMember, given⟩ := List.mem_filterMap.1 member
  obtain ⟨found, -, same⟩ := Option.map_eq_some_iff.1 given
  cases same
  exact List.mem_map_of_mem fieldMember

section Labels

variable {labels : List String} {fields others : List (String × Option Expr)}

/-- Where the labels are all different, the arguments that are written say what every field was. -/
theorem eq_of_labelled_eq (distinct : labels.Nodup) (first : fields.map Prod.fst = labels)
    (second : others.map Prod.fst = labels) (same : labelled fields = labelled others) : fields = others := by
  induction labels generalizing fields others with
  | nil => rw [List.map_eq_nil_iff.1 first, List.map_eq_nil_iff.1 second]
  | cons label labels ih =>
    obtain ⟨⟨name, value⟩, moreFields, rfl, nameIs, firstRest⟩ := List.map_eq_cons_iff.1 first
    obtain ⟨⟨otherName, otherValue⟩, moreOthers, rfl, otherIs, secondRest⟩ := List.map_eq_cons_iff.1 second
    obtain rfl : name = label := nameIs
    obtain rfl : otherName = name := otherIs
    obtain ⟨fresh, distinctRest⟩ := List.nodup_cons.1 distinct
    -- An argument with the first label cannot come from a later field: the label does not occur again.
    cases value with
    | none =>
      cases otherValue with
      | none => rw [ih distinctRest firstRest secondRest same]
      | some found =>
        have late : .entry (.atom otherName) found ∈ labelled moreFields := by
          rw [show labelled moreFields = _ from same]
          exact List.mem_cons_self
        rw [← firstRest] at fresh
        exact absurd (label_mem_of_mem_labelled late) fresh
    | some value =>
      cases otherValue with
      | none =>
        have late : .entry (.atom otherName) value ∈ labelled moreOthers := by
          rw [show labelled moreOthers = _ from same.symm]
          exact List.mem_cons_self
        rw [← secondRest] at fresh
        exact absurd (label_mem_of_mem_labelled late) fresh
      | some found =>
        obtain ⟨sameValue, sameRest⟩ := List.cons.inj same
        cases sameValue
        rw [ih distinctRest firstRest secondRest sameRest]

theorem isItem_labelled {depth : Nat} (words : labels.all isWord = true) (labelsOf : fields.map Prod.fst = labels)
    (values : ∀ field ∈ fields, ∀ value ∈ field.2, IsValue (depth + 1) value) :
    ∀ argument ∈ labelled fields, IsItem (IsValue (depth + 1)) argument := by
  intro argument member
  obtain ⟨field, fieldMember, given⟩ := List.mem_filterMap.1 member
  obtain ⟨value, present, rfl⟩ := Option.map_eq_some_iff.1 given
  have label : isWord field.1 = true :=
    List.all_eq_true.1 words _ (labelsOf ▸ List.mem_map_of_mem fieldMember)
  exact .inr ⟨_, value, rfl, label, values field fieldMember value present⟩

end Labels

/-! ## Parts of expressions -/

section Parts

variable {depth : Nat}

theorem isDelimiter_of_isDigit {c : Char} (digit : c.isDigit = true) : isDelimiter c = false := by
  apply Bool.eq_false_iff.2
  intro delimiter
  simp only [isDelimiter, List.contains_iff_mem, List.mem_cons, List.not_mem_nil, or_false] at delimiter
  rcases delimiter with rfl | rfl | rfl | rfl | rfl | rfl | rfl <;> exact absurd digit (by decide)

theorem isWord_toString (n : Nat) : isWord (toString n) = true := by
  have nonEmpty : (Nat.toDigits 10 n).isEmpty = false := by
    rw [← Nat.toList_repr]
    simp
  have digits : ∀ c ∈ Nat.toDigits 10 n, isDelimiter c = false := fun c member =>
    isDelimiter_of_isDigit (Nat.isDigit_of_mem_toDigits (by decide) (by decide) member)
  rw [Nat.toString_eq_repr, isWord, Nat.toList_repr, nonEmpty]
  simpa using digits

theorem isWord_intToString (i : Int) : isWord (toString i) = true := by
  cases i with
  | ofNat n => exact isWord_toString n
  | negSucc n =>
    have digits := isWord_toString (n + 1)
    change isWord ("-" ++ toString (n + 1)) = true
    simp only [isWord, Bool.and_eq_true] at digits ⊢
    rw [String.toList_append, List.all_append, digits.2]
    exact ⟨by simp, by decide⟩

theorem literal_injective : Function.Injective Expr.literal := by
  intro text other same
  cases same
  rfl

theorem nonEmptyList?_injective : Function.Injective Expr.nonEmptyList? := by
  intro items others same
  cases items <;> cases others <;> simp_all [Expr.nonEmptyList?]

theorem literals?_injective : Function.Injective Expr.literals? :=
  nonEmptyList?_injective.comp (List.map_injective_iff.2 literal_injective)

theorem isValue_number (n : Nat) : IsValue (depth + 1) (.atom (toString n)) := isWord_toString n

theorem isValue_integer (i : Int) : IsValue (depth + 1) (.atom (toString i)) := isWord_intToString i

theorem isValue_literal (text : String) : IsValue (depth + 1) (.literal text) := trivial

theorem isValue_literalList (texts : List String) : IsValue (depth + 2) (.list (texts.map .literal)) := by
  intro item member
  obtain ⟨text, -, rfl⟩ := List.mem_map.1 member
  exact .inl (isValue_literal text)

theorem isValue_wrap {callee : String} (word : isWord callee = true) {e : Expr} (value : IsValue depth e) :
    IsValue (depth + 1) (.call callee [e]) := by
  refine ⟨word, ?_⟩
  intro argument member
  cases List.mem_singleton.1 member
  exact .inl value

theorem isItem_entry {key value : Expr} (first : IsValue depth key) (second : IsValue depth value) :
    IsItem (IsValue depth) (.entry key value) := .inr ⟨key, value, rfl, first, second⟩

theorem isValue_of_mem_map {α : Type} {f : α → Expr} (each : ∀ a, IsValue depth (f a)) (found : Option α) :
    ∀ value ∈ found.map f, IsValue depth value := by
  intro value member
  obtain ⟨a, -, rfl⟩ := Option.mem_map.1 member
  exact each a

theorem isValue_of_mem_nonEmptyList? {items : List Expr} (each : ∀ item ∈ items, IsItem (IsValue depth) item) :
    ∀ value ∈ Expr.nonEmptyList? items, IsValue (depth + 1) value := by
  intro value member
  rw [Expr.nonEmptyList?] at member
  split at member
  · cases member
  · cases member
    exact each

theorem isValue_of_mem_literals? (texts : List String) : ∀ value ∈ Expr.literals? texts, IsValue (depth + 2) value :=
  isValue_of_mem_nonEmptyList? (isValue_literalList texts)

end Parts

/-! ## Patterns, scopes and languages -/

namespace Pattern

/-- How a normal form is written. -/
def exprOf (source : String) : Expr := .call "HLJS.re" [.literal source]

theorem expr_eq_exprOf (p : Pattern) : p.expr = exprOf p.normal := by
  rw [expr, exprOf, foldedSource_eq_normal]

theorem map_expr (p : Option Pattern) : p.map (·.expr) = (p.map (·.normal)).map exprOf := by
  cases p with
  | none => rfl
  | some p => exact congrArg some p.expr_eq_exprOf

theorem exprOf_injective : Function.Injective exprOf := by
  intro source other same
  cases same
  rfl

theorem isValue_exprOf {depth : Nat} (source : String) : IsValue (depth + 2) (exprOf source) :=
  isValue_wrap (by decide) (isValue_literal source)

end Pattern

namespace Scope

theorem expr_injective : Function.Injective expr := by
  intro scope other same
  cases scope with
  | simple name =>
    cases other with
    | simple otherName => cases same; rfl
    | indexed groups => simp [expr] at same
  | indexed groups =>
    cases other with
    | simple name => simp [expr] at same
    | indexed others =>
      have entries : groups.entries = others.entries := by
        apply List.map_injective_iff.2 _ (by simpa [expr] using same)
        rintro ⟨group, name⟩ ⟨otherGroup, otherName⟩ sameEntry
        obtain ⟨sameKey, sameName⟩ := Expr.entry.inj sameEntry
        have sameGroup := UInt32.toNat_inj.1 (toString_nat_injective (Expr.atom.inj sameKey))
        exact Prod.ext sameGroup (literal_injective sameName)
      rw [SortedMap.ext entries]

theorem isValue_expr {depth : Nat} (scope : Scope) : IsValue (depth + 3) scope.expr := by
  cases scope with
  | simple name => exact isValue_wrap (by decide) (isValue_literal name)
  | indexed groups =>
    apply isValue_wrap (by decide)
    intro item member
    obtain ⟨⟨group, name⟩, -, rfl⟩ := List.mem_map.1 member
    exact isItem_entry (isValue_number group.toNat) (isValue_literal name)

end Scope

namespace SubLanguage

/-- An empty name or list of names is the same as none. -/
def normal? : SubLanguage → Option SubLanguage
  | .single name => if name.isEmpty then none else some (.single name)
  | .multiple names => if names.isEmpty then none else some (.multiple names)

/-- How a normal form is written. -/
def exprOf : SubLanguage → Expr
  | .single name => .call "SubLanguage.single" [.literal name]
  | .multiple names => .call "SubLanguage.multiple" [.list (names.map .literal)]

theorem expr?_eq_map_exprOf (language : SubLanguage) : language.expr? = language.normal?.map exprOf := by
  cases language with
  | single name => by_cases empty : name = "" <;> simp [expr?, normal?, exprOf, empty]
  | multiple names => cases names <;> simp [expr?, normal?, exprOf, Expr.literals?, Expr.nonEmptyList?]

theorem exprOf_injective : Function.Injective exprOf := by
  intro language other same
  cases language with
  | single name =>
    cases other with
    | single otherName => cases same; rfl
    | multiple names => simp [exprOf] at same
  | multiple names =>
    cases other with
    | single otherName => simp [exprOf] at same
    | multiple others =>
      have texts : names.map Expr.literal = others.map Expr.literal := by simpa [exprOf] using same
      rw [List.map_injective_iff.2 literal_injective texts]

theorem isValue_exprOf {depth : Nat} (language : SubLanguage) : IsValue (depth + 3) language.exprOf := by
  cases language with
  | single name => exact isValue_wrap (by decide) (isValue_literal name)
  | multiple names => exact isValue_wrap (by decide) (isValue_literalList names)

end SubLanguage

/-! ## Keywords -/

/-- What the keywords of a mode amount to.  Custom categories have words. -/
structure NormalKeywords where
  pattern : Option String
  keyword : List String
  literal : List String
  builtIn : List String
  type : List String
  custom : List (String × List String)
deriving DecidableEq

namespace NormalKeywords

/-- Plain keywords only. -/
def ofWords (words : List String) : NormalKeywords := ⟨none, words, [], [], [], []⟩

/-- A custom category with its words. -/
def category (entry : String × List String) : Expr := .entry (.literal entry.1) (.list (entry.2.map .literal))

def labels : List String := ["pattern", "keyword", "literal", "builtIn", "type", "custom"]

def fields (k : NormalKeywords) : List (String × Option Expr) :=
  [("pattern", k.pattern.map Pattern.exprOf),
    ("keyword", Expr.literals? k.keyword),
    ("literal", Expr.literals? k.literal),
    ("builtIn", Expr.literals? k.builtIn),
    ("type", Expr.literals? k.type),
    ("custom", Expr.nonEmptyList? (k.custom.map category))]

theorem labels_fields (k : NormalKeywords) : k.fields.map Prod.fst = labels := rfl

/-- How a normal form is written. -/
def expr (k : NormalKeywords) : Expr :=
  .call (if (labelled k.fields).isEmpty then "Keywords" else "HLJS.kw") (labelled k.fields)

theorem category_injective : Function.Injective category := by
  rintro ⟨name, words⟩ ⟨otherName, otherWords⟩ same
  obtain ⟨sameName, sameWords⟩ := Expr.entry.inj same
  exact Prod.ext (literal_injective sameName) (List.map_injective_iff.2 literal_injective (Expr.list.inj sameWords))

theorem expr_injective : Function.Injective expr := by
  intro k l same
  have sameFields : k.fields = l.fields :=
    eq_of_labelled_eq (by decide) k.labels_fields l.labels_fields (Expr.call.inj same).2
  simp only [fields, List.cons.injEq, Prod.mk.injEq, true_and, and_true] at sameFields
  obtain ⟨pattern, keyword, literal, builtIn, type, custom⟩ := sameFields
  rw [NormalKeywords.mk.injEq]
  exact ⟨Option.map_injective Pattern.exprOf_injective pattern, literals?_injective keyword,
    literals?_injective literal, literals?_injective builtIn, literals?_injective type,
    List.map_injective_iff.2 category_injective (nonEmptyList?_injective custom)⟩

theorem isValue_expr {depth : Nat} (k : NormalKeywords) : IsValue (depth + 4) k.expr := by
  have word : isWord (if (labelled k.fields).isEmpty then "Keywords" else "HLJS.kw") = true := by
    split <;> decide
  have custom : ∀ item ∈ k.custom.map category, IsItem (IsValue (depth + 2)) item := by
    intro item member
    obtain ⟨⟨name, words⟩, -, rfl⟩ := List.mem_map.1 member
    exact isItem_entry (isValue_literal name) (isValue_literalList words)
  refine ⟨word, isItem_labelled (by decide) k.labels_fields ?_⟩
  simp only [fields, List.forall_mem_cons, List.not_mem_nil]
  exact ⟨isValue_of_mem_map Pattern.isValue_exprOf k.pattern, isValue_of_mem_literals? k.keyword,
    isValue_of_mem_literals? k.literal, isValue_of_mem_literals? k.builtIn, isValue_of_mem_literals? k.type,
    isValue_of_mem_nonEmptyList? custom, nofun⟩

end NormalKeywords

namespace Keywords

/-- The words of all kinds: raw words count as plain keywords, and a custom category without words does not count. -/
def normal (k : Keywords) : NormalKeywords where
  pattern := k.pattern.map (·.normal)
  keyword := k.keyword ++ (k.raw.map plainWords).getD []
  literal := k.literal
  builtIn := k.builtIn
  type := k.type
  custom := k.custom.entries.filter fun entry => !entry.2.isEmpty

theorem customEntries_eq (k : Keywords) : k.customEntries = k.normal.custom.map NormalKeywords.category := by
  rw [customEntries, normal]
  induction k.custom.entries with
  | nil => rfl
  | cons entry entries ih =>
    obtain ⟨name, words⟩ := entry
    cases words with
    | nil => exact ih
    | cons word words =>
      rw [List.filterMap_cons, ih]
      rfl

theorem arguments_eq_labelled (k : Keywords) : k.arguments = labelled k.normal.fields := by
  rw [arguments, Pattern.map_expr, customEntries_eq]
  rfl

theorem expr_eq_normal (k : Keywords) : k.expr = k.normal.expr := by
  rw [expr, NormalKeywords.expr, arguments_eq_labelled]
  cases labelled k.normal.fields <;> rfl

end Keywords

/-! ## References -/

namespace Relation

/-- The argument for references of a kind, given what is written for each of them. -/
def gather (items : List Expr) : Relation → Expr
  | .contains => .list items
  | .variants => .call "HLJS.variants" [.list items]
  | .starts => .call "ModeBox" items

/-- The argument with its label.  Without references there is none. -/
def field (relation : Relation) (items : List Expr) : String × Option Expr :=
  (relation.name, if items.isEmpty then none else some (relation.gather items))

/-- The items for all kinds of reference. -/
def among (contains variants starts : List Expr) : Relation → List Expr
  | .contains => contains
  | .variants => variants
  | .starts => starts

theorem gather_injective {relation : Relation} {items others : List Expr}
    (same : relation.gather items = relation.gather others) : items = others := by
  cases relation <;> simpa [gather] using same

theorem field_injective (relation : Relation) : Function.Injective relation.field := by
  intro items others same
  have values := congrArg Prod.snd same
  cases items with
  | nil => cases others <;> simp_all [field]
  | cons item items =>
    cases others with
    | nil => simp [field] at values
    | cons other others => exact gather_injective (by simpa [field] using values)

theorem not_mem_field_nil (relation : Relation) (value : Expr) : value ∉ (relation.field []).2 := by
  simp [field]

end Relation

theorem Links.ofParts_eq (contains variants : List Expr) (starts : Option Expr) :
    ofParts contains variants starts =
      ⟨(Relation.contains.field contains).2, (Relation.variants.field variants).2,
        (Relation.starts.field starts.toList).2⟩ := by
  rw [ofParts, mk.injEq]
  refine ⟨rfl, ?_, ?_⟩
  · cases variants <;> rfl
  · cases starts <;> rfl

/-! ## Attributes -/

/-- What is written about a mode, apart from its references. -/
structure NormalForm where
  scope : Option String
  className : Option String
  opening : Option String
  closing : Option String
  whole : Option String
  keywords : Option NormalKeywords
  illegal : Option String
  relevance : Option Int
  flags : Flags
  subLanguage : Option SubLanguage
  beginScope : Option Scope
  endScope : Option Scope
  beginKeywords : Option String
deriving DecidableEq

namespace NormalForm

/-- An argument for a condition: it is given only where it holds. -/
def given (condition : Bool) : Option Expr := if condition then some (.atom "true") else none

def labels : List String :=
  ["scope", "className", "begin", "end", "match", "keywords", "illegal", "contains", "variants", "relevance",
    "excludeBegin", "excludeEnd", "returnBegin", "returnEnd", "endsWithParent", "endsParent", "skip", "subLanguage",
    "beginScope", "endScope", "starts", "beginKeywords"]

/-- The arguments of the call that makes a mode, given what is written for its references. -/
def fields (form : NormalForm) (items : Relation → List Expr) : List (String × Option Expr) :=
  [("scope", form.scope.map .literal),
    ("className", form.className.map .literal),
    ("begin", form.opening.map Pattern.exprOf),
    ("end", form.closing.map Pattern.exprOf),
    ("match", form.whole.map Pattern.exprOf),
    ("keywords", form.keywords.map NormalKeywords.expr),
    ("illegal", form.illegal.map Pattern.exprOf),
    Relation.contains.field (items .contains),
    Relation.variants.field (items .variants),
    ("relevance", form.relevance.map fun r => .atom (toString r)),
    ("excludeBegin", given form.flags.excludeBegin),
    ("excludeEnd", given form.flags.excludeEnd),
    ("returnBegin", given form.flags.returnBegin),
    ("returnEnd", given form.flags.returnEnd),
    ("endsWithParent", given form.flags.endsWithParent),
    ("endsParent", given form.flags.endsParent),
    ("skip", given form.flags.skip),
    ("subLanguage", form.subLanguage.map SubLanguage.exprOf),
    ("beginScope", form.beginScope.map Scope.expr),
    ("endScope", form.endScope.map Scope.expr),
    Relation.starts.field (items .starts),
    ("beginKeywords", form.beginKeywords.map .literal)]

theorem labels_fields (form : NormalForm) (items : Relation → List Expr) :
    (form.fields items).map Prod.fst = labels := rfl

/-- The call that makes a mode. -/
def call (form : NormalForm) (items : Relation → List Expr) : Expr := .call "Mode" (labelled (form.fields items))

theorem flag?_eq_given (label : String) (condition : Bool) :
    Expr.flag? label condition = Expr.argument? label (given condition) := by
  cases condition <;> rfl

theorem given_injective : Function.Injective given := by
  intro condition other same
  cases condition <;> cases other <;> simp_all [given]

theorem isValue_of_mem_given {depth : Nat} (condition : Bool) :
    ∀ value ∈ given condition, IsValue (depth + 1) value := by
  intro value member
  cases condition with
  | false => cases member
  | true =>
    cases member
    exact (by decide : isWord "true" = true)

theorem integer_injective : Function.Injective fun i : Int => Expr.atom (toString i) := by
  intro i j same
  exact toString_int_injective (Expr.atom.inj same)

theorem isValue_call (form : NormalForm) : IsValue 5 (form.call fun _ => []) := by
  have word : isWord "Mode" = true := by decide
  have none (relation : Relation) : ∀ value ∈ (relation.field []).2, IsValue 4 value :=
    fun value member => absurd member (relation.not_mem_field_nil value)
  refine ⟨word, isItem_labelled (by decide) (form.labels_fields _) ?_⟩
  simp only [fields, List.forall_mem_cons, List.not_mem_nil]
  exact ⟨isValue_of_mem_map isValue_literal form.scope, isValue_of_mem_map isValue_literal form.className,
    isValue_of_mem_map Pattern.isValue_exprOf form.opening, isValue_of_mem_map Pattern.isValue_exprOf form.closing,
    isValue_of_mem_map Pattern.isValue_exprOf form.whole, isValue_of_mem_map NormalKeywords.isValue_expr form.keywords,
    isValue_of_mem_map Pattern.isValue_exprOf form.illegal, none .contains, none .variants,
    isValue_of_mem_map isValue_integer form.relevance,
    isValue_of_mem_given _, isValue_of_mem_given _, isValue_of_mem_given _, isValue_of_mem_given _,
    isValue_of_mem_given _, isValue_of_mem_given _, isValue_of_mem_given _,
    isValue_of_mem_map SubLanguage.isValue_exprOf form.subLanguage, isValue_of_mem_map Scope.isValue_expr form.beginScope,
    isValue_of_mem_map Scope.isValue_expr form.endScope, none .starts,
    isValue_of_mem_map isValue_literal form.beginKeywords, nofun⟩

/-- A call tells of which attributes and of which items it was made. -/
theorem call_injective {form other : NormalForm} {items others : Relation → List Expr}
    (same : form.call items = other.call others) : form = other ∧ items = others := by
  have sameFields : form.fields items = other.fields others :=
    eq_of_labelled_eq (by decide) (form.labels_fields items) (other.labels_fields others) (Expr.call.inj same).2
  simp only [fields, List.cons.injEq, Prod.mk.injEq, true_and, and_true] at sameFields
  obtain ⟨scope, className, opening, closing, whole, keywords, illegal, contains, variants, relevance, excludeBegin,
    excludeEnd, returnBegin, returnEnd, endsWithParent, endsParent, skip, subLanguage, beginScope, endScope, starts,
    beginKeywords⟩ := sameFields
  have texts := Option.map_injective literal_injective
  have patterns := Option.map_injective Pattern.exprOf_injective
  have scopes := Option.map_injective Scope.expr_injective
  have flags : form.flags = other.flags := by
    rw [Flags.mk.injEq]
    exact ⟨given_injective excludeBegin, given_injective excludeEnd, given_injective returnBegin,
      given_injective returnEnd, given_injective endsWithParent, given_injective endsParent, given_injective skip⟩
  constructor
  · rw [NormalForm.mk.injEq]
    exact ⟨texts scope, texts className, patterns opening, patterns closing, patterns whole,
      Option.map_injective NormalKeywords.expr_injective keywords, patterns illegal,
      Option.map_injective integer_injective relevance, flags,
      Option.map_injective SubLanguage.exprOf_injective subLanguage, scopes beginScope, scopes endScope,
      texts beginKeywords⟩
  · funext relation
    cases relation with
    | contains => exact Relation.contains.field_injective contains
    | variants => exact Relation.variants.field_injective variants
    | starts => exact Relation.starts.field_injective starts

end NormalForm

namespace Attributes

/-- The keywords that are in effect.  Where there are none, the words that begin a literal stand in for them. -/
def normalKeywords (a : Attributes) : Option NormalKeywords :=
  match a.keywords with
  | some k => some k.normal
  | none =>
    let words := (a.beginKeywords.map plainWords).getD []
    if (a.scope == some "literal" || a.className == some "literal") && !words.isEmpty then some (.ofWords words) else none

def normal (a : Attributes) : NormalForm where
  scope := a.scope
  className := a.className
  opening := a.opening.map (·.normal)
  closing := a.closing.map (·.normal)
  whole := a.whole.map (·.normal)
  keywords := a.normalKeywords
  illegal := a.illegal.map (·.normal)
  relevance := a.relevance
  flags := a.flags
  subLanguage := a.subLanguage.bind (·.normal?)
  beginScope := a.beginScope
  endScope := a.endScope
  beginKeywords := a.beginKeywords

theorem keywordsExpr?_eq_normal (a : Attributes) : a.keywordsExpr? = a.normalKeywords.map NormalKeywords.expr := by
  rw [keywordsExpr?, normalKeywords, isLiteral]
  cases a.keywords with
  | some k => exact congrArg some k.expr_eq_normal
  | none =>
    cases a.scope == some "literal" || a.className == some "literal" with
    | false => rfl
    | true => cases (a.beginKeywords.map plainWords).getD [] <;> rfl

/-- A mode is written as the call that its attributes in normal form make, with its references. -/
theorem expr_eq_call (a : Attributes) (contains variants : List Expr) (starts : Option Expr) :
    a.expr (.ofParts contains variants starts) = a.normal.call (Relation.among contains variants starts.toList) := by
  have language : a.subLanguage.bind (·.expr?) = (a.subLanguage.bind (·.normal?)).map SubLanguage.exprOf := by
    cases a.subLanguage with
    | none => rfl
    | some language => exact language.expr?_eq_map_exprOf
  -- The writer goes through the fields in the same order, so each argument is compared with its own field.
  rw [expr, arguments, keywordsExpr?_eq_normal, language, Links.ofParts_eq]
  simp only [Pattern.map_expr, NormalForm.flag?_eq_given]
  rfl

theorem expr_none_eq_call (a : Attributes) : a.expr .none = a.normal.call fun _ => [] := by
  have nothing : Relation.among [] [] [] = fun _ => [] := by
    funext relation
    cases relation <;> rfl
  rw [← nothing]
  exact a.expr_eq_call [] [] none

/-- Without references, modes are written the same exactly if their attributes have the same normal form. -/
theorem render_eq_iff_normal_eq (a b : Attributes) :
    (a.expr .none).render = (b.expr .none).render ↔ a.normal = b.normal := by
  rw [expr_none_eq_call, expr_none_eq_call]
  constructor
  · intro same
    exact (NormalForm.call_injective (Expr.render_injective a.normal.isValue_call b.normal.isValue_call same)).1
  · intro same
    rw [same]

end Attributes

end HighlightGrammar
