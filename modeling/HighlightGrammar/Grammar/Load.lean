import HighlightGrammar.Grammar.Basic
import HighlightGrammar.Grammar.LoadError
import HighlightGrammar.Text.Blank

/-!
# Loading grammars

`Grammar.load` turns a JSON document into a grammar.  It is lenient about what it does not need (a field of
an unexpected type mostly counts as absent) and stops at the first field that it cannot make sense of.
The names of all modes are read first, so references may lead forward and backward alike.
-/

namespace HighlightGrammar

namespace Json

/-- The text under a key; an empty text counts as absent. -/
def nonEmptyText? (key : String) (value : Json) : Option String := (value.getText? key).filter (· ≠ "")

/-- Whether a flag is set. -/
def flag (key : String) (value : Json) : Bool := ((value.get? key).bind asBool?).getD false

/-- Words as a list of texts, or as one text with blanks between them. -/
def wordList : Option Json → List String
  | some (.list items) => items.filterMap asText?
  | some (.text joined) => Text.splitWords joined
  | _ => []

end Json

namespace Grammar

/-- Whether a text of flags has a given one. -/
def hasFlag (flag : Char) (flags : String) : Bool := flags.toList.contains flag

def readPattern (owner : Owner) (field : String) (value : Json) : Except LoadError Pattern :=
  match value.getText? "source" with
  | none => .error (.missingSource owner field)
  | some source =>
    let flags := (value.getText? "flags").getD ""
    let pattern (kind : PatternKind) : Pattern := ⟨kind, source, hasFlag 'i' flags, hasFlag 'u' flags⟩
    match value.getText? "type" with
    | none => .ok (pattern .regex)
    | some type =>
      if type = "regex" then .ok (pattern .regex)
      else if type = "string" then .ok (pattern .text)
      else .error (.unsupportedType owner field type)

/-- The pattern under a key, if there is one. -/
def loadPattern (owner : Owner) (field : String) (value : Json) : Except LoadError (Option Pattern) :=
  match value.getPresent? field with
  | none => .ok none
  | some found => (readPattern owner field found).map some

/-- The custom categories of keywords. -/
def customWords (value : Json) : SortedMap String (List String) :=
  SortedMap.ofList ((((value.get? "custom").bind Json.asFields?).getD []).map fun field =>
    (field.1, Json.wordList (some field.2)))

def readKeywords (owner : Owner) (value : Json) : Except LoadError (Option Keywords) :=
  match value with
  | .text raw => .ok (if raw = "" then none else some { Keywords.empty with raw := some raw })
  | .object [] => .ok none
  | .object fields => do
    let value := Json.object fields
    let pattern ← loadPattern owner "pattern" value
    .ok (some {
      pattern
      keyword := Json.wordList (value.get? "keyword")
      literal := Json.wordList (value.get? "literal")
      builtIn := Json.wordList (value.get? "built_in")
      type := Json.wordList (value.get? "type")
      custom := customWords value
      raw := value.nonEmptyText? "raw" })
  | _ => .error (.keywordsNotObject owner)

def loadKeywords (owner : Owner) (value : Json) : Except LoadError (Option Keywords) :=
  match value.getPresent? "keywords" with
  | none => .ok none
  | some found => readKeywords owner found

/-- The capture group that a key denotes: decimal digits, perhaps after a plus sign, of a value below
2 ^ 32. -/
def captureIndex? (key : String) : Option UInt32 :=
  let digits :=
    match key.toList with
    | '+' :: rest => rest
    | other => other
  let value := Nat.ofDigitChars 10 digits 0
  if digits ≠ [] ∧ digits.all Char.isDigit ∧ value < Nat.pow 2 32 then some (UInt32.ofNat value) else none

/-- The names of capture groups.  All keys have to denote groups; names that are no texts are left out. -/
def readGroups (owner : Owner) (field : String) (groups : SortedMap UInt32 String) :
    List (String × Json) → Except LoadError (SortedMap UInt32 String)
  | [] => .ok groups
  | (key, value) :: rest =>
    match captureIndex? key with
    | none => .error (.captureIndex owner field key)
    | some index =>
      match value.asText? with
      | none => readGroups owner field groups rest
      | some name => readGroups owner field (groups.insert index name) rest

def loadScope (owner : Owner) (field : String) (value : Json) : Except LoadError (Option Scope) :=
  match value.getPresent? field with
  | none => .ok none
  | some (.text name) => .ok (if name = "" then none else some (.simple name))
  | some (.object fields) => (readGroups owner field ∅ fields).map fun groups => some (.indexed groups)
  | some other => .error (.unsupportedScope owner field other)

def loadSubLanguage (value : Json) : Option SubLanguage :=
  match value.get? "subLanguage" with
  | some (.text name) => if name = "" then none else some (.single name)
  | some (.list items) => if items.isEmpty then none else some (.multiple (items.filterMap Json.asText?))
  | _ => none

def loadFlags (value : Json) : Flags where
  excludeBegin := value.flag "excludeBegin"
  excludeEnd := value.flag "excludeEnd"
  returnBegin := value.flag "returnBegin"
  returnEnd := value.flag "returnEnd"
  endsWithParent := value.flag "endsWithParent"
  endsParent := value.flag "endsParent"
  skip := value.flag "skip"

def loadAttributes (owner : Owner) (value : Json) : Except LoadError Attributes := do
  let opening ← loadPattern owner "begin" value
  let closing ← loadPattern owner "end" value
  let whole ← loadPattern owner "match" value
  let keywords ← loadKeywords owner value
  let illegal ← loadPattern owner "illegal" value
  let beginScope ← loadScope owner "beginScope" value
  let endScope ← loadScope owner "endScope" value
  .ok {
    scope := value.nonEmptyText? "scope"
    className := value.nonEmptyText? "className"
    opening, closing, whole, keywords
    beginKeywords := value.nonEmptyText? "beginKeywords"
    illegal
    flags := loadFlags value
    relevance := (value.get? "relevance").bind Json.asSigned?
    subLanguage := loadSubLanguage value
    beginScope, endScope }

variable {n : Nat}

/-- The mode that a reference names, among modes with the given names.  The first of several wins. -/
def readRef (ids : Vector String n) (owner : Owner) (field : String) (value : Json) :
    Except LoadError (Ref n) :=
  if value.asText? = some "self" then .ok .itself
  else
    match value.getText? "ref" with
    | none => .error (.invalidRef owner field value)
    | some target =>
      match ids.finIdxOf? target with
      | none => .error (.unknownRef owner field target)
      | some index => .ok (.mode index)

def loadRefs (ids : Vector String n) (owner : Owner) (field : String) (value : Json) :
    Except LoadError (List (Ref n)) :=
  match value.getPresent? field with
  | none => .ok []
  | some (.list items) => items.mapM (readRef ids owner field)
  | some _ => .error (.refsNotList owner field)

def loadStarts (ids : Vector String n) (owner : Owner) (value : Json) :
    Except LoadError (Option (Ref n)) :=
  match value.getPresent? "starts" with
  | none => .ok none
  | some found => (readRef ids owner "starts" found).map some

def loadMode (ids : Vector String n) (id : String) (value : Json) : Except LoadError (Mode n) := do
  let owner := Owner.mode id
  let starts ← loadStarts ids owner value
  let attributes ← loadAttributes owner value
  let contains ← loadRefs ids owner "contains" value
  let variants ← loadRefs ids owner "variants" value
  .ok { id, attributes, contains, variants, starts }

/-- Class names that stand for others; those without a text are left out. -/
def classNameAliases (value : Json) : SortedMap String String :=
  SortedMap.ofList ((((value.get? "classNameAliases").bind Json.asFields?).getD []).filterMap fun field =>
    field.2.asText?.map (field.1, ·))

def loadLanguage (ids : Vector String n) (value : Json) : Except LoadError (Language n) := do
  let keywords ← loadKeywords .language value
  let illegal ← loadPattern .language "illegal" value
  let contains ← loadRefs ids .language "contains" value
  .ok {
    name := value.nonEmptyText? "name"
    aliases := Json.wordList (value.get? "aliases")
    disableAutodetect := value.flag "disableAutodetect"
    caseInsensitive := value.flag "caseInsensitive"
    unicodeRegex := value.flag "unicodeRegex"
    keywords, illegal
    classNameAliases := classNameAliases value
    contains }

/-- The list of modes of a document. -/
def modeValues (document : Json) : Except LoadError (List Json) :=
  match document.getPresent? "modes" with
  | none => .ok []
  | some (.list items) => .ok items
  | some _ => .error .modesNotList

def loadId (value : Json) : Except LoadError String :=
  match value.nonEmptyText? "id" with
  | none => .error .missingId
  | some id => .ok id

/-- The grammar that a document describes. -/
def load (document : Json) : Except LoadError Grammar :=
  match (document.get? "version").bind Json.asUnsigned? with
  | none => .error .missingVersion
  | some version =>
    match (document.get? "language").filter Json.isObject with
    | none => .error .missingLanguage
    | some language => do
      let items ← modeValues document
      let values : Vector Json items.length := ⟨items.toArray, List.size_toArray⟩
      let ids ← values.mapM loadId
      let modes ← (ids.zip values).mapM fun entry => loadMode ids entry.1 entry.2
      let language ← loadLanguage ids language
      .ok { size := items.length, version, language, modes }

end Grammar

end HighlightGrammar
