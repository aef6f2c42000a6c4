import HighlightGrammar.Diagnostic
import HighlightGrammar.Grammar.LoadError
import HighlightGrammar.Grammar.Schema

/-!
# Validating grammar documents

`Grammar.problems` lists what is wrong with a document.  Its shape comes first; only where that is sound
are the values looked at: the version, the types and flags of patterns, the names of modes, and where the
references lead.  Nothing stops at the first problem.
-/

namespace HighlightGrammar

/-- A field of the language or of a mode. -/
structure Place where
  owner : Owner
  field : String
deriving DecidableEq, Repr

def Place.path (place : Place) : String := place.owner.path ++ "." ++ place.field

inductive Problem where
  | shape (violation : Violation)
  | unsupportedVersion (version : Json)
  | missingLanguage
  | missingId
  | duplicateId (id : String)
  | unsafeId (id : String)
  | patternType (place : Place) (type : Option String)
  | patternFlag (place : Place) (flag : Char)
  | unknownRef (place : Place) (target : String)
  | invalidRef (place : Place) (value : Json)
deriving Repr

namespace Problem

/-- Where in the document. -/
def location : Problem → Option String
  | .shape _ => some "schema"
  | .patternType place _ | .patternFlag place _ | .unknownRef place _ | .invalidRef place _ => some place.path
  | _ => none

def message : Problem → String
  | .shape violation => violation.message
  | .unsupportedVersion version => "unsupported IR version '" ++ version.render ++ "'"
  | .missingLanguage => "missing language object"
  | .missingId => "mode missing id"
  | .duplicateId id => "duplicate mode id '" ++ id ++ "'"
  | .unsafeId id => "mode id '" ++ id ++ "' is not identifier-safe"
  | .patternType _ type => "unsupported pattern type '" ++ type.getD "None" ++ "'"
  | .patternFlag _ flag => "unsupported regex flag '" ++ flag.toString ++ "'"
  | .unknownRef _ target => "unknown ref '" ++ target ++ "'"
  | .invalidRef _ value => "invalid ref '" ++ value.render ++ "'"

/-- The problem as one of a given document. -/
def toDiagnostic (source : String) (problem : Problem) : Diagnostic :=
  ⟨source, problem.location, problem.message⟩

end Problem

namespace Grammar

/-- The one version of the format. -/
def supportedVersion : Nat := 1

def patternTypes : List String := ["regex", "string"]

def patternFlags : List Char := ['i', 'u']

/-- Names of modes become part of names in the generated code. -/
def isIdentifierSafe (id : String) : Bool := id.toList.all fun c => c.isAlphanum || c == '_'

def patternProblems (place : Place) (pattern : Option Json) : List Problem :=
  match pattern.filter (!·.isNull) with
  | none => []
  | some value =>
    let type := value.getText? "type"
    let flags := (value.getText? "flags").getD ""
    (if type.any (patternTypes.contains ·) then [] else [.patternType place type]) ++
      (flags.toList.filter (!patternFlags.contains ·)).map (.patternFlag place)

/-- The problems of the pattern inside of keywords. -/
def keywordProblems (owner : Owner) (value : Json) : List Problem :=
  patternProblems ⟨owner, "keywords.pattern"⟩ ((value.get? "keywords").bind (·.get? "pattern"))

def refProblems (ids : List String) (place : Place) (value : Json) : List Problem :=
  match value.getText? "ref" with
  | none => [.invalidRef place value]
  | some target => if ids.contains target then [] else [.unknownRef place target]

/-- The problems of a list of references, in which a mode may refer to itself by a marker. -/
def refListProblems (ids : List String) (place : Place) (value : Option Json) : List Problem :=
  ((value.bind Json.asList?).getD []).flatMap fun item =>
    if item.asText? = some "self" then [] else refProblems ids place item

/-- The problems of modes' names, after modes with the names in `seen`. -/
def idProblems (seen : List String) : List Json → List Problem
  | [] => []
  | mode :: rest =>
    match (mode.getText? "id").filter (· ≠ "") with
    | none => .missingId :: idProblems seen rest
    | some id =>
      (if seen.contains id then [.duplicateId id] else []) ++
        (if isIdentifierSafe id then [] else [.unsafeId id]) ++ idProblems (id :: seen) rest

/-- The names of the modes that have one. -/
def modeIds (modes : List Json) : List String := modes.filterMap fun mode => (mode.getText? "id").filter (· ≠ "")

def modeProblems (ids : List String) (mode : Json) : List Problem :=
  let owner := Owner.mode ((mode.getText? "id").getD "<unknown>")
  ["begin", "end", "match", "illegal"].flatMap (fun field => patternProblems ⟨owner, field⟩ (mode.get? field)) ++
    keywordProblems owner mode ++
    ["contains", "variants"].flatMap (fun field => refListProblems ids ⟨owner, field⟩ (mode.get? field)) ++
    (mode.getPresent? "starts").toList.flatMap (refProblems ids ⟨owner, "starts"⟩)

def versionProblems (document : Json) : List Problem :=
  let version := (document.get? "version").getD .null
  if version.asUnsigned? = some supportedVersion then [] else [.unsupportedVersion version]

/-- The problems of the values of a document. -/
def valueProblems (document : Json) : List Problem :=
  versionProblems document ++
    match (document.get? "language").filter Json.isObject with
    | none => [.missingLanguage]
    | some language =>
      let modes := ((document.get? "modes").bind Json.asList?).getD []
      let ids := modeIds modes
      patternProblems ⟨.language, "illegal"⟩ (language.get? "illegal") ++ keywordProblems .language language ++
        idProblems [] modes ++ modes.flatMap (modeProblems ids) ++
        refListProblems ids ⟨.language, "contains"⟩ (language.get? "contains")

/-- Everything that is wrong with a document. -/
def problems (document : Json) : List Problem :=
  match Shape.document.violations document with
  | [] => valueProblems document
  | violations => violations.map .shape

/-- The problems as diagnostics of the document named `source`. -/
def validate (document : Json) (source : String) : List Diagnostic :=
  (problems document).map (·.toDiagnostic source)

end Grammar

end HighlightGrammar
