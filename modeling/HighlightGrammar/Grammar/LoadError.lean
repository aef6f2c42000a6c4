import HighlightGrammar.Json.Printer

/-!
# What keeps a document from being loaded

Each cause names the place in the document; `LoadError.message` puts it into words.
-/

namespace HighlightGrammar

/-- Who holds a field: the language, or a mode by its name. -/
inductive Owner where
  | language
  | mode (id : String)
deriving DecidableEq, Repr

namespace Owner

def name : Owner → String
  | .language => "language"
  | .mode id => id

/-- How a field of the owner is referred to. -/
def path : Owner → String
  | .language => "language"
  | .mode id => "mode " ++ id

end Owner

inductive LoadError where
  | missingVersion
  | missingLanguage
  | modesNotList
  | missingId
  | missingSource (owner : Owner) (field : String)
  | unsupportedType (owner : Owner) (field : String) (type : String)
  | keywordsNotObject (owner : Owner)
  | captureIndex (owner : Owner) (field : String) (key : String)
  | unsupportedScope (owner : Owner) (field : String) (value : Json)
  | refsNotList (owner : Owner) (field : String)
  | invalidRef (owner : Owner) (field : String) (value : Json)
  | unknownRef (owner : Owner) (field : String) (target : String)
deriving Repr

namespace LoadError

/-- Words about one field of a mode, or of the language. -/
def inMode (owner : Owner) (words : String) : String := "mode '" ++ owner.name ++ "': " ++ words

def message : LoadError → String
  | .missingVersion => "document missing required field: 'version'"
  | .missingLanguage => "document missing required field: 'language'"
  | .modesNotList => "invalid document: 'modes' is not a list"
  | .missingId => "invalid document: mode missing 'id' field"
  | .missingSource owner field => inMode owner (field ++ ": pattern missing 'source'")
  | .unsupportedType owner field type =>
    inMode owner (field ++ ": unsupported pattern type '" ++ type ++ "'")
  | .keywordsNotObject owner => inMode owner "keywords is not an object"
  | .captureIndex owner field key =>
    inMode owner (field ++ ": capture index '" ++ key ++ "' is not a number")
  | .unsupportedScope owner field value =>
    inMode owner (field ++ ": unsupported scope '" ++ value.render ++ "'")
  | .refsNotList owner field => "invalid document: " ++ owner.path ++ "." ++ field ++ ": not a list"
  | .invalidRef owner field value =>
    "invalid document: " ++ owner.path ++ "." ++ field ++ ": invalid ref '" ++ value.render ++ "'"
  | .unknownRef owner field target => owner.path ++ "." ++ field ++ ": unknown ref '" ++ target ++ "'"

end LoadError

end HighlightGrammar
