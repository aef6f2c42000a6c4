import HighlightGrammar.Schema

/-!
# The schema of grammar documents

The shape that a document has to have before its values are looked at.  Kinds and fields stand in
alphabetical order, which is the order in which violations are reported.
-/

namespace HighlightGrammar.Grammar.Shape

open HighlightGrammar.Schema (all record)

def optionalText : Schema := .kinds [.null, .string]

def pattern : Schema :=
  all [
    .kinds [.null, .object],
    .required "source",
    record [("flags", optionalText), ("source", .kinds [.string]), ("type", optionalText)]]

def ref : Schema := all [.kinds [.object], .required "ref", record [("ref", .kinds [.string])]]

def refList : Schema := all [.kinds [.array, .null], .items (.either (.exactly "self") ref)]

def wordList : Schema := all [.kinds [.array, .null, .string], .items (.kinds [.string])]

def keywords : Schema :=
  all [
    .kinds [.null, .object, .string],
    record [
      ("built_in", wordList),
      ("custom", all [.kinds [.null, .object], .fields wordList]),
      ("keyword", wordList),
      ("literal", wordList),
      ("pattern", pattern),
      ("raw", optionalText),
      ("type", wordList)]]

def scope : Schema := all [.kinds [.null, .object, .string], .fields (.kinds [.string]), .digitKeys]

def flag : Schema := .kinds [.boolean, .null]

def mode : Schema :=
  all [
    .kinds [.object],
    record [
      ("begin", pattern),
      ("beginKeywords", optionalText),
      ("beginScope", scope),
      ("className", optionalText),
      ("contains", refList),
      ("end", pattern),
      ("endScope", scope),
      ("endsParent", flag),
      ("endsWithParent", flag),
      ("excludeBegin", flag),
      ("excludeEnd", flag),
      ("id", .kinds [.string]),
      ("illegal", pattern),
      ("keywords", keywords),
      ("match", pattern),
      ("relevance", .kinds [.null, .number]),
      ("returnBegin", flag),
      ("returnEnd", flag),
      ("scope", optionalText),
      ("skip", flag),
      ("starts", .either (.kinds [.null]) ref),
      ("subLanguage", all [.kinds [.array, .null, .string], .items (.kinds [.string])]),
      ("variants", refList)]]

def language : Schema :=
  all [
    .kinds [.object],
    record [
      ("aliases", all [.kinds [.array, .null], .items (.kinds [.string])]),
      ("caseInsensitive", flag),
      ("classNameAliases", all [.kinds [.null, .object], .fields (.kinds [.string])]),
      ("contains", refList),
      ("disableAutodetect", flag),
      ("illegal", pattern),
      ("keywords", keywords),
      ("name", optionalText),
      ("unicodeRegex", flag)]]

def document : Schema :=
  all [
    .kinds [.object],
    record [
      ("language", language),
      ("modes", all [.kinds [.array, .null], .items mode]),
      ("version", .kinds [.integer, .null])]]

end HighlightGrammar.Grammar.Shape
