import HighlightGrammar.Files.Path
import HighlightGrammar.SortedMap
import HighlightGrammar.Text.Case

/-!
# Configuration

Where the documents of the languages are, where the files written for them go, and under which names.
A language with a template is not generated: its template is copied.
-/

namespace HighlightGrammar

structure Config where
  /-- The directory that all other directories are relative to. -/
  root : String
  /-- The directory of the documents. -/
  documentDir : String
  outputDir : String
  templateDir : String
  /-- Names of languages whose spelling does not follow from their identifiers. -/
  displayNames : SortedMap String String
  /-- The templates of languages that have one. -/
  templates : SortedMap String String

namespace Config

/-- The configuration of a directory without a configuration file. -/
def atRoot (root : String) : Config where
  root
  documentDir := "tools/ir"
  outputDir := "Sources/SwiftHighlight/Languages"
  templateDir := "tools/templates"
  displayNames := SortedMap.ofList [("json", "JSON")]
  templates := SortedMap.ofList [("python", "Python.swift"), ("swift", "Swift.swift")]

/-- The configuration of the current directory. -/
protected def default : Config := atRoot "."

/-- The name of the configuration file of a directory. -/
def fileName : String := "modeweave.toml"

def documentPath (config : Config) (lang : String) : String :=
  Path.join (Path.join config.root config.documentDir) (lang ++ ".json")

/-- The name of the file of a language, without its extension. -/
def fileBase (config : Config) (lang : String) : String :=
  (config.displayNames.get? lang).getD (Text.titlecase lang)

/-- The name under which a language is registered. -/
def registerName (config : Config) (lang : String) : String :=
  (config.displayNames.get? lang).getD (Text.capitalize lang)

def outputPath (config : Config) (lang : String) : String :=
  Path.join (Path.join config.root config.outputDir) (config.fileBase lang ++ ".swift")

def templatePath? (config : Config) (lang : String) : Option String :=
  (config.templates.get? lang).map (Path.join (Path.join config.root config.templateDir))

end Config

end HighlightGrammar
