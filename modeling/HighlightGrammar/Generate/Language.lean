import HighlightGrammar.Config.Basic
import HighlightGrammar.Generate.Text
import HighlightGrammar.Grammar.Validate
import HighlightGrammar.Host
import HighlightGrammar.Json.Reader

/-!
# Generating a language

The template of a language is copied to its file.  A language without one has a document, which is read,
validated, loaded and planned; only then is anything written.
-/

namespace HighlightGrammar

/-- A language, and where to read and write if not where the configuration says. -/
structure Request where
  lang : String
  input : Option String
  output : Option String
  strict : Bool

/-- What was written. -/
inductive Generated where
  | compiled (path : String) (modes breaks : Nat)
  | copied (path template : String)
deriving DecidableEq, Repr

def Generated.path : Generated → String
  | .compiled path .. => path
  | .copied path _ => path

/-- What is told about a plan. -/
def Plan.events (grammar : Grammar) (plan : Plan grammar.size) : List Event :=
  let edge (e : Edge grammar.size) : Event :=
    .brokeEdge (grammar.modes.get e.source).id e.relation.name e.position (grammar.modes.get e.target).id
  [.builtGraph grammar.size plan.graph.edges.length,
    .foundComponents plan.partition.components.length plan.partition.cyclic.length] ++
    (brokenEdges grammar.modes plan.graph plan.partition).map edge ++
    [.planned grammar.size plan.breaks.size plan.schedule.isFallback]

namespace Request

variable {m : Type → Type} [Monad m] [Host m]

/-- The text of a file, or the error that names the file. -/
def readFile (path : String) : ExceptT GenerateError m String := do
  match ← (Host.readText path : m (Except FileError String)) with
  | .ok text => pure text
  | .error cause => throw (.file path cause)

/-- Write a file into a directory, which is made if need be. -/
def writeFile (path text : String) : ExceptT GenerateError m Unit := do
  match Path.parent? path with
  | none | some "" => pure ()
  | some directory =>
    match ← (Host.ensureDirectory directory : m (Except FileError Unit)) with
    | .ok () => pure ()
    | .error cause => throw (.file directory cause)
  match ← (Host.writeText path text : m (Except FileError Unit)) with
  | .ok () => pure ()
  | .error cause => throw (.file path cause)

def note (event : Event) : ExceptT GenerateError m Unit := (Host.note event : m Unit)

/-- The grammar of a document in a file. -/
def readGrammar (path : String) : ExceptT GenerateError m Grammar := do
  match Json.read (← readFile path) with
  | .error fault => throw (.parse path fault)
  | .ok document =>
    match Grammar.validate document path with
    | [] =>
      match Grammar.load document with
      | .error cause => throw (.load cause)
      | .ok grammar => pure grammar
    | diagnostics => throw (.invalid path diagnostics)

/-- The file to write. -/
def outputPath (request : Request) (config : Config) : String :=
  request.output.getD (config.outputPath request.lang)

def copyTemplate (request : Request) (config : Config) (template : String) :
    ExceptT GenerateError m Generated := do
  let path := request.outputPath config
  writeFile path (← readFile template)
  note (.copiedTemplate request.lang template)
  pure (.copied path template)

def compile (request : Request) (config : Config) : ExceptT GenerateError m Generated := do
  let path := request.outputPath config
  let grammar ← readGrammar (request.input.getD (config.documentPath request.lang))
  let plan := Plan.ofModes grammar.modes
  (plan.events grammar).forM note
  let target : Target := ⟨request.lang, config.registerName request.lang, request.strict⟩
  match target.render grammar plan with
  | .error e => throw e
  | .ok text =>
    note (.rendering request.lang grammar.size plan.breaks.size)
    writeFile path text
    pure (.compiled path grammar.size plan.breaks.size)

/-- Write the file of a language. -/
def run (request : Request) (config : Config) : ExceptT GenerateError m Generated :=
  match config.templatePath? request.lang with
  | some template => request.copyTemplate config template
  | none => request.compile config

end Request

end HighlightGrammar
