import HighlightGrammar.Command.Arguments
import HighlightGrammar.Generate.Language

/-!
# Commands

What the program can be asked to do, and how a command line asks for it.
-/

namespace HighlightGrammar

/-- How results are told. -/
inductive OutputFormat where
  | text
  | json
deriving DecidableEq, Repr

namespace OutputFormat

def ofName? (name : String) : Option OutputFormat :=
  if name = "text" then some .text else if name = "json" then some .json else none

end OutputFormat

inductive Command where
  | validate (inputs : List String) (directory : Option String)
  | generate (request : Request) (root : String) (config : Option String)

/-- A command, and how to go about it. -/
structure Invocation where
  format : OutputFormat
  quiet : Bool
  verbose : Bool
  command : Command

namespace Command

def isPath (value : String) : Bool := value ≠ ""

/-- The options of every level. -/
def commonSwitches : List Switch :=
  [⟨"output", none, .single fun name => (OutputFormat.ofName? name).isSome⟩, ⟨"quiet", none, .flag⟩,
    ⟨"verbose", some 'v', .flag⟩, ⟨"help", some 'h', .halt .help⟩]

def topSwitches : List Switch := ⟨"version", some 'V', .halt .version⟩ :: commonSwitches

def validateSwitches : List Switch :=
  [⟨"input", none, .many isPath⟩, ⟨"dir", none, .single isPath⟩] ++ commonSwitches

def generateSwitches : List Switch :=
  [⟨"lang", none, .single fun _ => true⟩, ⟨"input", none, .single isPath⟩, ⟨"out", none, .single isPath⟩,
    ⟨"root", none, .single isPath⟩, ⟨"config", none, .single isPath⟩, ⟨"strict", none, .flag⟩] ++
    commonSwitches

/-- The options of a command, after which nothing may follow. -/
def takeCommand (switches : List Switch) (arguments : List String) : Except Halt Given := do
  match ← takeLevel switches [] arguments with
  | (given, none) => .ok given
  | (_, some _) => .error .usage

def ofValidate (given : Given) : Command := .validate (given.values "input") (given.lookup "dir")

def ofGenerate (given : Given) : Except Halt Command :=
  match given.lookup "lang" with
  | none => .error .usage
  | some lang =>
    .ok (.generate ⟨lang, given.lookup "input", given.lookup "out", given.has "strict"⟩
      ((given.lookup "root").getD ".") (given.lookup "config"))

/-- A command with the options given before and after it. -/
def invocation (before after : Given) (command : Command) : Invocation where
  format := ((after.lookup "output" <|> before.lookup "output").bind OutputFormat.ofName?).getD .text
  quiet := before.has "quiet" || after.has "quiet"
  verbose := before.has "verbose" || after.has "verbose"
  command

/-- Help can be asked for on a command. -/
def askedHelp (arguments : List String) : Halt :=
  match arguments with
  | [] => .help
  | [topic] => if topic = "validate" ∨ topic = "generate" ∨ topic = "help" then .help else .usage
  | _ => .usage

/-- What a command line asks for. -/
def parse (arguments : List String) : Except Halt Invocation := do
  match ← takeLevel topSwitches [] arguments with
  | (_, none) => .error .usage
  | (before, some ("validate", rest)) =>
    let after ← takeCommand validateSwitches rest
    .ok (invocation before after (ofValidate after))
  | (before, some ("generate", rest)) =>
    let after ← takeCommand generateSwitches rest
    .ok (invocation before after (← ofGenerate after))
  | (_, some ("help", rest)) => .error (askedHelp rest)
  | (_, some _) => .error .usage

end Command

end HighlightGrammar
