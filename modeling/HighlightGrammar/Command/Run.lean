import HighlightGrammar.Command.Basic
import HighlightGrammar.Config.Find
import HighlightGrammar.Json.Printer
import HighlightGrammar.Report

/-!
# Carrying out commands

A command ends with an exit code and with what it has to say on the two output channels.
-/

namespace HighlightGrammar

structure Outcome where
  code : Nat
  output : String
  errors : String
deriving DecidableEq, Repr

namespace Outcome

def ok (output : String) : Outcome := ⟨0, output, ""⟩

def failed (errors : String) : Outcome := ⟨1, "", errors⟩

end Outcome

/-- Texts as lines. -/
def asLines (lines : List String) : String := String.join (lines.map (· ++ "\n"))

namespace Invocation

/-- A failure that is told in one sentence. -/
def failure (invocation : Invocation) (message : String) : Outcome :=
  if invocation.quiet then .failed ""
  else
    match invocation.format with
    | .text => .failed (asLines [message])
    | .json => .failed (asLines [(Json.ofFields [("error", .text message)]).render])

/-- A success, in words or as a value. -/
def success (invocation : Invocation) (words : String) (value : Json) : Outcome :=
  if invocation.quiet then .ok ""
  else
    match invocation.format with
    | .text => .ok (asLines [words])
    | .json => .ok (asLines [value.render])

def diagnosticsJson (diagnostics : List Diagnostic) : Json := .list (diagnostics.map (·.toJson))

/-! ## Validation -/

/-- What is told about a report.  As a value it is told in any case. -/
def reported (invocation : Invocation) (report : Report) : Outcome :=
  if report.isValid then
    invocation.success "IR validation passed."
      (.ofFields [("valid", .bool true), ("checked", .ofNat report.checked)])
  else
    match invocation.format with
    | .text => ⟨1, if invocation.quiet then "" else asLines (report.diagnostics.map (·.line)), ""⟩
    | .json =>
      .failed (asLines [(Json.ofFields [("valid", .bool false), ("checked", .ofNat report.checked),
        ("errors", diagnosticsJson report.diagnostics)]).pretty])

variable {m : Type → Type} [Monad m] [Host m]

def validatePaths (invocation : Invocation) (paths : List String) : m Outcome := do
  if paths.isEmpty then
    return invocation.failure "no IR documents to validate: pass --input or --dir"
  let report ← Report.ofPaths paths
  Host.note (.validatedDocuments report.checked report.diagnostics.length)
  pure (invocation.reported report)

def validate (invocation : Invocation) (inputs : List String) (directory : Option String) : m Outcome := do
  match directory with
  | none => invocation.validatePaths inputs
  | some directory =>
    match ← Report.documentsIn directory with
    | .error cause =>
      pure (invocation.failure ("error reading directory '" ++ directory ++ "': " ++ cause.message))
    | .ok found => invocation.validatePaths (inputs ++ found)

/-! ## Generation -/

def generatedWords : Generated → String
  | .compiled path .. => "Generated " ++ path
  | .copied path template => "Copied " ++ template ++ " to " ++ path

def generatedJson (lang : String) : Generated → Json
  | .compiled path modes breaks =>
    .ofFields [("lang", .text lang), ("output", .text path), ("modes", .ofNat modes),
      ("break_edges", .ofNat breaks)]
  | .copied path template =>
    .ofFields [("lang", .text lang), ("output", .text path), ("template", .text template)]

/-- What is told about a document with problems.  As a value it is told in any case. -/
def refused (invocation : Invocation) (path : String) (diagnostics : List Diagnostic) : Outcome :=
  match invocation.format with
  | .text =>
    if invocation.quiet then .failed ""
    else .failed (asLines (("invalid IR: " ++ path) :: diagnostics.map fun d => "  - " ++ d.line))
  | .json =>
    .failed (asLines [(Json.ofFields [("error", .text "invalid IR"), ("input", .text path),
      ("errors", diagnosticsJson diagnostics)]).pretty])

def generateWith (invocation : Invocation) (request : Request) (config : Config) : m Outcome := do
  match ← (request.run config).run with
  | .ok generated =>
    Host.note (.generated request.lang generated.path)
    pure (invocation.success (generatedWords generated) (generatedJson request.lang generated))
  | .error (.invalid path diagnostics) => pure (invocation.refused path diagnostics)
  | .error e => pure (invocation.failure ("generate failed: " ++ e.message))

def generate (invocation : Invocation) (request : Request) (root : String) (path : Option String) :
    m Outcome := do
  let found ←
    match path with
    | some path => Config.load path root
    | none => Config.discover root
  match found with
  | .error e => pure (invocation.failure e.message)
  | .ok config =>
    Host.note (.readConfig config.outputDir)
    invocation.generateWith request config

def run (invocation : Invocation) : m Outcome :=
  match invocation.command with
  | .validate inputs directory => invocation.validate inputs directory
  | .generate request root config => invocation.generate request root config

end Invocation

namespace Command

def usageText : String := asLines ["Usage: modeweave [OPTIONS] <validate|generate>"]

/-- What is told if there is nothing to carry out. -/
def Halt.outcome : Halt → Outcome
  | .usage => ⟨2, "", usageText⟩
  | .help => .ok usageText
  | .version => .ok (asLines ["modeweave 0.1.0"])

end Command

end HighlightGrammar
