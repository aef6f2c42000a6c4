import HighlightGrammar.Command.Run

/-!
# The command line

The host that is the machine, and the program.  Events are told right away if one asks for them.
-/

namespace HighlightGrammar

/-- Work on the machine, which knows whether events are to be told. -/
abbrev Terminal : Type → Type := ReaderT Bool IO

namespace Terminal

/-- Codes of the operating system may come with their sign turned around. -/
def plainCode (code : UInt32) : UInt32 := if 0x80000000 ≤ code then 0 - code else code

/-- The error with a code of the operating system. -/
def errorOfCode (given : UInt32) (details : String) : FileError :=
  let code := plainCode given
  if code = 2 then .missing
  else if code = 17 then .exists
  else if code = 20 then .notDirectory
  else if code = 21 then .isDirectory
  else if code = 36 then .nameTooLong
  else .system code.toNat details

def fileError : IO.Error → FileError
  | .noFileOrDirectory _ code details => errorOfCode code details
  | .alreadyExists _ code details => errorOfCode code details
  | .inappropriateType _ code details => errorOfCode code details
  | .invalidArgument _ code details => errorOfCode code details
  | .permissionDenied _ code details => errorOfCode code details
  | .resourceExhausted _ code details => errorOfCode code details
  | .noSuchThing _ code details => errorOfCode code details
  | .resourceBusy code details => errorOfCode code details
  | .hardwareFault code details => errorOfCode code details
  | .otherError code details => errorOfCode code details
  | e => .system 0 (toString e)

/-- What comes of an action on a path. -/
def attempt {α : Type} (path : String) (action : IO α) : IO (Except FileError α) :=
  if path.toList.contains '\x00' then pure (.error .nullInPath)
  else
    try
      return .ok (← action)
    catch e => return .error (fileError e)

def readBytes (path : String) : IO (Except FileError ByteArray) := attempt path (IO.FS.readBinFile path)

def readText (path : String) : IO (Except FileError String) := do
  match ← readBytes path with
  | .error e => pure (.error e)
  | .ok bytes =>
    match String.fromUTF8? bytes with
    | some text => pure (.ok text)
    | none => pure (.error .notText)

/-- A directory can be told by what comes of reading it. -/
def isDirectory (path : String) : IO Bool := do
  match ← readBytes path with
  | .error .isDirectory => pure true
  | _ => pure false

def isFile (path : String) : IO Bool := do
  match ← readBytes path with
  | .ok _ => pure true
  | .error _ => pure false

def list (path : String) : IO (Except FileError (List String)) :=
  attempt path do
    let directory ← IO.FS.realPath path
    return ((← directory.readDir).map (·.fileName)).toList

instance : Host Terminal where
  readText path := readText path
  writeText path text := attempt path (IO.FS.writeFile path text)
  makeDirectory path := attempt path (IO.FS.createDir path)
  isFile path := isFile path
  isDirectory path := isDirectory path
  list path := list path
  note event := do if ← read then IO.eprintln event.line

end Terminal

/-- Tell what came of a command. -/
def Outcome.tell (outcome : Outcome) : IO UInt32 := do
  IO.print outcome.output
  IO.eprint outcome.errors
  return UInt32.ofNat outcome.code

end HighlightGrammar

open HighlightGrammar in
def main (arguments : List String) : IO UInt32 := do
  match Command.parse arguments with
  | .error halt => halt.outcome.tell
  | .ok invocation =>
    let outcome ← (invocation.run : Terminal Outcome).run invocation.verbose
    outcome.tell
