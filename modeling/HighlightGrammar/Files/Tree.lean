import HighlightGrammar.Files.Error
import HighlightGrammar.Files.Path
import HighlightGrammar.SortedMap

/-!
# Trees of files

Files and directories as a map from locations.  A path is followed name by name from the current directory
or from the root; every operation says exactly what stands in its way.
-/

namespace HighlightGrammar

inductive Node where
  | file (content : ByteArray)
  | directory

/-- The names that lead from the root to a place. -/
abbrev Location : Type := List String

structure Files where
  /-- What there is below the root. -/
  nodes : SortedMap Location Node
  /-- The directory where relative paths start. -/
  current : Location

namespace Files

/-- Nothing but an empty current directory. -/
def empty : Files where
  nodes := SortedMap.ofList [(["work"], .directory)]
  current := ["work"]

def node? (files : Files) : Location → Option Node
  | [] => some .directory
  | location => files.nodes.get? location

def put (files : Files) (location : Location) (node : Node) : Files :=
  { files with nodes := files.nodes.insert location node }

def isDirectoryAt (files : Files) (location : Location) : Bool :=
  match files.node? location with
  | some .directory => true
  | _ => false

/-! ## Following paths -/

/-- The names of a path, without those that are empty. -/
def namesOf (path : String) : List String :=
  ((Path.segments path.toList).filter (· ≠ [])).map String.ofList

def endsInSlash (path : String) : Bool := path.toList.getLast? == some '/'

/-- The bytes that a name and a path may have. -/
def greatestName : Nat := 255

def greatestPath : Nat := 4095

/-- What can be said against a path before it is followed. -/
def checkPath (path : String) : Except FileError Unit :=
  if path.toList.contains '\x00' then .error .nullInPath
  else if path = "" then .error .missing
  else if greatestPath < path.utf8ByteSize then .error .nameTooLong
  else .ok ()

def checkName (name : String) : Except FileError Unit :=
  if greatestName < name.utf8ByteSize then .error .nameTooLong else .ok ()

/-- Follow names from a place. -/
def walk (files : Files) (place : Location) : List String → Except FileError Location
  | [] => .ok place
  | name :: rest =>
    match files.node? place with
    | none => .error .missing
    | some (.file _) => .error .notDirectory
    | some .directory =>
      if name = "." then files.walk place rest
      else if name = ".." then files.walk place.dropLast rest
      else
        match checkName name with
        | .error e => .error e
        | .ok () =>
          if (files.node? (place ++ [name])).isSome then files.walk (place ++ [name]) rest
          else .error .missing

/-- Where a path starts. -/
def startOf (files : Files) (path : String) : Location := if Path.isAbsolute path then [] else files.current

/-- The place of something that exists.  A slash at the end of a path asks for a directory. -/
def locate (files : Files) (path : String) : Except FileError Location := do
  checkPath path
  let names := namesOf path
  files.walk (files.startOf path) (if endsInSlash path then names ++ ["."] else names)

/-- The directory of something that may not exist, and its name there.  There is no name if the path names
the root, and special names are given as they are. -/
def locateEntry (files : Files) (path : String) : Except FileError (Location × Option String) := do
  checkPath path
  let names := namesOf path
  let directory ← files.walk (files.startOf path) names.dropLast
  if files.isDirectoryAt directory then .ok (directory, names.getLast?) else .error .notDirectory

/-- The special names lead to directories. -/
def isSpecial (name : String) : Bool := name == "." || name == ".."

/-! ## Reading -/

def read (files : Files) (path : String) : Except FileError ByteArray := do
  let place ← files.locate path
  match files.node? place with
  | some (.file content) => .ok content
  | some .directory => .error .isDirectory
  | none => .error .missing

def readText (files : Files) (path : String) : Except FileError String := do
  match String.fromUTF8? (← files.read path) with
  | some text => .ok text
  | none => .error .notText

def isFile (files : Files) (path : String) : Bool :=
  match files.read path with
  | .ok _ => true
  | .error _ => false

def isDirectory (files : Files) (path : String) : Bool :=
  match files.locate path with
  | .ok place => files.isDirectoryAt place
  | .error _ => false

/-- The name of a location in a directory, if it is in it. -/
def nameIn? (directory location : Location) : Option String :=
  match location.drop directory.length with
  | [name] => if location.take directory.length = directory then some name else none
  | _ => none

/-- The names in a directory. -/
def list (files : Files) (path : String) : Except FileError (List String) := do
  let place ← files.locate path
  if files.isDirectoryAt place then .ok (files.nodes.entries.filterMap fun e => nameIn? place e.1)
  else .error .notDirectory

/-- Whether a location lies below a directory. -/
def isBelow (directory location : Location) : Bool :=
  directory.length < location.length && location.take directory.length == directory

/-- Everything below the current directory, relative to it.  Directories end in a slash. -/
def contents (files : Files) : List String :=
  let shown := (files.nodes.entries.filter fun e => isBelow files.current e.1).map fun e =>
    let path := "/".intercalate (e.1.drop files.current.length)
    match e.2 with
    | .file _ => path
    | .directory => path ++ "/"
  shown.mergeSort fun a b => a ≤ b

/-! ## Writing -/

/-- Make a file or give it a new content. -/
def write (files : Files) (path : String) (content : ByteArray) : Except FileError Files := do
  let (directory, name?) ← files.locateEntry path
  match name? with
  | none => .error .isDirectory
  | some name =>
    if isSpecial name || endsInSlash path then .error .isDirectory
    else
      checkName name
      if files.isDirectoryAt (directory ++ [name]) then .error .isDirectory
      else .ok (files.put (directory ++ [name]) (.file content))

/-- Make a directory where nothing is. -/
def makeDirectory (files : Files) (path : String) : Except FileError Files := do
  let (directory, name?) ← files.locateEntry path
  match name? with
  | none => .error .exists
  | some name =>
    if isSpecial name then .error .exists
    else
      checkName name
      if (files.node? (directory ++ [name])).isSome then .error .exists
      else .ok (files.put (directory ++ [name]) .directory)

/-- Remove a file, or a directory with everything below it. -/
def remove (files : Files) (path : String) : Except FileError Files := do
  let place ← files.locate path
  .ok { files with nodes := files.nodes.filter fun e => e.1 ≠ place && !isBelow place e.1 }

end Files

end HighlightGrammar
