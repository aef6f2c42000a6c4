/-!
# Paths

A path is a text.  It begins with an anchor, the root or the marker for the current directory, if it has
one; what follows is divided by slashes.  Between slashes an empty name or a single point says nothing.
Nothing is normalised: joining and taking the parent keep the text as it is written.
-/

namespace HighlightGrammar.Path

/-- Whether a path starts at the root. -/
def isAbsolute (path : String) : Bool := path.toList.head? == some '/'

/-- Append a path to a directory.  An absolute path stands for itself. -/
def join (directory path : String) : String :=
  if isAbsolute path || directory = "" then path
  else if directory.toList.getLast? == some '/' then directory ++ path
  else directory ++ "/" ++ path

/-- The names between the slashes of a text. -/
def segments : List Char → List (List Char)
  | [] => [[]]
  | c :: rest =>
    if c = '/' then [] :: segments rest
    else
      match segments rest with
      | [] => [[c]]
      | first :: others => (c :: first) :: others

/-- A name that does not lead anywhere. -/
def isIdle (name : List Char) : Bool := name == [] || name == ['.']

/-- The anchor of a path and what follows it. -/
def splitAnchor : List Char → List Char × List Char
  | '/' :: rest => (['/'], rest)
  | ['.'] => (['.'], [])
  | '.' :: '/' :: rest => (['.'], '/' :: rest)
  | text => ([], text)

/-- The text of an anchor and the names after it, last one first.  Idle names at the end are left out. -/
def textOf (anchor : List Char) (backward : List (List Char)) : String :=
  String.ofList (anchor ++ ['/'].intercalate (backward.dropWhile isIdle).reverse)

/-- The texts that are left when names are taken off the end, one after another. -/
def ancestorsOf (anchor : List Char) : List (List Char) → List String
  | [] => if anchor = ['.'] then [""] else []
  | name :: before =>
    if isIdle name then ancestorsOf anchor before
    else textOf anchor before :: ancestorsOf anchor before

/-- The directories above a path, the nearest one first. -/
def ancestors (path : String) : List String :=
  let parts := splitAnchor path.toList
  ancestorsOf parts.1 (segments parts.2).reverse

/-- The directory that holds a path. -/
def parent? (path : String) : Option String := (ancestors path).head?

/-- What follows the last point of a file name.  A point at its start does not count. -/
def extension? (name : String) : Option String :=
  let backward := name.toList.reverse
  match backward.dropWhile (· ≠ '.') with
  | '.' :: before =>
    if before.isEmpty || name = ".." then none
    else some (String.ofList (backward.takeWhile (· ≠ '.')).reverse)
  | _ => none

end HighlightGrammar.Path
