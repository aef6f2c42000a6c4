/-!
# File errors

Why a file could not be read, written or made.  The texts are those of the operating system.
-/

namespace HighlightGrammar

inductive FileError where
  | missing
  | exists
  | notDirectory
  | isDirectory
  | nameTooLong
  /-- The path holds a null character. -/
  | nullInPath
  /-- The file is no text. -/
  | notText
  /-- Any other error of the operating system. -/
  | system (code : Nat) (reason : String)
deriving DecidableEq, Repr

namespace FileError

def message : FileError → String
  | .missing => "No such file or directory (os error 2)"
  | .exists => "File exists (os error 17)"
  | .notDirectory => "Not a directory (os error 20)"
  | .isDirectory => "Is a directory (os error 21)"
  | .nameTooLong => "File name too long (os error 36)"
  | .nullInPath => "file name contained an unexpected NUL byte"
  | .notText => "stream did not contain valid UTF-8"
  | .system code reason => reason ++ " (os error " ++ toString code ++ ")"

end FileError

end HighlightGrammar
