/-!
# Faults of the file system

What the operating system answers when a call on a file fails.
-/

namespace PublisherConsole.Storage

/-- The cause of a failed call. -/
inductive SystemFault
  | noSuchFile
  | fileExists
  | notDirectory
  | isDirectory
  | notEmpty
  | nameTooLong
  | invalidText
  | invalidName
  | other (text : String)
  deriving DecidableEq, Repr, Inhabited

/-- The wording of a cause. -/
def SystemFault.message : SystemFault → String
  | .noSuchFile => "No such file or directory (os error 2)"
  | .fileExists => "File exists (os error 17)"
  | .notDirectory => "Not a directory (os error 20)"
  | .isDirectory => "Is a directory (os error 21)"
  | .notEmpty => "Directory not empty (os error 39)"
  | .nameTooLong => "File name too long (os error 36)"
  | .invalidText => "stream did not contain valid UTF-8"
  | .invalidName => "file name contained an unexpected NUL byte"
  | .other text => text

end PublisherConsole.Storage
