/-!
# Problems with files

What can be wrong with a file or with the path to it, in the words of the system.
-/

namespace Playbook

/-- What is wrong with a file. -/
inductive FileProblem where
  | notFound
  | notDirectory
  | isDirectory
  | alreadyExists
  | nameTooLong
  /-- The path holds a NUL, which no name of a file does. -/
  | nulInPath
  /-- The bytes of the file are no text. -/
  | notText
  /-- What should be a directory to look through is a file. -/
  | notSearchable
  deriving DecidableEq

/-- The message about a file. -/
def FileProblem.message : FileProblem → String
  | .notFound => "No such file or directory (os error 2)"
  | .alreadyExists => "File exists (os error 17)"
  | .notDirectory => "Not a directory (os error 20)"
  | .isDirectory => "Is a directory (os error 21)"
  | .nameTooLong => "File name too long (os error 36)"
  | .nulInPath => "file name contained an unexpected NUL byte"
  | .notText => "stream did not contain valid UTF-8"
  | .notSearchable => "not a directory"

end Playbook
