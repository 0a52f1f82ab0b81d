/-!
# Paths

A path is a text of names with slashes between them. Joining puts one path after another; `names`
are the names on the way, where empty ones stand for nothing. `parts` keeps all that stands between
the slashes, so that the path to a directory on the way is spelled as in the whole path.
-/

namespace Playbook.Path

/-- Whether a path starts at the root. -/
def isAbsolute (path : String) : Bool := path.toList.head? = some '/'

/-- Whether a path ends with a slash, which makes it the path of a directory. -/
def endsWithSlash (path : String) : Bool := path.toList.getLast? = some '/'

/-- A path inside a directory. An absolute path is not inside of anything, and replaces it. -/
def join (directory path : String) : String :=
  if isAbsolute path then path
  else if directory = "" ∨ endsWithSlash directory then directory ++ path
  else directory ++ "/" ++ path

/-- The names in a path. -/
def names (path : String) : List String :=
  ((path.toList.splitOnP (· = '/')).map String.ofList).filter (· ≠ "")

/-- What says where a path starts: a slash for the root, a dot or nothing for the working
directory. -/
def start (path : String) : String :=
  match path.toList with
  | '/' :: _ => "/"
  | ['.'] | '.' :: '/' :: _ => "."
  | _ => ""

/-- What stands between the slashes of a path, after its start. -/
def parts (path : String) : List String :=
  ((path.toList.drop (start path).length).splitOnP (· = '/')).map String.ofList

/-- Whether a part of a path leads nowhere: there is nothing, or a dot for the place it is in. -/
def isIdle (part : String) : Bool := part = "" || part = "."

/-- The parts on the way to what a path leads to, the last one first. -/
def above (path : String) : List String := ((parts path).reverse.dropWhile isIdle).tail

end Playbook.Path
