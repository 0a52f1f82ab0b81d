import Playbook.File.Path
import Playbook.File.Problem

/-!
# File trees

Files and directories by the places they are in. A place is a list of names: first one that says
where the path starts, if it is not the working directory, then the names on the way. Paths are
walked name by name, and every name but the last has to be one of a directory. What is above the
working directory is unknown; it is taken to be empty.
-/

namespace Playbook

/-- What is in a place. -/
inductive FileNode where
  | file (bytes : ByteArray)
  | directory

instance : DecidableEq FileNode
  | .file a, .file b =>
    match ByteArray.instDecidableEq a b with
    | isTrue h => isTrue (congrArg FileNode.file h)
    | isFalse h => isFalse fun same ↦ h (FileNode.file.inj same)
  | .directory, .directory => isTrue rfl
  | .file _, .directory | .directory, .file _ => isFalse nofun

/-- Where a file is. -/
abbrev Place := List String

/-- The files and directories in the places that have any. -/
structure FileTree where
  /-- The nodes by their places, each place once. -/
  nodes : List (Place × FileNode) := []

namespace FileTree

variable (tree : FileTree)

/-- The place of the root. -/
def root : Place := ["/"]

/-- Whether a place is the working directory, or above it, or the root. -/
def isStart (place : Place) : Bool := place = root || place.all (· = "..")

/-- What is in a place. -/
def node? (place : Place) : Option FileNode :=
  if isStart place then some .directory
  else (tree.nodes.find? fun (other, _) ↦ other = place).map Prod.snd

/-- The tree with a node in a place. -/
def put (place : Place) (node : FileNode) : FileTree :=
  ⟨(place, node) :: tree.nodes.filter fun (other, _) ↦ other ≠ place⟩

/-! ## Walking -/

/-- Names may have this many bytes. -/
def maxName : Nat := 255

/-- Paths have fewer bytes than this. -/
def maxPath : Nat := 4096

/-- The place above another. -/
def above (place : Place) : Place :=
  if place = root then root
  else if place.all (· = "..") then place ++ [".."]
  else place.dropLast

/-- The demand that there be a directory in a place. -/
def requireDirectory (place : Place) : Except FileProblem Unit :=
  match tree.node? place with
  | some .directory => .ok ()
  | some (.file _) => .error .notDirectory
  | none => .error .notFound

/-- The place that names lead to from another one. There need not be anything in it. -/
def walk : (place : Place) → (names : List String) → Except FileProblem Place
  | place, [] => .ok place
  | place, name :: rest => do
    tree.requireDirectory place
    if name = "." then walk place rest
    else if name = ".." then walk (above place) rest
    else if maxName < name.utf8ByteSize then .error .nameTooLong
    else walk (place ++ [name]) rest

/-- The place a path starts in and the names in it. -/
def route (path : String) : Except FileProblem (Place × List String) :=
  if path.toList.contains '\x00' then .error .nulInPath
  else if path = "" then .error .notFound
  else if maxPath ≤ path.utf8ByteSize then .error .nameTooLong
  else .ok (if Path.isAbsolute path then root else [], Path.names path)

/-- The place a path leads to. -/
def locate (path : String) : Except FileProblem Place := do
  let (start, names) ← route path
  tree.walk start names

/-- What a path leads to. A path that ends with a slash leads to a directory. -/
def find (path : String) : Except FileProblem FileNode := do
  let place ← tree.locate path
  match tree.node? place with
  | none => .error .notFound
  | some .directory => .ok .directory
  | some (.file bytes) =>
    if Path.endsWithSlash path then .error .notDirectory else .ok (.file bytes)

/-- Whether a path leads to a file. -/
def isFile (path : String) : Bool :=
  match tree.find path with
  | .ok (.file _) => true
  | _ => false

/-- Whether a path leads to a directory. -/
def isDirectory (path : String) : Bool :=
  match tree.find path with
  | .ok .directory => true
  | _ => false

/-- The text of a file. -/
def read (path : String) : Except FileProblem String := do
  match ← tree.find path with
  | .directory => .error .isDirectory
  | .file bytes =>
    match String.fromUTF8? bytes with
    | some text => .ok text
    | none => .error .notText

/-! ## Writing -/

/-- Makes a directory in a path that leads nowhere yet. -/
def makeDirectory (path : String) : Except FileProblem FileTree := do
  let place ← tree.locate path
  if (tree.node? place).isSome then .error .alreadyExists else .ok (tree.put place .directory)

/-- Makes the directory with the given parts of a path, the last one first, and those above it that
are missing. What has been made when something goes wrong stays made. -/
def makeWay (start : String) : (parts : List String) → FileTree →
    Except FileProblem Unit × FileTree
  | [], tree => (.ok (), tree)
  | part :: above, tree =>
    if Path.isIdle part then makeWay start above tree
    else
      let path := start ++ "/".intercalate (part :: above).reverse
      let settle (tree : FileTree) (problem : FileProblem) : Except FileProblem Unit × FileTree :=
        (if tree.isDirectory path then .ok () else .error problem, tree)
      match tree.makeDirectory path with
      | .ok tree => (.ok (), tree)
      | .error .notFound =>
        match makeWay start above tree with
        | (.error problem, tree) => (.error problem, tree)
        | (.ok (), tree) =>
          match tree.makeDirectory path with
          | .ok tree => (.ok (), tree)
          | .error problem => settle tree problem
      | .error problem => settle tree problem

/-- Makes the directory in a path and those on the way that are missing. -/
def makeDirectories (path : String) : Except FileProblem Unit × FileTree :=
  makeWay (Path.start path) (Path.parts path).reverse tree

/-- Writes bytes to a file, new or old. A path that ends with a slash is one of a directory,
whatever its last name is. -/
def writeBytes (path : String) (bytes : ByteArray) : Except FileProblem FileTree := do
  let (start, names) ← route path
  if Path.endsWithSlash path then
    tree.requireDirectory (← tree.walk start names.dropLast)
    .error .isDirectory
  else
    let place ← tree.walk start names
    match tree.node? place with
    | some .directory => .error .isDirectory
    | _ => .ok (tree.put place (.file bytes))

/-- Writes bytes to a file, and before that makes the directories on the way that are missing. -/
def save (path : String) (bytes : ByteArray) : Except FileProblem Unit × FileTree :=
  match makeWay (Path.start path) (Path.above path) tree with
  | (.error problem, tree) => (.error problem, tree)
  | (.ok (), tree) =>
    match tree.writeBytes path bytes with
    | .ok tree => (.ok (), tree)
    | .error problem => (.error problem, tree)

/-! ## Listing -/

/-- Whether a place comes before another: a directory before what is in it, and names in a directory
in order. -/
def precedes : Place → Place → Bool
  | [], _ => true
  | _ :: _, [] => false
  | a :: as, b :: bs => if a = b then precedes as bs else decide (a < b)

/-- Whether names lead from a place to another one inside of it. Those that start at the root or
above the working directory are not inside of the working directory, whose own place has no name. -/
def leadInside : (names : List String) → Bool
  | [] => false
  | name :: _ => name ≠ "/" && name ≠ ".."

/-- The nodes under a place, their places from there on, in order. -/
def under (place : Place) : List (Place × FileNode) :=
  (tree.nodes.filterMap fun (other, node) ↦
    let names := other.drop place.length
    if place.isPrefixOf other && leadInside names then some (names, node)
    else none).mergeSort fun a b ↦ precedes a.1 b.1

end FileTree
end Playbook
