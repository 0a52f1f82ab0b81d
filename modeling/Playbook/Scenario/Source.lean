import Playbook.Scenario.Basic
import Playbook.Scenario.Error
import Playbook.File.Tree

/-!
# Reading scenarios

Scenarios are read from the files of a directory, at any depth, whose names have the scenario
suffix. They go by their paths from there. A scenario without a name takes the one of its file.
-/

namespace Playbook.Scenario

/-- The end of the names of scenario files. -/
def fileSuffix : String := ".scenario.json"

/-- The name of a file without the scenario suffix, if it has it. -/
def stem? (fileName : String) : Option String :=
  let name := fileName.toList
  let suffix := fileSuffix.toList
  if suffix.isSuffixOf name then some (String.ofList (name.take (name.length - suffix.length)))
  else none

/-- The scenario of a file. -/
def read (tree : FileTree) (path : String) : Except ReadError Scenario := do
  let text ← (tree.read path).mapError (.unreadable path)
  match ofJsonText? text with
  | none => .error (.malformed path text)
  | some scenario =>
    if scenario.schemaVersion = currentVersion then .ok scenario
    else .error (.version scenario.schemaVersion currentVersion)

/-- The path scenarios go by: names with slashes between them, in names too. -/
def key (names : List String) : String :=
  String.ofList (("/".intercalate names).toList.map fun c ↦ if c = '\\' then '/' else c)

/-- The scenario of a file in a directory. -/
def readNamed (tree : FileTree) (directory : String) (names : List String) (stem : String) :
    Except ReadError Scenario := do
  let scenario ← read tree (Path.join directory ("/".intercalate names))
  return if scenario.name = "" then { scenario with name := stem } else scenario

/-- The scenario files among nodes, with their names without the suffix. -/
def files (nodes : List (Place × FileNode)) : List (List String × String) :=
  nodes.filterMap fun (names, node) ↦
    match node, names.getLast?.bind stem? with
    | .file _, some stem => some (names, stem)
    | _, _ => none

/-- The scenarios of a directory by their paths, in order. -/
def readDirectory (tree : FileTree) (directory : String) :
    Except ReadError (Entries Scenario) := do
  let node ← (tree.find directory).mapError (.unreadable directory)
  match node, tree.locate directory with
  | .directory, .ok place => do
    let scenarios ← (files (tree.under place)).mapM fun (names, stem) ↦ do
      return (key names, ← readNamed tree directory names stem)
    if scenarios.isEmpty then .error (.empty directory)
    else .ok (Entries.ofPairs scenarios).sorted
  | _, _ => .error (.unreadable directory .notSearchable)

end Playbook.Scenario
