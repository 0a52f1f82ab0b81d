import Playbook.CommandLine.Run
import Std.Time.Zoned

/-!
# The program

What stands around the command line: the program takes in the arguments and the files under the
working directory and under the paths that the arguments name, gives the runs of the scenarios their
turns, looking at the clock for each of them, prints the lines of the command line and writes the
files that are new or have changed.
-/

namespace Playbook.Program

/-- The path to a place. -/
def pathTo : Place → String
  | "/" :: names => "/" ++ "/".intercalate names
  | [] => "."
  | names => "/".intercalate names

/-- The place that a path names, whatever is there. -/
def placeOf (path : String) : Place :=
  (Path.names path).foldl
    (fun place name ↦
      if name = "." then place else if name = ".." then FileTree.above place else place ++ [name])
    (if Path.isAbsolute path then FileTree.root else [])

/-- Takes in a place and what is under it. What cannot be read is left out, and links to directories
are not followed. -/
partial def gather (tree : FileTree) (place : Place) : IO FileTree := do
  let path := (← IO.currentDir) / pathTo place
  if ← path.isDir then
    let mut tree := tree.put place .directory
    for entry in ← path.readDir do
      let link := (← entry.path.symlinkMetadata).type matches .symlink
      unless link && (← entry.path.isDir) do
        tree ← gather tree (place ++ [entry.fileName])
    return tree
  else
    try return tree.put place (.file (← IO.FS.readBinFile path))
    catch _ => return tree

/-- Takes in the working directory, and for each path the directories on the way and what is under
it. -/
def snapshot (paths : List String) : IO FileTree := do
  let mut tree ← gather {} []
  for place in paths.map placeOf do
    for length in List.range place.length do
      let onTheWay := place.take length
      if ← ((← IO.currentDir) / pathTo onTheWay).isDir then
        tree := tree.put onTheWay .directory
    tree ← gather tree place
  return tree

/-- Writes what a tree has and an older one has not. -/
def save (older newer : FileTree) : IO Unit := do
  for (place, node) in newer.nodes.reverse do
    if older.node? place ≠ some node then
      match node with
      | .directory => IO.FS.createDirAll (pathTo place)
      | .file bytes => IO.FS.writeBinFile (pathTo place) bytes

/-- The moment that a clock shows. -/
def moment? (clock : Std.Time.PlainDateTime) : Option Moment := do
  let date ← Date.of? clock.date.year.toInt clock.date.month.val.toNat clock.date.day.val.toNat
  let time ← Time.of? clock.time.hour.val.toNat clock.time.minute.val.toNat
    clock.time.second.val.toNat clock.time.nanosecond.val.toNat
  return ⟨date, time⟩

/-- The time on the clock, in the local time zone. A clock that cannot be read stands at the start
of 1970. -/
def now : IO Moment :=
  try return (moment? (← Std.Time.PlainDateTime.now)).getD Draw.epoch
  catch _ => return Draw.epoch

/-- A number that nobody can foresee. -/
def entropy : IO UInt32 := do
  return (← IO.getRandomBytes 4).foldl (fun number byte ↦ number * 256 + byte.toUInt32) 0

/-- How the program is called. -/
def usage : String := "usage: playbook [--verbose] run --scenarios-dir DIRECTORY [--config FILE]"

/-- Gives runs turns in the order of a schedule, each with the clock as it is at the time. -/
def work (batch : Batch FileTree) (schedule : List Nat) : IO (Batch FileTree) :=
  schedule.foldlM
    (fun batch place ↦ do
      return batch.take { place, services := .local (← now), entropy := ← entropy })
    batch

/-- Runs the scenarios of a directory. -/
def runDirectory (directory : String) (config : Option String) (tree : FileTree) :
    IO (CommandLine.Outcome × FileTree) := do
  match CommandLine.load tree directory config with
  | .error failure => return (⟨1, failure.lines⟩, tree)
  | .ok (options, scenarios) =>
    let scenarioList := scenarios.map Prod.snd
    let batch ← work (.start scenarioList { options } tree) (Scenario.inOrder 0 scenarioList)
    return (CommandLine.conclude scenarios batch, batch.world)

/-- Does what the arguments ask for, and says how it went. -/
def start (arguments : List String) : IO UInt32 := do
  match CommandLine.request arguments with
  | .help =>
    IO.println usage
    return 0
  | .invalid =>
    IO.eprintln usage
    return 2
  | .run directory config =>
    let before ← snapshot (directory :: config.toList)
    let (outcome, after) ← runDirectory directory config before
    outcome.lines.forM IO.println
    save before after
    return outcome.exit.toUInt32

end Playbook.Program

/-- The program. -/
def main (arguments : List String) : IO UInt32 := Playbook.Program.start arguments
