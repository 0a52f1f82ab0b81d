import Playbook.CommandLine.Arguments
import Playbook.Scenario.Batch
import Playbook.Scenario.Source
import Playbook.File.Local

/-!
# The command line

What the command line does: it reads options and scenarios, runs the scenarios together and prints a
line for each of them, then a verdict over all. Every line is a word, a colon and a JSON value or
plain text, so that other programs can read it.
-/

namespace Playbook.CommandLine

/-- What the command line leaves: its exit code and the lines it prints. -/
structure Outcome where
  /-- The exit code. -/
  exit : UInt8
  /-- The lines. -/
  lines : List String
  deriving DecidableEq

/-- What keeps the command line from success. -/
inductive Failure where
  /-- The options cannot be read. -/
  | configUnreadable (path : String) (problem : FileProblem)
  /-- The options are not valid. -/
  | configInvalid (path : String) (error : VariableError)
  /-- The scenarios cannot be read. -/
  | scenarios (directory : String) (error : ReadError)
  /-- Scenarios failed. -/
  | failed (count total : Nat)
  deriving DecidableEq

namespace Failure

/-- The code of a failure. -/
def code : Failure → String
  | .configUnreadable _ _ => "CLI_CONFIG_READ"
  | .configInvalid _ error => error.code
  | .scenarios _ error => error.code
  | .failed _ _ => "CLI_SCENARIOS_FAILED"

/-- The message of a failure: what was being done, what went wrong and what brought it about. -/
def message (failure : Failure) (wording : Wording := {}) : String :=
  match failure with
  | .configUnreadable path problem => s!"reading config {path}: {problem.message}"
  | .configInvalid path error => s!"parsing config {path}: {error.message wording}"
  | .scenarios directory error =>
    s!"loading scenarios from {directory}: {error.message wording}" ++
      match error.cause? wording with
      | some cause => s!": {cause}"
      | none => ""
  | .failed count total =>
    s!"{VariableError.count count} of {VariableError.count total} scenarios failed"

/-- The verdict on a run that failed. -/
def lines (failure : Failure) (wording : Wording := {}) : List String :=
  ["RESULT:ERROR", s!"ERROR_CODE:{failure.code}",
    "ERROR_MSG_JSON:" ++ (Json.string (failure.message wording)).render]

end Failure

/-- What has come of a scenario, what it expects included: the number of its steps, or the code and
the message of what went wrong. -/
def verdict (scenario : Scenario) (result : Except RunError Report) (wording : Wording := {}) :
    Except (String × String) Nat :=
  match result with
  | .error e => .error (e.code, e.message wording)
  | .ok report =>
    match scenario.check report with
    | .ok () => .ok report.steps
    | .error mismatch => .error (mismatch.code, mismatch.message)

/-- The JSON value about a scenario. -/
def record (path : String) (scenario : Scenario) (verdict : Except (String × String) Nat) : Json :=
  .object ([("path", .string path), ("name", .string scenario.name)] ++
    match verdict with
    | .ok steps => [("status", .string "ok"), ("steps", .ofUInt64 (.ofNat steps))]
    | .error (code, message) =>
      [("status", .string "error"), ("errorCode", .string code), ("message", .string message)])

/-- The line about a scenario. -/
def line (path : String) (scenario : Scenario) (verdict : Except (String × String) Nat) : String :=
  "SCENARIO_JSON:" ++ (record path scenario verdict).render

/-- The lines about scenarios that have been run, and the verdict over all. -/
def summary (results : List (String × Scenario × Except RunError Report))
    (wording : Wording := {}) : Outcome :=
  let lines := results.map fun (path, scenario, result) ↦
    line path scenario (verdict scenario result wording)
  let failed := results.countP fun (_, scenario, result) ↦
    !(verdict scenario result wording).toBool
  if failed = 0 then
    ⟨0, lines ++ ["RESULT:OK", s!"SCENARIOS:{VariableError.count results.length}"]⟩
  else ⟨1, lines ++ (Failure.failed failed results.length).lines wording⟩

/-- The options in a file, or the default ones if there is none. -/
def loadOptions (tree : FileTree) : Option String → Except Failure Options
  | none => .ok {}
  | some path => do
    let text ← (tree.read path).mapError (.configUnreadable path)
    (Options.ofJsonText text).mapError (.configInvalid path)

/-- The options and the scenarios of a run. -/
def load (tree : FileTree) (directory : String) (config : Option String) :
    Except Failure (Options × Entries Scenario) := do
  let options ← loadOptions tree config
  let scenarios ← (Scenario.readDirectory tree directory).mapError (.scenarios directory)
  return (options, scenarios)

/-- The outcome of scenarios whose runs are over. -/
def conclude {σ : Type} (scenarios : Entries Scenario) (batch : Batch σ) (wording : Wording := {}) :
    Outcome :=
  summary (scenarios.zip batch.results |>.map fun ((path, scenario), result) ↦
    (path, scenario, result)) wording

/-- Runs the scenarios of a directory. They are read from a tree and run in a world, with any turns
first and then with the services that are given. -/
def runDirectory {σ : Type} (services : Services σ) (turns : List (Turn σ)) (entropy : UInt32)
    (directory : String) (config : Option String) (tree : FileTree) (world : σ)
    (wording : Wording := {}) : Outcome × σ :=
  match load tree directory config with
  | .error failure => (⟨1, failure.lines wording⟩, world)
  | .ok (options, scenarios) =>
    let batch :=
      Batch.runTogether services turns (scenarios.map Prod.snd) { options, entropy } world
    (conclude scenarios batch wording, batch.world)

/-- Does what a command line asks for. After the turns that are given, the clock shows `now`. -/
def run (now : Moment) (entropy : UInt32) (arguments : List String) (tree : FileTree)
    (turns : List (Turn FileTree) := []) (wording : Wording := {}) : Outcome × FileTree :=
  match request arguments with
  | .invalid => (⟨2, []⟩, tree)
  | .help => (⟨0, []⟩, tree)
  | .run directory config =>
    runDirectory (.local now) turns entropy directory config tree tree wording

end Playbook.CommandLine
