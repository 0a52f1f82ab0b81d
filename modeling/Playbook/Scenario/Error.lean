import Playbook.Step.Error

/-!
# Errors of scenarios

What can go wrong when scenarios are read, run and compared with what they expect.
-/

namespace Playbook

/-- What can go wrong when scenarios are read. -/
inductive ReadError where
  /-- A file or directory cannot be read. -/
  | unreadable (path : String) (problem : FileProblem)
  /-- A file holds a text that is no scenario. -/
  | malformed (path text : String)
  /-- A scenario is of another version. -/
  | version (found expected : String)
  /-- A directory holds no scenario. -/
  | empty (path : String)
  deriving DecidableEq

namespace ReadError

/-- The code of an error. -/
def code : ReadError → String
  | .unreadable _ _ => "SCENARIO_READ"
  | .malformed _ _ => "SCENARIO_PARSE"
  | .version _ _ => "SCENARIO_SCHEMA"
  | .empty _ => "SCENARIO_SOURCE_EMPTY"

/-- What brought an error about, if it is not all there is to say. -/
def cause? (error : ReadError) (wording : Wording := {}) : Option String :=
  match error with
  | .unreadable _ problem => some problem.message
  | .malformed _ text => some (wording.scenario text)
  | .version _ _ | .empty _ => none

/-- The message of an error. -/
def message (error : ReadError) (wording : Wording := {}) : String :=
  match error with
  | .unreadable path problem => s!"Failed to read file {path}: {problem.message}"
  | .malformed path text => s!"Failed to parse scenario {path}: {wording.scenario text}"
  | .version found expected =>
    s!"Invalid scenario schema version \"{found}\", expected \"{expected}\"."
  | .empty path => s!"No .scenario.json files under {path}."

end ReadError

/-- What can go wrong when a scenario is run. -/
inductive RunError where
  /-- Its options are not valid. -/
  | ofVariable (error : VariableError)
  /-- One of its steps fails. -/
  | step (scenario : String) (index : Nat) (stepName : String) (source : StepError)
  /-- The thread that it was run on panicked. -/
  | panicked (scenario : String)
  deriving DecidableEq

namespace RunError

/-- The code of an error, for a step the one of what went wrong in it. -/
def code : RunError → String
  | .ofVariable error => error.code
  | .step _ _ _ source => source.code
  | .panicked _ => "SCENARIO_PANICKED"

/-- The message of an error. -/
def message (error : RunError) (wording : Wording := {}) : String :=
  match error with
  | .ofVariable error => error.message wording
  | .step scenario index stepName source =>
    s!"Scenario \"{scenario}\" failed at step {VariableError.count index} ({stepName}): " ++
      source.message wording
  | .panicked scenario => s!"Scenario \"{scenario}\" panicked."

end RunError

/-- A variable that has not the text it is expected to have. -/
structure Mismatch where
  /-- The name of the scenario. -/
  scenario : String
  /-- The name of the variable. -/
  name : String
  /-- The text it is expected to have. -/
  expected : String
  /-- The text it has, if it exists. -/
  actual : Option String
  deriving DecidableEq

namespace Mismatch

/-- The code of a mismatch. -/
def code (_ : Mismatch) : String := "VARIABLE_MISMATCH"

/-- The message of a mismatch. -/
def message (mismatch : Mismatch) : String :=
  let actual := match mismatch.actual with
    | some text => s!"\"{text}\""
    | none => "<missing>"
  s!"Scenario \"{mismatch.scenario}\": variable \"{mismatch.name}\" expected " ++
    s!"\"{mismatch.expected}\", actual {actual}."

end Mismatch
end Playbook
