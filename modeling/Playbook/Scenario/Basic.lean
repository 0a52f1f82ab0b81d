import Playbook.Options
import Playbook.Step.Document

/-!
# Scenarios

A scenario is a list of steps with the texts its variables are expected to have in the end. It may
have options of its own.
-/

namespace Playbook

/-- A scenario. -/
structure Scenario where
  /-- The version of the form of its document. -/
  schemaVersion : String
  /-- The name. -/
  name : String
  /-- The options it is run with instead of the common ones. -/
  options : Option Options
  /-- The steps. -/
  steps : List StepCall
  /-- The texts of variables in the end. -/
  expectedVariables : Entries String
  deriving DecidableEq

namespace Scenario

open Json Json.Written

/-- The version that is understood. -/
def currentVersion : String := "sv-scenario.v1"

/-- The JSON form of a scenario; expected variables are in the order of their names. -/
def toJson (scenario : Scenario) : Json :=
  .object [("schemaVersion", .string scenario.schemaVersion), ("name", .string scenario.name),
    ("options", .ofOption Options.toJson scenario.options),
    ("steps", .array (scenario.steps.map StepCall.toJson)),
    ("expectedVariables",
      .object (scenario.expectedVariables.sorted.map fun (name, text) ↦ (name, .string text)))]

/-- The scenario of a document; its expected variables are in the order of their names. The steps
stand two levels deep in it. -/
def ofWritten? (document : Written) : Option Scenario := do
  let fields ← document.fields? ["schemaVersion", "name", "options", "steps", "expectedVariables"]
  some {
    schemaVersion := ← textField? fields "schemaVersion"
    name := ← defaulted? fields "name" "" text?
    options := ← defaulted? fields "options" none (optional? Options.ofWritten?)
    steps := ← defaulted? fields "steps" [] (list? (StepCall.ofWritten? (maxDepth - 2)))
    expectedVariables :=
      ← defaulted? fields "expectedVariables" [] fun document ↦
        (document.dictionary? text?).map Entries.sorted }

/-- The scenario a text writes. -/
def ofJsonText? (text : String) : Option Scenario := (Written.read? text.toList).bind ofWritten?

/-- The text that writes a scenario. -/
def toJsonText (scenario : Scenario) : String := scenario.toJson.render

end Scenario
end Playbook
