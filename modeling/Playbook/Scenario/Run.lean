import Playbook.Scenario.Basic
import Playbook.Scenario.Error
import Playbook.Step.Run

/-!
# Running scenarios

A scenario is run in a scope of its own, step by step until one fails, and the scope is ended either
way. Only if a step panics the scope is not ended: the run does not come back, and on a thread of
its own this ends the thread. The report has the texts of the variables in the end; whether they are
the expected ones is another question.
-/

namespace Playbook

/-- What has come of a scenario. -/
structure Report where
  /-- The name of the scenario. -/
  scenario : String
  /-- The number of its steps. -/
  steps : Nat
  /-- The texts of the variables that were left, in the order of their names. -/
  values : Entries String
  deriving DecidableEq

/-- Why steps have not been run to the end. -/
inductive Stop where
  /-- A step has failed. -/
  | failed (index : Nat) (call : StepCall) (source : StepError)
  /-- A step has panicked. -/
  | panicked

namespace StepCall

variable {σ : Type}

/-- Runs steps one after the other up to the first that fails or panics. `index` is the place of the
first one. -/
def runAll (services : Services σ) : (index : Nat) → List StepCall →
    StateM (Stage σ) (Except Stop Unit)
  | _, [] => fun stage ↦ (.ok (), stage)
  | index, call :: rest => fun stage ↦
    match call.attempt services stage with
    | some (.ok (), stage) => runAll services (index + 1) rest stage
    | some (.error source, stage) => (.error (.failed index call source), stage)
    | none => (.error .panicked, stage)

end StepCall

namespace Scenario

variable {σ : Type} (scenario : Scenario)

/-- The report on a scope whose steps are done. -/
def report (scope : Scope) : Report where
  scenario := scenario.name
  steps := scenario.steps.length
  values :=
    Entries.sorted (scope.store.values.map fun (name, value) ↦ (name, value.render))

/-- What comes back from a run whose steps have been run, if anything does. -/
def conclude (outcome : Except Stop Unit) (scope : Scope) : Option (Except RunError Report) :=
  match outcome with
  | .ok () => some (.ok (scenario.report scope))
  | .error (.failed index call source) =>
    some (.error (.step scenario.name index call.stepName source))
  | .error .panicked => none

/-- Runs a scenario in a new scope of a manager, and ends the scope. If a step panics, nothing comes
back, and the scope stays as it is. -/
def attempt (services : Services σ) (manager : Manager) (world : σ) :
    Option (Except RunError Report) × Manager × σ :=
  let options := scenario.options.getD manager.options
  match (if scenario.options.isSome then options.validate else .ok ()) with
  | .error e => (some (.error (.ofVariable e)), manager, world)
  | .ok () =>
    let (id, manager) := manager.startWith options
    match manager.scope? id with
    | none => (some (.error (.ofVariable .noActiveScope)), manager, world)
    | some scope =>
      let (outcome, stage) := StepCall.runAll services 0 scenario.steps { scope, world }
      let result := scenario.conclude outcome stage.scope
      let manager := manager.update stage.scope
      (result, if result.isSome then manager.finish id else manager, stage.world)

/-- What is known of a run on a thread that is over. -/
def joined (result : Option (Except RunError Report)) : Except RunError Report :=
  result.getD (.error (.panicked scenario.name))

/-- Runs a scenario on a thread of its own. -/
def run (services : Services σ) (manager : Manager) (world : σ) :
    Except RunError Report × Manager × σ :=
  let (result, manager, world) := scenario.attempt services manager world
  (scenario.joined result, manager, world)

/-- Runs scenarios one after the other with one manager. -/
def runEach (services : Services σ) : List Scenario → Manager → σ →
    List (Except RunError Report) × Manager × σ
  | [], manager, world => ([], manager, world)
  | scenario :: rest, manager, world =>
    let (result, manager, world) := scenario.run services manager world
    let (results, manager, world) := runEach services rest manager world
    (result :: results, manager, world)

/-- The first of the expected variables that a report has not, or has with another text. -/
def checkAll (report : Report) : Entries String → Except Mismatch Unit
  | [] => .ok ()
  | (name, expected) :: rest =>
    let actual := report.values.find? name
    if actual = some expected then checkAll report rest
    else .error ⟨scenario.name, name, expected, actual⟩

/-- The first expected variable that a report has not, or has with another text. -/
def check (report : Report) : Except Mismatch Unit :=
  scenario.checkAll report scenario.expectedVariables

end Scenario
end Playbook
