import Playbook.Scenario.Run

/-!
# Running scenarios together

Scenarios that are run together have each a thread of its own, with one manager and in one world.
What the threads do is cut into turns: to begin a scope, to run one step, to report on the scope and
to end it are a turn each, and the turns of different threads may come in any order. A *schedule*
lists, turn by turn, the place of the scenario whose run goes on.

From one turn to the next the clock goes on, and other programs work on the files. While a step is
under way the other threads do so too, and it shows in the answers that the step gets. So a turn may
come with services of its own (`Turn`).
-/

namespace Playbook

variable {σ : Type}

/-! ## The turns of a run -/

/-- How far the run of a scenario has come. -/
inductive Progress where
  | waiting
  /-- Its scope has been begun, and the step with the index comes next. -/
  | running (id index : Nat) (rest : List StepCall)
  /-- All that is left to do is to end the scope. -/
  | ending (id : Nat) (result : Except RunError Report)
  /-- Its thread is over. -/
  | done (result : Except RunError Report)

namespace Progress

/-- The number of the scope that a run works in. -/
def handle? : Progress → Option Nat
  | .waiting | .done _ => none
  | .running id _ _ | .ending id _ => some id

/-- What has come of a run that is over. -/
def result? : Progress → Option (Except RunError Report)
  | .done result => some result
  | _ => none

end Progress

namespace Scenario

variable (scenario : Scenario)

/-- The report on a scope, which has to be active still. -/
def reportActive (scope : Scope) : Except RunError Report :=
  match scope.activeStore with
  | .ok _ => .ok (scenario.report scope)
  | .error e => .error (.ofVariable e)

/-- The options of its scope. They are looked at only if they are its own. -/
def scopeOptions (common : Options) : Except VariableError Options :=
  match scenario.options with
  | none => .ok common
  | some options => options.validate.map fun () ↦ options

/-- One turn of a run. If a step panics, the thread is over, and the scope stays as it is. -/
def advance (services : Services σ) : Progress × Manager × σ → Progress × Manager × σ
  | (.waiting, manager, world) =>
    match scenario.scopeOptions manager.options with
    | .error e => (.done (.error (.ofVariable e)), manager, world)
    | .ok options =>
      (.running (manager.startWith options).1 0 scenario.steps,
        (manager.startWith options).2, world)
  | (.running id index rest, manager, world) =>
    match manager.scope? id, rest with
    | none, _ => (.done (.error (.ofVariable .noActiveScope)), manager, world)
    | some scope, [] => (.ending id (scenario.reportActive scope), manager, world)
    | some scope, call :: rest =>
      match call.attempt services ⟨scope, world⟩ with
      | some (.ok (), stage) =>
        (.running id (index + 1) rest, manager.update stage.scope, stage.world)
      | some (.error source, stage) =>
        (.ending id (.error (.step scenario.name index call.stepName source)),
          manager.update stage.scope, stage.world)
      | none => (.done (.error (.panicked scenario.name)), manager, world)
  | (.ending id result, manager, world) => (.done result, manager.finish id, world)
  | (.done result, manager, world) => (.done result, manager, world)

/-- The schedule that gives each scenario all the turns that it can need before the next one, from
a place on. -/
def inOrder : (place : Nat) → List Scenario → List Nat
  | _, [] => []
  | place, scenario :: rest =>
    List.replicate (scenario.steps.length + 3) place ++ inOrder (place + 1) rest

end Scenario

/-! ## Many runs -/

/-- What a turn comes with: the place of the scenario whose run goes on, the services as they are at
the time, and where random words without a seed would start. -/
structure Turn (σ : Type) where
  /-- The place of the scenario. -/
  place : Nat
  /-- The services. -/
  services : Services σ
  /-- Where random words would start. -/
  entropy : UInt32

/-- Runs that share a manager and a world. -/
structure Batch (σ : Type) where
  /-- The manager. -/
  manager : Manager
  /-- The world. -/
  world : σ
  /-- The scenarios, with how far their runs have come. -/
  runs : List (Scenario × Progress)

namespace Batch

/-- Runs that have not begun yet. -/
def start (scenarios : List Scenario) (manager : Manager) (world : σ) : Batch σ where
  manager
  world
  runs := scenarios.map fun scenario ↦ (scenario, .waiting)

/-- A turn of the run in a place, if there is one. -/
def turn (services : Services σ) (batch : Batch σ) (place : Nat) : Batch σ :=
  match batch.runs[place]? with
  | none => batch
  | some (scenario, progress) =>
    let (progress, manager, world) :=
      scenario.advance services (progress, batch.manager, batch.world)
    { manager, world, runs := batch.runs.set place (scenario, progress) }

/-- Turns in the order of a schedule, all with the same services. -/
def follow (services : Services σ) (batch : Batch σ) (schedule : List Nat) : Batch σ :=
  schedule.foldl (turn services) batch

/-- A turn with all that it comes with. -/
def take (batch : Batch σ) (turn : Turn σ) : Batch σ :=
  let manager := { batch.manager with entropy := turn.entropy }
  Batch.turn turn.services { batch with manager } turn.place

/-- The results of the runs that are over, in the order of the scenarios. -/
def results (batch : Batch σ) : List (Except RunError Report) :=
  batch.runs.filterMap fun run ↦ run.2.result?

/-- Runs scenarios together. Their turns come as they do, and the runs that are not over then go on
one after the other, so that all are over in the end. -/
def runTogether (services : Services σ) (turns : List (Turn σ)) (scenarios : List Scenario)
    (manager : Manager) (world : σ) : Batch σ :=
  (turns.foldl take (start scenarios manager world)).follow services (Scenario.inOrder 0 scenarios)

end Batch
end Playbook
