import Playbook.Data
import Playbook.Scope
import Playbook.Step.Error

/-!
# What steps work with

Steps use three services: a source of random data, a clock and a file system. The type `σ` is the
state of the world around the steps, and the services may change it in any way. A step that computes
something may use up random words and change the world while it does; `Work` is such a computation.
It has no access to the variables it might change.
-/

namespace Playbook

/-- A file system as steps see it. -/
structure FileService (σ : Type) where
  /-- The text of a file. -/
  read : (path : String) → StateM σ (Except StepError String)
  /-- Writes a text to a file. -/
  write : (path text : String) → StateM σ (Except StepError Unit)
  /-- Whether there is a file. -/
  isFile : (path : String) → StateM σ Bool

/-- The services of steps. -/
structure Services (σ : Type) where
  /-- The source of random data. -/
  data : DataSource
  /-- The moment it is. -/
  now : StateM σ Moment
  /-- The file system. -/
  files : FileService σ

/-- What a step works on. -/
structure Stage (σ : Type) where
  /-- The scope. -/
  scope : Scope
  /-- The world. -/
  world : σ

/-- A computation that may fail, and whether it does or not may have used up random words and
changed the world. -/
abbrev Work (σ α : Type) := ExceptT StepError (StateM (Random × σ)) α

namespace Work

variable {σ α : Type}

/-- What has already come of a step. -/
def of (result : Except StepError α) : Work σ α := fun state ↦ (result, state)

/-- What has already come of variables. -/
def ofVariables (result : Except VariableError α) : Work σ α := of (StepError.lift result)

/-- Something drawn from the random words. -/
def draw (draw : Draw α) : Work σ α := fun (random, world) ↦
  let (a, random) := draw random
  (.ok a, random, world)

/-- Something drawn that need not be there. -/
def drawChecked (draw : Random → Except VariableError α × Random) : Work σ α :=
  fun (random, world) ↦
    let (result, random) := draw random
    (StepError.lift result, random, world)

/-- A request to the world. -/
def ask (request : StateM σ α) : Work σ α := fun (random, world) ↦
  let (a, world) := request world
  (.ok a, random, world)

/-- A request to the world that may fail. -/
def askChecked (request : StateM σ (Except StepError α)) : Work σ α := fun (random, world) ↦
  let (result, world) := request world
  (result, random, world)

end Work

namespace Stage

variable {σ : Type}

/-- Does a computation and keeps what it left of the random words and of the world. -/
def run {α : Type} (stage : Stage σ) (work : Work σ α) : Except StepError α × Stage σ :=
  let (result, random, world) := work (stage.scope.random, stage.world)
  (result, { scope := { stage.scope with random }, world })

end Stage
end Playbook
