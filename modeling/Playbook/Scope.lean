import Playbook.Interpolator
import Playbook.Random

/-!
# Scopes

A scope is what one run of steps works on: its variables, its way of resolving placeholders and its
random words. A manager begins scopes and ends them, numbers them from 1, and finds a scope that has
not ended by its number. An ended scope has lost its variables and does no work.

That a scope has ended is on record in three places: the scope itself is marked, so that it does no
work; the manager has struck its number off the register, so that it is not found; and its store is
closed, so that whoever took the store before cannot fill it again.
-/

namespace Playbook

/-- The scope of a run. -/
structure Scope where
  /-- The number of the scope. -/
  id : Nat
  /-- How placeholders are resolved. -/
  interpolator : Interpolator
  /-- The random words to come. -/
  random : Random
  /-- The variables. -/
  store : Store := {}
  /-- Whether the scope has ended. -/
  ended : Bool := false

namespace Scope

variable (scope : Scope)

/-- A scope is active until it ends. -/
def isActive : Bool := !scope.ended

/-- Demands that the scope be active. -/
def requireActive : Except VariableError Unit :=
  if scope.isActive then .ok () else .error .noActiveScope

/-- The store, which only an active scope gives away. -/
def activeStore : Except VariableError Store := do
  scope.requireActive
  return scope.store

/-- A text with its placeholders resolved by an interpolator. -/
def resolveBy (interpolator : Interpolator) (text : String) : Except VariableError String := do
  scope.requireActive
  return String.ofList (← interpolator.resolve scope.store.values text.toList)

/-- A text with its placeholders resolved. -/
def resolve (text : String) : Except VariableError String :=
  scope.resolveBy scope.interpolator text

/-- A text with its placeholders resolved, where one without a variable stays as it is. -/
def resolveOrLiteral (text : String) : Except VariableError String :=
  scope.resolveBy scope.interpolator.lenient text

/-- Something drawn from the random words of an active scope, and the scope without these words. -/
def draw {α : Type} (draw : Random → α × Random) : Except VariableError (α × Scope) := do
  scope.requireActive
  let (a, random) := draw scope.random
  return (a, { scope with random })

/-- The scope ended. -/
def finish : Scope := { scope with ended := true, store := scope.store.close }

end Scope

/-- The scopes that were begun together. -/
structure Manager where
  /-- The options of scopes without their own. -/
  options : Options := {}
  /-- Where the random words of scopes without a seed start, each moved by its number. -/
  entropy : UInt32 := 0
  /-- All scopes, ended ones too, in the order they were begun. -/
  scopes : List Scope := []
  /-- The numbers of the scopes that are found. -/
  registered : List Nat := []
  /-- The number of the scope that is begun next. It is taken to be below `2 ^ 64`, as it is until
  so many scopes have been begun. -/
  nextId : Nat := 1

namespace Manager

variable (manager : Manager)

/-- The start of a scope's random words. -/
def seed (options : Options) (id : Nat) : UInt32 :=
  match options.randomSeed with
  | some seed => seed
  | none => manager.entropy ^^^ (UInt32.ofNat id * 0x9e3779b9)

/-- Begins a scope with its own options. The result has the number of the scope. -/
def startWith (options : Options) : Nat × Manager :=
  let id := manager.nextId
  let scope : Scope :=
    { id, interpolator := .ofOptions options, random := ⟨manager.seed options id⟩ }
  (id, { manager with
    scopes := manager.scopes ++ [scope]
    registered := manager.registered.insert id
    nextId := id + 1 })

/-- Begins a scope. -/
def start : Nat × Manager := manager.startWith manager.options

/-- The scope with a number. -/
def scope? (id : Nat) : Option Scope := manager.scopes.find? fun scope ↦ scope.id = id

/-- The manager with a scope put in the place of the one with its number. -/
def update (scope : Scope) : Manager :=
  { manager with
    scopes := manager.scopes.map fun other ↦ if other.id = scope.id then scope else other }

/-- The scope a flow of work belongs to, if it belongs to one that is registered. -/
def current (flow : Option Nat) : Except VariableError Scope :=
  match (flow.filter fun id ↦ manager.registered.contains id).bind manager.scope? with
  | some scope => .ok scope
  | none => .error .noActiveScope

/-- Ends a scope, unless it has ended already. -/
def finish (id : Nat) : Manager :=
  match manager.scope? id with
  | some scope =>
    if scope.ended then manager
    else { manager.update scope.finish with registered := manager.registered.erase id }
  | none => manager

/-- The number of scopes that are registered. -/
def live : Nat := manager.registered.length

end Manager
end Playbook
