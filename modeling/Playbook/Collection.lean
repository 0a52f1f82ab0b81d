import Playbook.Variables
import Playbook.Random

/-!
# Taking from collections

A value is taken from the sequence or the mapping in a variable: by its place, by its key or at
random. A draw happens only when there is something to draw from.
-/

namespace Playbook.Variable

variable (v : Variable)

/-- The items of the sequence in a variable. -/
def items : Except VariableError (List Value) :=
  match v.value.items? with
  | some items => .ok items
  | none => .error (.notACollection v.name .sequence)

/-- The entries of the mapping in a variable. -/
def entries : Except VariableError (Entries Value) :=
  match v.value.entries? with
  | some entries => .ok entries
  | none => .error (.notACollection v.name .mapping)

/-- The item at a place, counted from 0. -/
def atIndex (index : Nat) : Except VariableError Value := do
  let items ← v.items
  match items[index]? with
  | some item => .ok item
  | none => .error (.indexOutOfRange v.name index items.length)

/-- The value under a key. -/
def byKey (key : String) : Except VariableError Value := do
  match (← v.entries).find? key with
  | some value => .ok value
  | none => .error (.keyNotFound v.name key)

/-- One of the values of a list at random. -/
def pick (values : List Value) (random : Random) : Except VariableError Value × Random :=
  if values.isEmpty then (.error (.emptyCollection v.name), random)
  else
    let (index, random) := random.index values.length
    match values[index]? with
    | some value => (.ok value, random)
    | none => (.error (.emptyCollection v.name), random)

/-- An item of a sequence at random. -/
def randomItem (random : Random) : Except VariableError Value × Random :=
  match v.items with
  | .ok items => v.pick items random
  | .error e => (.error e, random)

/-- A value of a mapping at random. -/
def randomValue (random : Random) : Except VariableError Value × Random :=
  match v.entries with
  | .ok entries => v.pick (entries.map Prod.snd) random
  | .error e => (.error e, random)

end Playbook.Variable
