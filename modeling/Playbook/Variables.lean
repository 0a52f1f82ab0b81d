import Playbook.Value

/-!
# Variables

The variables of a scope and the rules for changing them. A store that is closed has no variables
and takes none.
-/

namespace Playbook

/-- Values by the names of the variables that have them. -/
abbrev Variables := Entries Value

namespace Variables

/-- The text of a variable. -/
def text? (values : Variables) (name : String) : Option (List Char) :=
  (values.find? name).map Value.text

end Variables

/-- The variables of a scope. -/
structure Store where
  /-- The variables. -/
  values : Variables := []
  /-- Whether the store takes no more variables. -/
  closed : Bool := false

namespace Store

variable (store : Store) (name : String)

/-- Gives a variable a value. It may be new, and the value may be of another kind. -/
def set (value : Value) : Except VariableError Store :=
  if name = "" then .error .emptyName
  else if store.closed then .error .noActiveScope
  else .ok { store with values := store.values.put name value }

/-- Whether there is a variable. -/
def contains : Bool := store.values.has name

/-- The variable with a name. -/
def get : Except VariableError Variable :=
  match store.values.find? name with
  | some value => .ok ⟨name, value⟩
  | none => .error (.notFound name)

/-- The text of a variable, if there is one that is not null. -/
def text? : Option String := (store.values.find? name).bind Value.renderPresent?

/-- Removes a variable that is there. -/
def delete : Except VariableError Store :=
  if store.contains name then .ok { store with values := store.values.erase name }
  else .error (.notFound name)

/-- Demands that there be no such variable. -/
def requireAbsent : Except VariableError Unit :=
  if store.contains name then .error (.alreadyExists name) else .ok ()

/-- Demands that there be such a variable. -/
def requireExists : Except VariableError Unit :=
  if store.contains name then .ok () else .error (.notFound name)

/-- Drops all variables and takes no more. -/
def close (_ : Store) : Store := ⟨[], true⟩

end Store
end Playbook
