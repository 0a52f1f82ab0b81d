import Playbook.Kind
import Playbook.Number.Whole
import Playbook.Wording

/-!
# Errors about variables

What can go wrong with variables, their values and the scopes they live in: the causes, a stable
code for each of them and its message.
-/

namespace Playbook

/-- A place in a collection. -/
inductive Position where
  | index (n : Nat)
  | key (name : String)
  deriving DecidableEq

/-- A place as messages show it. -/
def Position.text : Position → String
  | .index n => String.ofList (Number.digits n)
  | .key name => s!"\"{name}\""

/-- What is wrong with options. -/
inductive OptionsProblem where
  /-- The text is no options document. -/
  | malformed (text : String)
  /-- Placeholders need at least one level. -/
  | zeroDepth
  deriving DecidableEq

/-- The message about options. -/
def OptionsProblem.message (problem : OptionsProblem) (wording : Wording := {}) : String :=
  match problem with
  | .malformed text => wording.options text
  | .zeroDepth => "maxInterpolationDepth must be at least 1"

/-- An error about a variable. -/
inductive VariableError where
  | notFound (name : String)
  | alreadyExists (name : String)
  | emptyName
  /-- A text that is none of the target. -/
  | invalidCast (value target : String)
  | unknownKind (name : String)
  /-- Placeholders that lead back to one another, or too many of them in a row. -/
  | circular (chain : List String)
  | emptyCollection (name : String)
  | indexOutOfRange (name : String) (index length : Nat)
  | keyNotFound (name key : String)
  /-- The variable is not of the kind of collection that is expected. -/
  | notACollection (name : String) (expected : Kind)
  /-- A collection of one kind of values holds a value of another kind. -/
  | kindMismatch (collection : Kind) (position : Position) (expected found : Kind)
  | noActiveScope
  | invalidOptions (problem : OptionsProblem)
  deriving DecidableEq

namespace VariableError

/-- The code of an error. -/
def code : VariableError → String
  | .notFound _ => "VAR_NOT_FOUND"
  | .alreadyExists _ => "VAR_EXISTS"
  | .emptyName => "VAR_NAME_EMPTY"
  | .invalidCast _ _ => "INVALID_CAST"
  | .unknownKind _ => "UNKNOWN_KIND"
  | .circular _ => "CIRCULAR_REFERENCE"
  | .emptyCollection _ => "EMPTY_COLLECTION"
  | .indexOutOfRange _ _ _ => "INDEX_OUT_OF_RANGE"
  | .keyNotFound _ _ => "KEY_NOT_FOUND"
  | .notACollection _ _ => "NOT_A_COLLECTION"
  | .kindMismatch _ _ _ _ => "KIND_MISMATCH"
  | .noActiveScope => "NO_ACTIVE_SCOPE"
  | .invalidOptions _ => "INVALID_OPTIONS"

/-- A natural number as messages show it. -/
def count (n : Nat) : String := String.ofList (Number.digits n)

/-- The message of an error. -/
def message (error : VariableError) (wording : Wording := {}) : String :=
  match error with
  | .notFound name => s!"Variable \"{name}\" does not exist."
  | .alreadyExists name => s!"Variable \"{name}\" already exists."
  | .emptyName => "Variable name must not be empty."
  | .invalidCast value target => s!"Value \"{value}\" cannot be converted to {target}."
  | .unknownKind name => s!"There is no type \"{name}\"."
  | .circular chain => "Circular variable reference: " ++ " -> ".intercalate chain ++ "."
  | .emptyCollection name => s!"Collection \"{name}\" is empty."
  | .indexOutOfRange name index length =>
    s!"Index {count index} is out of range for \"{name}\" with length {count length}."
  | .keyNotFound name key => s!"Mapping \"{name}\" has no entry with key \"{key}\"."
  | .notACollection name expected => s!"Variable \"{name}\" is not a {expected.name}."
  | .kindMismatch collection position expected found =>
    s!"Element {position.text} of {collection.name} of {expected.name} is {found.name}, " ++
      s!"expected {expected.name}."
  | .noActiveScope => "No variable scope is active for this execution flow."
  | .invalidOptions problem => s!"Invalid runtime options: {problem.message wording}"

end VariableError
end Playbook
