import Playbook.Text.Blank

/-!
# Kinds

The kinds of values, with their names. A step may name the kinds that a single piece of text can be
read as; dates and collections have steps of their own.
-/

namespace Playbook

/-- The kinds of values. -/
inductive Kind where
  | string
  | int
  | long
  | float
  | double
  | bool
  | dateTime
  | object
  | sequence
  | mapping
  deriving DecidableEq, Repr

namespace Kind

/-- The name of a kind in messages. -/
def name : Kind → String
  | .string => "string"
  | .int => "int"
  | .long => "long"
  | .float => "float"
  | .double => "double"
  | .bool => "bool"
  | .dateTime => "datetime"
  | .object => "object"
  | .sequence => "sequence"
  | .mapping => "mapping"

/-- The kinds with their names in documents. -/
def tags : List (String × Kind) :=
  [("string", .string), ("int", .int), ("long", .long), ("float", .float), ("double", .double),
    ("bool", .bool), ("dateTime", .dateTime), ("object", .object), ("sequence", .sequence),
    ("mapping", .mapping)]

/-- The name of a kind in documents. -/
def tag : Kind → String
  | .dateTime => "dateTime"
  | kind => kind.name

/-- Whether values of a kind hold other values. -/
def isCollection : Kind → Bool
  | .sequence | .mapping => true
  | _ => false

/-- The kinds a step can name. -/
def registry : List Kind := [.int, .string, .double, .bool, .object, .long, .float]

/-- The kind a step means by a name, in any letter case and with blanks around it. -/
def ofName? (name : String) : Option Kind :=
  let wanted := (Text.trim name.toList).map Char.toLower
  registry.find? fun kind ↦ kind.name.toList = wanted

end Kind
end Playbook
