import Playbook.VariableError
import Playbook.Json.Printer
import Playbook.Calendar.Format
import Playbook.Text.Search

/-!
# Values

The values of variables. A sequence and a mapping declare one kind for what they hold; the checked
constructors refuse a value of another kind, except that a collection of objects takes anything.
`Value.text` is what a value becomes when it is put into a text.
-/

namespace Playbook

/-- A value. -/
inductive Value where
  | null
  | string (s : String)
  | int (n : Int32)
  | long (n : Int64)
  | float (x : Number.Single)
  | double (x : Number.Double)
  | bool (b : Bool)
  | dateTime (m : Moment)
  | object (json : Json)
  | sequence (elementKind : Kind) (items : List Value)
  | mapping (valueKind : Kind) (entries : List (String × Value))

namespace Value

/-- The kind of a value. Null is an object. -/
def kind : Value → Kind
  | .null | .object _ => .object
  | .string _ => .string
  | .int _ => .int
  | .long _ => .long
  | .float _ => .float
  | .double _ => .double
  | .bool _ => .bool
  | .dateTime _ => .dateTime
  | .sequence _ _ => .sequence
  | .mapping _ _ => .mapping

/-- Whether a value is null. -/
def isNull : Value → Bool
  | .null => true
  | _ => false

/-- The text of a value that is a string. -/
def string? : Value → Option String
  | .string s => some s
  | _ => none

/-- The items of a sequence. -/
def items? : Value → Option (List Value)
  | .sequence _ items => some items
  | _ => none

/-- The entries of a mapping. -/
def entries? : Value → Option (Entries Value)
  | .mapping _ entries => some entries
  | _ => none

/-! ## Collections -/

/-- Whether a value may be in a collection of a kind. -/
def fits (value : Value) (kind : Kind) : Bool := kind = .object || value.kind = kind

/-- The items in order, the first misfit ending it. `place` is the place of the next item. -/
def checkItems (kind : Kind) : (place : Nat) → List Value → Except VariableError Unit
  | _, [] => .ok ()
  | place, item :: rest =>
    if item.fits kind then checkItems kind (place + 1) rest
    else .error (.kindMismatch .sequence (.index place) kind item.kind)

/-- The sequence of the items, if all of them are of the kind. -/
def ofItems (kind : Kind) (items : List Value) : Except VariableError Value := do
  checkItems kind 0 items
  return .sequence kind items

/-- The entries in order, the first misfit ending it. -/
def checkEntries (kind : Kind) : Entries Value → Except VariableError Unit
  | [] => .ok ()
  | (key, value) :: rest =>
    if value.fits kind then checkEntries kind rest
    else .error (.kindMismatch .mapping (.key key) kind value.kind)

/-- The mapping of the entries, if all of their values are of the kind. -/
def ofEntries (kind : Kind) (entries : Entries Value) : Except VariableError Value := do
  checkEntries kind entries
  return .mapping kind entries

/-! ## Texts -/

mutual

/-- The text of a value: nothing for null, the text itself for a string, commas between the items of
a sequence, and a colon between the key and the value of an entry of a mapping. -/
def text : Value → List Char
  | .null => []
  | .string s => s.toList
  | .int n => Number.decimal n.toInt
  | .long n => Number.decimal n.toInt
  | .float x => x.plain
  | .double x => x.plain
  | .bool true => ['t', 'r', 'u', 'e']
  | .bool false => ['f', 'a', 'l', 's', 'e']
  | .dateTime m => m.text
  | .object (.string s) => s.toList
  | .object json => json.compact
  | .sequence _ items => Text.joinWith ',' (itemTexts items)
  | .mapping _ entries => Text.joinWith ',' (entryTexts entries)

/-- The texts of the items of a sequence. -/
def itemTexts : List Value → List (List Char)
  | [] => []
  | item :: rest => text item :: itemTexts rest

/-- The texts of the entries of a mapping. -/
def entryTexts : List (String × Value) → List (List Char)
  | [] => []
  | (key, value) :: rest => (key.toList ++ ':' :: text value) :: entryTexts rest

end

/-- The text of a value as a string. -/
def render (value : Value) : String := String.ofList value.text

/-- The text of a value that is not null. -/
def renderPresent? (value : Value) : Option String :=
  if value.isNull then none else some value.render

end Value

/-- A named value. -/
structure Variable where
  /-- The name. -/
  name : String
  /-- The value. -/
  value : Value

/-- The variable with a name and a value, if the name is one. -/
def Variable.of (name : String) (value : Value) : Except VariableError Variable :=
  if name = "" then .error .emptyName else .ok ⟨name, value⟩

end Playbook
