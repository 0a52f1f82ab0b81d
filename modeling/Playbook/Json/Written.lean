import Playbook.Json.Basic

/-!
# JSON documents as they are written

Between a text and a value stands the document: objects may repeat a name, a number may be too
large and a string may hold half of a surrogate pair. A reader of records looks at the members it
knows and never asks what the others mean, so a document keeps the parts that mean nothing and
`Written.value?` says which documents denote a value.
-/

namespace Playbook.Json

/-- A well-formed document. A number or string is `none` when it follows the grammar but denotes
nothing. -/
inductive Written where
  | null
  | bool (b : Bool)
  | number (n : Option Number)
  | string (s : Option String)
  | array (items : List Written)
  | object (members : List (Option String × Written))

/-- Arrays and objects may stand this deep inside one another. -/
def maxDepth : Nat := 127

namespace Written

/-- A member whose name means something and whose value can be read. -/
def member? {α : Type} (read? : Written → Option α) (member : Option String × Written) :
    Option (String × α) := do
  let name ← member.1
  let value ← read? member.2
  some (name, value)

/-- The value of a document whose arrays and objects stand at most `depth` deep. Of members with
the same name the first gives the place and the last the value. -/
def value? : (depth : Nat) → Written → Option Json
  | _, .null => some .null
  | _, .bool b => some (.bool b)
  | _, .number n => n.map .number
  | _, .string s => s.map .string
  | depth + 1, .array items => (items.mapM (value? depth)).map .array
  | depth + 1, .object members =>
    (members.mapM (member? (value? depth))).map fun pairs ↦ .object (Entries.ofPairs pairs)
  | 0, .array _ | 0, .object _ => none

/-- Whether every part of a document means something and none stands deeper than `depth`. -/
def sound (depth : Nat) (document : Written) : Bool := (value? depth document).isSome

mutual

/-- The document that writes a value member by member. -/
def ofJson : Json → Written
  | .null => .null
  | .bool b => .bool b
  | .number n => .number (some n)
  | .string s => .string (some s)
  | .array items => .array (ofItems items)
  | .object members => .object (ofMembers members)

/-- The documents of the items of an array. -/
def ofItems : List Json → List Written
  | [] => []
  | item :: rest => ofJson item :: ofItems rest

/-- The documents of the members of an object. -/
def ofMembers : List (String × Json) → List (Option String × Written)
  | [] => []
  | (name, value) :: rest => (some name, ofJson value) :: ofMembers rest

end

end Written
end Playbook.Json
