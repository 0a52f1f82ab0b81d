import Playbook.Json.Written
import Playbook.Number.Whole

/-!
# Records in JSON documents

A record is an object whose members are its fields, in any order, or an array of the fields in the
order of their declaration. Members with other names are passed over, whatever they hold, but a
field may be given only once. A reader takes a document to an option: it says nothing about what was
wrong.
-/

namespace Playbook.Json.Written

/-! ## Single values -/

/-- A text. -/
def text? : Written → Option String
  | .string s => s
  | _ => none

/-- A truth value. -/
def bool? : Written → Option Bool
  | .bool b => some b
  | _ => none

/-- A whole number: one written without point and exponent. -/
def whole? : Written → Option Int
  | .number (some (.whole n _)) => some n
  | _ => none

/-- A whole number of 32 bits with a sign. -/
def int32? (document : Written) : Option Int32 := document.whole?.bind Playbook.Number.toInt32?

/-- A whole number of 64 bits with a sign. -/
def int64? (document : Written) : Option Int64 := document.whole?.bind Playbook.Number.toInt64?

/-- A whole number of 32 bits. -/
def uint32? (document : Written) : Option UInt32 := document.whole?.bind Playbook.Number.toUInt32?

/-- A whole number of 64 bits. -/
def uint64? (document : Written) : Option UInt64 := document.whole?.bind Playbook.Number.toUInt64?

/-- A number of a binary format: whole numbers are rounded to it at once, others twice. -/
def floating? (f : Playbook.Number.BinaryFormat) :
    Written → Option (Playbook.Number.Floating f)
  | .number (some (.whole n _)) => some (.ofInt f n)
  | .number (some (.double x)) => some (x.convert f)
  | .number (some (.single x)) => some (x.convert f)
  | _ => none

/-- Whether a document stands for nothing: `null`, and in what has waited for its kind also an
object without members. -/
def isNothing (waited : Bool) : Written → Bool
  | .null => true
  | .object [] => waited
  | _ => false

/-- One of finitely many names, alone or as the only member of an object that holds nothing. -/
def choice? {α : Type} (waited : Bool) (choices : List (String × α)) : Written → Option α
  | .string name => name.bind (Entries.find? choices)
  | .object [(name, held)] =>
    if held.isNothing waited then name.bind (Entries.find? choices) else none
  | _ => none

/-! ## Composite values -/

/-- A value or `null`. -/
def optional? {α : Type} (read? : Written → Option α) : Written → Option (Option α)
  | .null => some none
  | document => (read? document).map some

/-- A list. -/
def list? {α : Type} (read? : Written → Option α) : Written → Option (List α)
  | .array items => items.mapM read?
  | _ => none

/-- A list of texts. -/
def texts? : Written → Option (List String) := list? text?

/-- A dictionary. Of members with the same name the first gives the place and the last the value. -/
def dictionary? {α : Type} (read? : Written → Option α) : Written → Option (Entries α)
  | .object members => (members.mapM (member? read?)).map Entries.ofPairs
  | _ => none

/-! ## Records -/

/-- The fields among the members of an object, each at most once. -/
def fieldsOfMembers? (names : List String) :
    List (Option String × Written) → Option (Entries Written)
  | [] => some []
  | (name, value) :: rest => do
    let name ← name
    let fields ← fieldsOfMembers? names rest
    if names.contains name then
      if fields.has name then none else some ((name, value) :: fields)
    else some fields

/-- The fields of a record with these field names. -/
def fields? (names : List String) : Written → Option (Entries Written)
  | .object members => fieldsOfMembers? names members
  | .array items => if items.length ≤ names.length then some (names.zip items) else none
  | _ => none

end Written

open Written

/-- A field that has to be there. -/
def required? {α : Type} (fields : Entries Written) (name : String)
    (read? : Written → Option α) : Option α :=
  (fields.find? name).bind read?

/-- A field that may be left out. -/
def defaulted? {α : Type} (fields : Entries Written) (name : String) (default : α)
    (read? : Written → Option α) : Option α :=
  match fields.find? name with
  | none => some default
  | some document => read? document

/-- A text that has to be there. -/
def textField? (fields : Entries Written) (name : String) : Option String :=
  required? fields name text?

/-- A text that may be left out, or be `null`. -/
def optionalTextField? (fields : Entries Written) (name : String) : Option (Option String) :=
  defaulted? fields name none (optional? text?)

end Playbook.Json
