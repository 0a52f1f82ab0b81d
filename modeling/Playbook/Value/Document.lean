import Playbook.Coercion
import Playbook.Json.Reader
import Playbook.Json.Record

/-!
# Values in JSON documents

A value is written as an object with its kind and what it holds; null has nothing to hold. Reading
takes the two members in either order, or a list of the two. What comes before its kind has to wait
for it: it must be meaningful in every part, where otherwise unknown members are passed over.
-/

namespace Playbook.Value

open Json Json.Written

/-! ## Writing -/

/-- The object of a kind and what is held. -/
def tagged (kind : Kind) (payload : Json) : Json :=
  .object [("kind", .string kind.tag), ("value", payload)]

mutual

/-- The JSON form of a value. -/
def toJson : Value → Json
  | .null => .object [("kind", .string "null")]
  | .string s => tagged .string (.string s)
  | .int n => tagged .int (.ofInt32 n)
  | .long n => tagged .long (.ofInt64 n)
  | .float x => tagged .float (.number (.single x))
  | .double x => tagged .double (.number (.double x))
  | .bool b => tagged .bool (.bool b)
  | .dateTime m => tagged .dateTime (.string (String.ofList m.text))
  | .object json => tagged .object json
  | .sequence kind items =>
    tagged .sequence
      (.object [("elementKind", .string kind.tag), ("items", .array (itemsToJson items))])
  | .mapping kind entries =>
    tagged .mapping
      (.object [("valueKind", .string kind.tag), ("entries", .object (entriesToJson entries))])

/-- The JSON forms of the items of a sequence. -/
def itemsToJson : List Value → List Json
  | [] => []
  | item :: rest => toJson item :: itemsToJson rest

/-- The JSON forms of the entries of a mapping. -/
def entriesToJson : List (String × Value) → List (String × Json)
  | [] => []
  | (key, value) :: rest => (key, toJson value) :: entriesToJson rest

end

/-! ## Reading -/

/-- The kinds a value is tagged with. Null has a tag of its own, here none of the kinds. -/
def tags : List (String × Option Kind) :=
  ("null", none) :: Kind.tags.map fun (name, kind) ↦ (name, some kind)

/-- A tag with what is held. -/
structure Tagged where
  /-- The kind, or none for null. -/
  kind : Option Kind
  /-- What is held. -/
  payload : Option Written
  /-- Whether it has waited for its kind. -/
  waited : Bool

/-- The tag at the head of a list: a name or, in what has waited, the position of one. -/
def listTag? (waited : Bool) : Written → Option (Option Kind)
  | .string name => name.bind (Entries.find? tags)
  | .number (some (.whole n _)) =>
    if waited ∧ 0 ≤ n then tags[n.toNat]?.map Prod.snd else none
  | _ => none

/-- The tag of a document with what is held, at most `depth` deep. -/
def tagged? (depth : Nat) (waited : Bool) : Written → Option Tagged
  | .object members => do
    let fields ← fieldsOfMembers? ["kind", "value"] members
    let tag ← fields.find? "kind"
    let payload := fields.find? "value"
    let waits := fields.head?.any fun (name, _) ↦ name = "value"
    if waited || (tag.sound depth && (!waits || payload.all (sound depth))) then
      some ⟨← tag.choice? waited tags, payload, waited || waits⟩
    else none
  | .array [tag, payload] => do some ⟨← listTag? waited tag, some payload, waited⟩
  | _ => none

/-- A moment as documents have it: blanks may stand before the signs that divide it. -/
def moment? : Written → Option Moment
  | .string (some s) =>
    Moment.scan? (Calendar.spacedDate ++ [.blank ' ', .literal 'T'] ++ Calendar.spacedTime)
      s.toList
  | _ => none

/-- The value of a document that holds no other values. -/
def scalar? (depth : Nat) (kind : Kind) (payload : Written) : Option Value :=
  match kind with
  | .string => payload.text?.map .string
  | .int => payload.int32?.map .int
  | .long => payload.int64?.map .long
  | .float => (payload.floating? .single).map .float
  | .double => (payload.floating? .double).map .double
  | .bool => payload.bool?.map .bool
  | .dateTime => (moment? payload).map .dateTime
  | .object => (payload.value? depth).map .object
  | .sequence | .mapping => none

/-- The declared kind of a collection and what it holds, under the given names. -/
def collection? (waited : Bool) (kindName contentName : String) : Written → Option (Kind × Written)
  | .object members => do
    let fields ← fieldsOfMembers? [kindName, contentName] members
    some (← required? fields kindName (choice? waited Kind.tags), ← fields.find? contentName)
  | _ => none

/-- The value of a tag with what is held, at most `depth` deep. What a collection holds is read by
`read?`, if anything may stand as deep as that. -/
def ofTagged? (depth : Nat) (read? : Option (Bool → Written → Option Value)) (tagged : Tagged) :
    Option Value :=
  match tagged.kind, tagged.payload with
  | none, none | none, some .null => some .null
  | some .sequence, some payload => do
    let (kind, content) ← collection? tagged.waited "elementKind" "items" payload
    (content.list? ((← read?) tagged.waited)).map (.sequence kind)
  | some .mapping, some payload => do
    let (kind, content) ← collection? tagged.waited "valueKind" "entries" payload
    (content.dictionary? ((← read?) tagged.waited)).map (.mapping kind)
  | some kind, some payload => scalar? depth kind payload
  | _, _ => none

/-- The value of a document that is at most `depth` deep. -/
def ofWritten? : (depth : Nat) → (waited : Bool) → Written → Option Value
  | 0, _, _ => none
  | depth + 1, waited, document => do
    let tagged ← tagged? depth waited document
    match depth with
    | depth + 2 => ofTagged? (depth + 2) (some (ofWritten? depth)) tagged
    | _ => ofTagged? depth none tagged

/-- The value a text writes. -/
def ofJsonText? (text : String) : Option Value :=
  (Written.read? text.toList).bind (ofWritten? maxDepth false)

/-- The text that writes a value. -/
def toJsonText (value : Value) : String := value.toJson.render

end Playbook.Value
