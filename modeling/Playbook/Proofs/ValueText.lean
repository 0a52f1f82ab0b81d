import Playbook.Value.Document
import Playbook.Proofs.JsonRecords
import Playbook.Proofs.MomentText

/-!
# Values are read back

A value is read from the text that is written for it if it has no float and its text does not stand
deeper than texts are read. A value is written as an object that holds what is in it, and what a
collection holds stands in two more levels, so reading an item starts three levels further down.
Nothing waits for its kind, since the kind comes first.
-/

namespace Playbook

/-! ## How deep a document is -/

namespace Json

mutual

/-- How many arrays and objects stand inside one another. -/
def depth : Json → Nat
  | .null => 0
  | .bool _ => 0
  | .number _ => 0
  | .string _ => 0
  | .array items => itemsDepth items + 1
  | .object members => membersDepth members + 1

/-- The depth of the deepest item of an array. -/
def itemsDepth : List Json → Nat
  | [] => 0
  | item :: rest => max (depth item) (itemsDepth rest)

/-- The depth of the deepest member of an object. -/
def membersDepth : List (String × Json) → Nat
  | [] => 0
  | (_, value) :: rest => max (depth value) (membersDepth rest)

end

theorem itemsDepth_le_iff {items : List Json} {n : Nat} :
    itemsDepth items ≤ n ↔ ∀ item ∈ items, item.depth ≤ n := by
  induction items with
  | nil => simp [itemsDepth]
  | cons item rest ih => rw [itemsDepth, Nat.max_le, ih, List.forall_mem_cons]

theorem membersDepth_le_iff {members : List (String × Json)} {n : Nat} :
    membersDepth members ≤ n ↔ ∀ member ∈ members, member.2.depth ≤ n := by
  induction members with
  | nil => simp [membersDepth]
  | cons member rest ih => rw [membersDepth, Nat.max_le, ih, List.forall_mem_cons]

/-- What is plain at some depth is so at any depth that it does not exceed. -/
theorem IsPlain.of_depth_le {d n : Nat} {value : Json} (h : IsPlain d value)
    (hdepth : value.depth ≤ n) : IsPlain n value := by
  induction h generalizing n with
  | null => exact .null
  | bool b => exact .bool b
  | whole m fits => exact .whole m fits
  | string s => exact .string s
  | array _ ih =>
    rw [depth] at hdepth
    obtain ⟨n, rfl⟩ : ∃ m, n = m + 1 := ⟨n - 1, by omega⟩
    have hitems := itemsDepth_le_iff.mp (Nat.le_of_succ_le_succ hdepth)
    exact .array fun item hitem ↦ ih item hitem (hitems item hitem)
  | object hnames _ ih =>
    rw [depth] at hdepth
    obtain ⟨n, rfl⟩ : ∃ m, n = m + 1 := ⟨n - 1, by omega⟩
    have hmembers := membersDepth_le_iff.mp (Nat.le_of_succ_le_succ hdepth)
    exact .object hnames fun member hmember ↦ ih member hmember (hmembers member hmember)

/-- Whether a value has no number with a point, and different names for the members of an object,
however deep it is. -/
def Plain (value : Json) : Prop := IsPlain value.depth value

theorem Plain.array {items : List Json} (h : ∀ item ∈ items, item.Plain) : (array items).Plain :=
  IsPlain.array fun item hitem ↦
    (h item hitem).of_depth_le (itemsDepth_le_iff.mp (Nat.le_refl _) item hitem)

theorem Plain.object {members : List (String × Json)} (hnames : (members.map Prod.fst).Nodup)
    (h : ∀ member ∈ members, member.2.Plain) : (object members).Plain :=
  IsPlain.object hnames fun member hmember ↦
    (h member hmember).of_depth_le (membersDepth_le_iff.mp (Nat.le_refl _) member hmember)

theorem Plain.pair {first second : String} {a b : Json} (hnames : first ≠ second) (ha : a.Plain)
    (hb : b.Plain) : (Json.object [(first, a), (second, b)]).Plain := by
  refine .object ?_ (List.forall_mem_cons.mpr ⟨ha, List.forall_mem_singleton.mpr hb⟩)
  simp [hnames]

end Json

namespace Value

open Json Json.Written

/-! ## Exact values -/

/-- Whether no float is in a value, as itself or inside of an object. The keys of a mapping are
different, and so are the names of the members of an object. -/
inductive IsExact : Value → Prop
  | null : IsExact .null
  | string (s : String) : IsExact (.string s)
  | int (n : Int32) : IsExact (.int n)
  | long (n : Int64) : IsExact (.long n)
  | bool (b : Bool) : IsExact (.bool b)
  | dateTime (m : Moment) : IsExact (.dateTime m)
  | object {json : Json} (h : json.Plain) : IsExact (.object json)
  | sequence (kind : Kind) {items : List Value} (h : ∀ item ∈ items, IsExact item) :
      IsExact (.sequence kind items)
  | mapping (kind : Kind) {entries : Entries Value} (hkeys : entries.names.Nodup)
      (h : ∀ entry ∈ entries, IsExact entry.2) : IsExact (.mapping kind entries)

/-! ## What is written -/

theorem itemsToJson_eq_map (items : List Value) : itemsToJson items = items.map toJson := by
  induction items with
  | nil => rfl
  | cons item rest ih => rw [itemsToJson, ih, List.map_cons]

theorem entriesToJson_eq_map (entries : Entries Value) :
    entriesToJson entries = entries.map fun entry ↦ (entry.1, entry.2.toJson) := by
  induction entries with
  | nil => rfl
  | cons entry rest ih => rw [entriesToJson, ih, List.map_cons]

@[simp] theorem depth_tagged (kind : Kind) (payload : Json) :
    (tagged kind payload).depth = payload.depth + 1 := by
  simp [tagged, Json.depth, membersDepth]

theorem depth_toJson_sequence (kind : Kind) (items : List Value) :
    (Value.sequence kind items).toJson.depth = itemsDepth (items.map toJson) + 3 := by
  simp [toJson, Json.depth, membersDepth, itemsToJson_eq_map]

theorem depth_toJson_mapping (kind : Kind) (entries : Entries Value) :
    (Value.mapping kind entries).toJson.depth =
      membersDepth (entries.map fun entry ↦ (entry.1, entry.2.toJson)) + 3 := by
  simp [toJson, Json.depth, membersDepth, entriesToJson_eq_map]

variable {depth : Nat} {kind : Kind} {payload : Json} {value : Value}

theorem plain_tagged (h : payload.Plain) : (tagged kind payload).Plain :=
  .pair (by decide) (.string kind.tag) h

/-- What is written for an exact value is plain. -/
theorem IsExact.plain_toJson (h : value.IsExact) : value.toJson.Plain := by
  induction h with
  | null => exact .object (by simp) (List.forall_mem_singleton.mpr (.string _))
  | string s => exact plain_tagged (.string s)
  | int n => exact plain_tagged (.whole _ _)
  | long n => exact plain_tagged (.whole _ _)
  | bool b => exact plain_tagged (.bool b)
  | dateTime m => exact plain_tagged (.string _)
  | object h => exact plain_tagged h
  | sequence kind _ ih =>
    rw [toJson, itemsToJson_eq_map]
    refine plain_tagged (.pair (by decide) (.string kind.tag) (.array fun item hitem ↦ ?_))
    obtain ⟨value, hvalue, rfl⟩ := List.mem_map.mp hitem
    exact ih value hvalue
  | @mapping kind entries hkeys _ ih =>
    rw [toJson, entriesToJson_eq_map]
    refine plain_tagged (.pair (by decide) (.string kind.tag)
      (.object ?_ fun member hmember ↦ ?_))
    · rwa [List.map_map]
    · obtain ⟨entry, hentry, rfl⟩ := List.mem_map.mp hmember
      exact ih entry hentry

/-! ## What is read -/

theorem find?_kindTags (kind : Kind) : Entries.find? Kind.tags kind.tag = some kind := by
  cases kind <;> rfl

theorem find?_tags (kind : Kind) : Entries.find? tags kind.tag = some (some kind) := by
  cases kind <;> rfl

/-- Two members with the names of the fields are the fields. -/
theorem fieldsOfMembers?_pair {first second : String} (h : first ≠ second) (a b : Written) :
    fieldsOfMembers? [first, second] [(some first, a), (some second, b)] =
      some [(first, a), (second, b)] := by
  simp [fieldsOfMembers?, Entries.has, Entries.find?, h.symm]

theorem tagged?_tagged (depth : Nat) (kind : Kind) (payload : Json) :
    tagged? depth false (ofJson (tagged kind payload)) =
      some ⟨some kind, some (ofJson payload), false⟩ := by
  have hsound : (Written.string (some kind.tag)).sound depth := sound_ofJson (.string kind.tag)
  have hfields := fieldsOfMembers?_pair (by decide : "kind" ≠ "value") (.string (some kind.tag))
    (ofJson payload)
  rw [tagged, ofJson, ofMembers_eq_map, tagged?]
  simp [ofJson, hfields, Entries.find?, hsound, choice?, find?_tags]

theorem collection?_ofJson {kindName contentName : String} (h : kindName ≠ contentName)
    (kind : Kind) (content : Json) :
    collection? false kindName contentName
      (ofJson (.object [(kindName, .string kind.tag), (contentName, content)])) =
        some (kind, ofJson content) := by
  have hfields := fieldsOfMembers?_pair h (.string (some kind.tag)) (ofJson content)
  rw [ofJson, ofMembers_eq_map, collection?]
  simp [ofJson, hfields, Entries.find?, required?, choice?, find?_kindTags, h]

/-- What no collection holds is read as what is held. -/
theorem ofWritten?_tagged (depth : Nat) (payload : Json) (hkind : kind.isCollection = false) :
    ofWritten? (depth + 1) false (ofJson (tagged kind payload)) =
      scalar? depth kind (ofJson payload) := by
  rw [ofWritten?, tagged?_tagged, Option.bind_eq_bind, Option.bind_some]
  split <;> cases kind <;> first | rfl | cases hkind

theorem ofWritten?_null (depth : Nat) :
    ofWritten? (depth + 1) false (ofJson (toJson .null)) = some .null := by
  have hsound : (Written.string (some "null")).sound depth := sound_ofJson (.string "null")
  have htagged : tagged? depth false (ofJson (toJson .null)) = some ⟨none, none, false⟩ := by
    rw [toJson, ofJson, ofMembers_eq_map, tagged?]
    simp [ofJson, fieldsOfMembers?, Entries.has, Entries.find?, hsound, choice?, tags]
  rw [ofWritten?, htagged, Option.bind_eq_bind, Option.bind_some]
  split <;> rfl

/-- What a collection holds is read three levels further down. -/
theorem ofWritten?_add_three (depth : Nat) (kind : Kind) (payload : Json) :
    ofWritten? (depth + 3) false (ofJson (tagged kind payload)) =
      ofTagged? (depth + 2) (some (ofWritten? depth)) ⟨some kind, some (ofJson payload), false⟩ := by
  rw [ofWritten?, tagged?_tagged]
  rfl

theorem ofWritten?_sequence {items : List Value}
    (h : ∀ item ∈ items, ofWritten? depth false (ofJson item.toJson) = some item) :
    ofWritten? (depth + 3) false (ofJson (Value.sequence kind items).toJson) =
      some (.sequence kind items) := by
  have hcollection := collection?_ofJson (by decide : "elementKind" ≠ "items") kind
    (.array (items.map toJson))
  rw [toJson, itemsToJson_eq_map, ofWritten?_add_three, ofTagged?]
  simp only [hcollection, Option.bind_eq_bind, Option.bind_some, list?_ofJson h, Option.map_some]

theorem ofWritten?_mapping {entries : Entries Value} (hkeys : entries.names.Nodup)
    (h : ∀ entry ∈ entries, ofWritten? depth false (ofJson entry.2.toJson) = some entry.2) :
    ofWritten? (depth + 3) false (ofJson (Value.mapping kind entries).toJson) =
      some (.mapping kind entries) := by
  have hcollection := collection?_ofJson (by decide : "valueKind" ≠ "entries") kind
    (.object (entries.map fun entry ↦ (entry.1, entry.2.toJson)))
  rw [toJson, entriesToJson_eq_map, ofWritten?_add_three, ofTagged?]
  simp only [hcollection, Option.bind_eq_bind, Option.bind_some, dictionary?_ofJson h hkeys,
    Option.map_some]

/-- Blanks may stand before the signs of the text of a moment, but none do. -/
theorem moment?_text (m : Moment) :
    moment? (ofJson (.string (String.ofList m.text))) = some m := by
  have hitems : Calendar.spacedDate ++ [.blank ' ', .literal 'T'] ++ Calendar.spacedTime =
      Calendar.momentItems [.blank ' '] := rfl
  rw [ofJson, moment?, String.toList_ofList, hitems, Moment.scan?,
    Calendar.scan?_momentItems (Calendar.passesOver_blank ' '), Option.bind_some,
    Fields.moment_ofMoment]
  rfl

/-- What no collection holds is read at any depth that is not exceeded. -/
theorem ofWritten?_scalar (hdepth : (tagged kind payload).depth ≤ depth)
    (hkind : kind.isCollection = false)
    (hread : ∀ n, payload.depth ≤ n → scalar? n kind (ofJson payload) = some value) :
    ofWritten? depth false (ofJson (tagged kind payload)) = some value := by
  rw [depth_tagged] at hdepth
  obtain ⟨n, rfl⟩ : ∃ n, depth = n + 1 := ⟨depth - 1, by omega⟩
  rw [ofWritten?_tagged n payload hkind]
  exact hread n (Nat.le_of_succ_le_succ hdepth)

/-- What is written for an exact value is read as the value, if it is not too deep. -/
theorem IsExact.ofWritten?_toJson (h : value.IsExact) (hdepth : value.toJson.depth ≤ depth) :
    ofWritten? depth false (ofJson value.toJson) = some value := by
  induction h generalizing depth with
  | null =>
    obtain ⟨n, rfl⟩ : ∃ n, depth = n + 1 := Nat.exists_eq_add_one.mpr hdepth
    exact ofWritten?_null n
  | string s => exact ofWritten?_scalar hdepth rfl fun _ _ ↦ rfl
  | int n =>
    refine ofWritten?_scalar hdepth rfl fun _ _ ↦ ?_
    rw [scalar?, recovers_int32, Option.map_some]
  | long n =>
    refine ofWritten?_scalar hdepth rfl fun _ _ ↦ ?_
    rw [scalar?, recovers_int64, Option.map_some]
  | bool b => exact ofWritten?_scalar hdepth rfl fun _ _ ↦ rfl
  | dateTime m =>
    refine ofWritten?_scalar hdepth rfl fun _ _ ↦ ?_
    rw [scalar?, moment?_text, Option.map_some]
  | object h =>
    refine ofWritten?_scalar hdepth rfl fun n hn ↦ ?_
    rw [scalar?, value?_ofJson (h.of_depth_le hn), Option.map_some]
  | @sequence kind items _ ih =>
    rw [depth_toJson_sequence] at hdepth
    obtain ⟨n, rfl⟩ : ∃ n, depth = n + 3 := ⟨depth - 3, by omega⟩
    have hitems := itemsDepth_le_iff.mp (Nat.le_of_add_le_add_right hdepth)
    exact ofWritten?_sequence fun item hitem ↦
      ih item hitem (hitems _ (List.mem_map_of_mem hitem))
  | @mapping kind entries hkeys _ ih =>
    rw [depth_toJson_mapping] at hdepth
    obtain ⟨n, rfl⟩ : ∃ n, depth = n + 3 := ⟨depth - 3, by omega⟩
    have hentries := membersDepth_le_iff.mp (Nat.le_of_add_le_add_right hdepth)
    exact ofWritten?_mapping hkeys fun entry hentry ↦
      ih entry hentry (hentries _ (List.mem_map_of_mem hentry))

/-- **Values are read back.** A value without floats, however deep it is nested, is read from the
text that is written for it, unless the text stands deeper than texts are read. -/
theorem ofJsonText?_toJsonText (value : Value) (hexact : value.IsExact)
    (hdepth : value.toJson.depth ≤ maxDepth) : ofJsonText? value.toJsonText = some value := by
  have hread := read?_compact (hexact.plain_toJson.of_depth_le hdepth)
  rw [ofJsonText?, toJsonText, Json.render, String.toList_ofList, hread, Option.bind_some,
    hexact.ofWritten?_toJson hdepth]

/-- A mapping of collections, with a leap second before the year 0 and a quote in a key. -/
theorem ofJsonText?_toJsonText_mapping :
    let time : Time := { hour := 23, minute := 59, second := 59, nanosecond := 1500000000 }
    let value : Value := .mapping .object
      [("b\"", .sequence .dateTime [.dateTime ⟨{ year := -5, month := 12, day := 31 }, time⟩]),
        ("a", .object (.object [("z", .array [.null, .ofInt64 (-1)]), ("y", .object [])])),
        ("", .null)]
    ofJsonText? value.toJsonText = some value := by
  intro time value
  have hjson : (Json.object [("z", .array [.null, .ofInt64 (-1)]), ("y", .object [])]).Plain := by
    refine .pair (by decide) (.array ?_) (.object .nil (List.forall_mem_nil _))
    exact List.forall_mem_cons.mpr ⟨.null, List.forall_mem_singleton.mpr (.whole _ _)⟩
  have hexact : value.IsExact := by
    refine .mapping .object (by decide) (List.forall_mem_cons.mpr ⟨.sequence .dateTime
      (List.forall_mem_singleton.mpr (.dateTime _)), List.forall_mem_cons.mpr ⟨.object hjson,
        List.forall_mem_singleton.mpr .null⟩⟩)
  exact ofJsonText?_toJsonText value hexact (by decide)

end Value
end Playbook
