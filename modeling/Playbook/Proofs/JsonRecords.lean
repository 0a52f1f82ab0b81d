import Playbook.Json.Record
import Playbook.Proofs.JsonReading

/-!
# Records are read back

A record is read by fields, a field by what is read of its kind, so a reader of records undoes a
writer if their parts do. What the fields of a record are does not depend on the order of its
members, and members that are none of them are passed over.
-/

namespace Playbook.Json

open Outcome Written

variable {α : Type} {read? : Written → Option α} {write : α → Json}

/-- What is written for anything is read back as it. -/
abbrev Recovers (read? : Written → Option α) (write : α → Json) : Prop :=
  ∀ a, read? (ofJson (write a)) = some a

/-! ## Single values -/

@[simp] theorem recovers_text : Recovers text? .string := fun _ ↦ rfl

@[simp] theorem recovers_int32 : Recovers int32? .ofInt32 := Playbook.Number.toInt32?_toInt

@[simp] theorem recovers_int64 : Recovers int64? .ofInt64 := Playbook.Number.toInt64?_toInt

@[simp] theorem recovers_uint32 : Recovers uint32? .ofUInt32 := by
  intro n
  rw [ofUInt32, ofJson, uint32?, whole?, Option.bind_some, Playbook.Number.toUInt32?_toNat]

@[simp] theorem recovers_uint64 : Recovers uint64? .ofUInt64 := by
  intro n
  rw [ofUInt64, ofJson, uint64?, whole?, Option.bind_some, Playbook.Number.toUInt64?_toNat]

/-- Choices are read back if a name is the name of one choice only. -/
theorem recovers_choice {choices : List (String × α)} {tag : α → String} (waited : Bool)
    (h : ∀ a, Entries.find? choices (tag a) = some a) :
    Recovers (choice? waited choices) fun a ↦ .string (tag a) := h

/-! ## Composite values -/

theorem optional?_of_ne_null {document : Written} (h : document ≠ .null) :
    optional? read? document = (read? document).map some := by
  cases document with
  | null => exact absurd rfl h
  | _ => rfl

theorem ofJson_ne_null {value : Json} (h : value ≠ .null) : ofJson value ≠ .null := by
  cases value with
  | null => exact absurd rfl h
  | _ => exact fun heq ↦ Written.noConfusion heq

/-- A value that is not written `null` may be missing. -/
theorem Recovers.optional (h : Recovers read? write) (hnull : ∀ a, write a ≠ .null) :
    Recovers (optional? read?) (.ofOption write) := by
  intro value
  cases value with
  | none => rfl
  | some a => rw [ofOption, optional?_of_ne_null (ofJson_ne_null (hnull a)), h a, Option.map_some]

/-- A list is read back if its items are. -/
theorem list?_ofJson {values : List α} (h : ∀ a ∈ values, read? (ofJson (write a)) = some a) :
    list? read? (ofJson (.array (values.map write))) = some values := by
  rw [ofJson, ofItems_eq_map, list?, List.map_map]
  exact mapM_map_eq_some h

theorem Recovers.list (h : Recovers read? write) :
    Recovers (list? read?) fun values ↦ .array (values.map write) :=
  fun _ ↦ list?_ofJson fun a _ ↦ h a

@[simp] theorem recovers_texts : Recovers texts? .ofTexts := recovers_text.list

/-- A dictionary is read back if its values are and its names are different. -/
theorem dictionary?_ofJson {entries : Entries α}
    (h : ∀ entry ∈ entries, read? (ofJson (write entry.2)) = some entry.2)
    (hnames : entries.names.Nodup) :
    dictionary? read? (ofJson (.object (entries.map fun entry ↦ (entry.1, write entry.2)))) =
      some entries := by
  have hmembers : (ofMembers (entries.map fun entry ↦ (entry.1, write entry.2))).mapM
      (member? read?) = some entries := by
    rw [ofMembers_eq_map, List.map_map]
    apply mapM_map_eq_some
    intro entry hentry
    rw [Function.comp_apply, member?, h entry hentry]
    rfl
  rw [ofJson, dictionary?, hmembers, Option.map_some, Entries.ofPairs_eq_self hnames]

theorem nodup_names_of_dictionary? {document : Written} {entries : Entries α}
    (h : dictionary? read? document = some entries) : entries.names.Nodup := by
  cases document with
  | object members =>
    obtain ⟨pairs, -, rfl⟩ := Option.map_eq_some_iff.mp h
    exact Entries.nodup_names_ofPairs pairs
  | _ => cases h

/-! ## What is written plainly -/

section Plain

variable {depth : Nat}

attribute [simp] IsPlain.null IsPlain.bool IsPlain.whole IsPlain.string

@[simp] theorem isPlain_ofInt32 (n : Int32) : IsPlain depth (.ofInt32 n) := .whole _ _

@[simp] theorem isPlain_ofUInt32 (n : UInt32) : IsPlain depth (.ofUInt32 n) := .whole _ _

@[simp] theorem isPlain_ofUInt64 (n : UInt64) : IsPlain depth (.ofUInt64 n) := .whole _ _

theorem isPlain_ofOption (h : ∀ a, IsPlain depth (write a)) (value : Option α) :
    IsPlain depth (.ofOption write value) := by
  cases value with
  | none => exact .null
  | some a => exact h a

theorem isPlain_map (h : ∀ a, IsPlain depth (write a)) (values : List α) :
    IsPlain (depth + 1) (.array (values.map write)) := by
  apply IsPlain.array
  intro item hitem
  obtain ⟨a, -, rfl⟩ := List.mem_map.mp hitem
  exact h a

@[simp] theorem isPlain_ofTexts (texts : List String) : IsPlain (depth + 1) (.ofTexts texts) :=
  isPlain_map .string texts

@[simp] theorem isPlain_optionalText (text : Option String) :
    IsPlain depth (.ofOption .string text) :=
  isPlain_ofOption .string text

end Plain

/-! ## Fields -/

/-- The documents of the members that are fields with these names. -/
def fieldsOf (names : List String) (members : List (String × Json)) : Entries Written :=
  (members.filter fun member ↦ names.contains member.1).map fun member ↦
    (member.1, ofJson member.2)

variable {names : List String} {members : List (String × Json)} {name : String}

theorem fieldsOf_cons (names : List String) (member : String × Json)
    (rest : List (String × Json)) : fieldsOf names (member :: rest) =
      if names.contains member.1 then (member.1, ofJson member.2) :: fieldsOf names rest
      else fieldsOf names rest := by
  rw [fieldsOf, List.filter_cons, fieldsOf]
  split
  · rw [List.map_cons]
  · rfl

theorem find?_fieldsOf (h : name ∈ names) :
    (fieldsOf names members).find? name = (Entries.find? members name).map ofJson := by
  induction members with
  | nil => rfl
  | cons member rest ih =>
    obtain ⟨key, value⟩ := member
    rw [fieldsOf_cons, Entries.find?]
    by_cases hkey : key = name
    · rw [hkey, if_pos (List.contains_iff_mem.mpr h), if_pos rfl, Entries.find?, if_pos rfl,
        Option.map_some]
    · rw [if_neg hkey, ← ih]
      split
      · rw [Entries.find?, if_neg hkey]
      · rfl

theorem fields?_ofJson (names : List String) (h : (members.map Prod.fst).Nodup) :
    fields? names (ofJson (.object members)) = some (fieldsOf names members) := by
  rw [ofJson, ofMembers_eq_map, fields?]
  induction members with
  | nil => rfl
  | cons member rest ih =>
    obtain ⟨key, value⟩ := member
    obtain ⟨hkey, hrest⟩ := List.nodup_cons.mp h
    rw [List.map_cons, fieldsOfMembers?, ih hrest, fieldsOf_cons]
    by_cases hmem : names.contains key
    · -- No other member has the name, so the field is not given twice.
      have hfind : (fieldsOf names rest).find? key = none := by
        rw [find?_fieldsOf (List.contains_iff_mem.mp hmem), Option.map_eq_none_iff,
          Entries.find?_eq_none_iff]
        exact hkey
      have hhas : (fieldsOf names rest).has key = false := by
        rw [Entries.has, hfind, Option.isSome_none]
      simp only [Option.bind_eq_bind, Option.bind_some, if_pos hmem, hhas, Bool.false_eq_true,
        if_false]
    · simp only [Option.bind_eq_bind, Option.bind_some, if_neg hmem]

/-! ### Single fields -/

@[simp] theorem required?_fieldsOf (h : name ∈ names) :
    required? (fieldsOf names members) name read? =
      ((Entries.find? members name).map ofJson).bind read? := by
  rw [required?, find?_fieldsOf h]

@[simp] theorem defaulted?_fieldsOf (default : α) (h : name ∈ names) :
    defaulted? (fieldsOf names members) name default read? =
      match Entries.find? members name with
      | none => some default
      | some value => read? (ofJson value) := by
  rw [defaulted?, find?_fieldsOf h]
  cases Entries.find? members name with
  | none => rfl
  | some value => rfl

end Playbook.Json
