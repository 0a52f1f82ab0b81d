/-!
# Entries

A finite map from names to values that remembers the order in which the names came first: the
members of a JSON object, the entries of a mapping and the variables of a store. A name that is
written again keeps its place and takes the new value.
-/

namespace Playbook

/-- An association of names with values, in the order of first insertion. -/
abbrev Entries (α : Type) := List (String × α)

namespace Entries

variable {α : Type}

/-- The value under a name. -/
def find? (entries : Entries α) (name : String) : Option α :=
  match entries with
  | [] => none
  | (key, value) :: rest => if key = name then some value else find? rest name

/-- Whether a name has a value. -/
def has (entries : Entries α) (name : String) : Bool := (entries.find? name).isSome

/-- Writes a value: in place under a name that is there, at the end under a new one. -/
def put (entries : Entries α) (name : String) (value : α) : Entries α :=
  match entries with
  | [] => [(name, value)]
  | (key, old) :: rest =>
    if key = name then (name, value) :: rest else (key, old) :: put rest name value

/-- Drops the entry of a name. -/
def erase (entries : Entries α) (name : String) : Entries α :=
  match entries with
  | [] => []
  | (key, value) :: rest => if key = name then erase rest name else (key, value) :: erase rest name

/-- The names, in order. -/
def names (entries : Entries α) : List String := entries.map Prod.fst

/-- The entries of a list of pairs: the first occurrence of a name gives its place, the last one
its value. -/
def ofPairs (pairs : List (String × α)) : Entries α :=
  pairs.foldl (fun entries pair ↦ entries.put pair.1 pair.2) []

/-- The entries in increasing order of their names, code point by code point. -/
def sorted (entries : Entries α) : Entries α :=
  entries.mergeSort fun a b ↦ decide (a.1 ≤ b.1)

/-! ## Look-up after an update -/

@[simp] theorem find?_nil (name : String) : find? ([] : Entries α) name = none := rfl

theorem find?_put_self (entries : Entries α) (name : String) (value : α) :
    (entries.put name value).find? name = some value := by
  induction entries with
  | nil => simp [put, find?]
  | cons e rest ih =>
    obtain ⟨key, old⟩ := e
    by_cases h : key = name <;> simp [put, find?, h, ih]

theorem find?_put_of_ne (entries : Entries α) {name other : String} (value : α)
    (h : other ≠ name) : (entries.put name value).find? other = entries.find? other := by
  induction entries with
  | nil => simp [put, find?, Ne.symm h]
  | cons e rest ih =>
    obtain ⟨key, old⟩ := e
    by_cases hk : key = name
    · subst hk; simp [put, find?, Ne.symm h]
    · by_cases ho : key = other
      · subst ho; simp [put, find?, hk]
      · simp [put, find?, hk, ho, ih]

theorem find?_erase_self (entries : Entries α) (name : String) :
    (entries.erase name).find? name = none := by
  induction entries with
  | nil => rfl
  | cons e rest ih =>
    obtain ⟨key, old⟩ := e
    by_cases h : key = name <;> simp [erase, find?, h, ih]

theorem find?_erase_of_ne (entries : Entries α) {name other : String} (h : other ≠ name) :
    (entries.erase name).find? other = entries.find? other := by
  induction entries with
  | nil => rfl
  | cons e rest ih =>
    obtain ⟨key, old⟩ := e
    by_cases hk : key = name
    · subst hk; simp [erase, find?, Ne.symm h, ih]
    · by_cases ho : key = other
      · subst ho; simp [erase, find?, hk]
      · simp [erase, find?, hk, ho, ih]

end Entries
end Playbook
