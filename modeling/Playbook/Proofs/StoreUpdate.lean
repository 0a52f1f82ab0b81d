import Playbook.Scope
import Playbook.Proofs.Outcome

/-!
# Operations on a store

What it takes for an operation on a store to succeed, and what it then leaves: each operation is
taken apart once, so that a proof about a step or about a scope does not open it again.
-/

namespace Playbook

namespace Store

variable {store store' : Store} {name : String} {value : Value}

theorem set_eq_ok_iff :
    store.set name value = .ok store' ↔
      name ≠ "" ∧ store.closed = false ∧
        store' = { store with values := store.values.put name value } := by
  rw [set]
  by_cases hname : name = ""
  · simp [hname]
  · cases hclosed : store.closed
    · simp [hname, eq_comm]
    · simp [hname]

/-- An empty name is refused as such, also by a store that is closed. -/
theorem set_eq_error_iff {e : VariableError} :
    store.set name value = .error e ↔
      (name = "" ∧ e = .emptyName) ∨ (name ≠ "" ∧ store.closed ∧ e = .noActiveScope) := by
  rw [set]
  by_cases hname : name = ""
  · simp [hname, @eq_comm _ e]
  · cases hclosed : store.closed
    · simp [hname]
    · simp [hname, @eq_comm _ e]

theorem contains_iff : store.contains name ↔ store.values.find? name ≠ none := by
  rw [contains, Entries.has, Option.isSome_iff_ne_none]

theorem delete_eq_ok_iff :
    store.delete name = .ok store' ↔
      store.values.find? name ≠ none ∧
        store' = { store with values := store.values.erase name } := by
  rw [delete, ← contains_iff]
  by_cases hcontains : store.contains name
  · simp [hcontains, eq_comm]
  · simp [hcontains]

theorem requireAbsent_eq_ok_iff :
    store.requireAbsent name = .ok () ↔ store.values.find? name = none := by
  rw [requireAbsent, ← not_iff_not, ← ne_eq (store.values.find? name), ← contains_iff]
  by_cases hcontains : store.contains name <;> simp [hcontains]

theorem requireExists_eq_ok_iff :
    store.requireExists name = .ok () ↔ store.values.find? name ≠ none := by
  rw [requireExists, ← contains_iff]
  by_cases hcontains : store.contains name <;> simp [hcontains]

/-! What looks at one variable is the same on stores that agree on it. -/

theorem requireExists_congr (h : store'.values.find? name = store.values.find? name) :
    store'.requireExists name = store.requireExists name := by
  unfold requireExists contains Entries.has
  rw [h]

theorem text?_congr (h : store'.values.find? name = store.values.find? name) :
    store'.text? name = store.text? name := by
  rw [text?, text?, h]

end Store

theorem Scope.requireActive_eq_ok_iff {scope : Scope} :
    scope.requireActive = .ok () ↔ scope.isActive := by
  rw [requireActive]
  by_cases hactive : scope.isActive <;> simp [hactive]

end Playbook
