import Playbook.Proofs.Absence
import Playbook.Proofs.EntriesMap
import Playbook.Proofs.Stability
import Playbook.Proofs.StepEffect

/-!
# Scopes that grow

What has once been computed from the variables of a scope is computed alike after a new variable has
come into the scope, as long as absent variables are errors: had the computation looked for that
variable, it would have failed where the variable was not yet there. This is a property of what is
computed and not of steps (`Scope.Lasts`). It holds of the few ways in which a step looks at
variables and of what is put together from them.
-/

namespace Playbook

open Outcome

variable {σ ε α β : Type}

namespace Scope

/-- The scope with a value under a name. -/
def grown (scope : Scope) (name : String) (value : Value) : Scope :=
  { scope with store := { scope.store with values := scope.store.values.put name value } }

theorem find?_grown_of_ne (scope : Scope) {name other : String} (value : Value)
    (h : other ≠ name) :
    (scope.grown name value).store.values.find? other = scope.store.values.find? other :=
  Entries.find?_put_of_ne _ _ h

/-- A computation lasts if, where absent variables are errors, what it yields in a scope it yields
as well in the scope with a new variable. -/
def Lasts (compute : Scope → Except ε α) : Prop :=
  ∀ scope : Scope, scope.interpolator.missing = .fail → ∀ a, compute scope = .ok a →
    ∀ name, scope.store.values.find? name = none → ∀ value, compute (scope.grown name value) = .ok a

namespace Lasts

theorem const (result : Except ε α) : Lasts fun _ ↦ result := fun _ _ _ h _ _ _ ↦ h

theorem bind {first : Scope → Except ε α} {next : α → Scope → Except ε β} (hfirst : Lasts first)
    (hnext : ∀ a, Lasts (next a)) : Lasts fun scope ↦ first scope >>= fun a ↦ next a scope := by
  intro scope hfail b h name habsent value
  obtain ⟨a, ha, hb⟩ := bind_eq_ok_iff.mp h
  exact bind_eq_ok_iff.mpr
    ⟨a, hfirst scope hfail a ha name habsent value, hnext a scope hfail b hb name habsent value⟩

theorem lift {compute : Scope → Except VariableError α} (h : Lasts compute) :
    Lasts fun scope ↦ StepError.lift (compute scope) := by
  intro scope hfail a ha name habsent value
  rw [StepError.lift_eq_ok_iff] at ha ⊢
  exact h scope hfail a ha name habsent value

/-- To resolve a text is to look up any variables, but none of them can have been absent. -/
theorem resolve (text : String) : Lasts fun scope ↦ scope.resolve text := by
  intro scope hfail out hout name habsent value
  obtain ⟨hactive, hresolve⟩ := resolveBy_eq_ok_iff.mp hout
  have hnone : scope.store.values.text? name = none := by
    rw [Variables.text?, habsent, Option.map_none]
  have hagree : ∀ other, other ≠ name →
      (scope.grown name value).store.values.text? other = scope.store.values.text? other := by
    intro other hne
    rw [Variables.text?, scope.find?_grown_of_ne value hne, Variables.text?]
  have hfound : scope.interpolator.resolve scope.store.values text.toList ≠
      .error (.notFound name) := by
    intro herror
    rw [hresolve] at herror
    cases herror
  have hrepeats := Interpolator.resolve_repeats hfail hnone hagree text.toList
  exact resolveBy_eq_ok_iff.mpr ⟨hactive, (hrepeats.eq_of_ne hfound).trans hresolve⟩

/-- A computation that looks at a single variable, which has to be there. -/
theorem of_lookup {compute : Scope → Except ε α} (name : String)
    (hsame : ∀ scope scope' : Scope,
      scope'.store.values.find? name = scope.store.values.find? name →
      compute scope' = compute scope)
    (hpresent : ∀ scope a, compute scope = .ok a → scope.store.values.find? name ≠ none) :
    Lasts compute := by
  intro scope _ a ha new habsent value
  have hne : name ≠ new := fun heq ↦ hpresent scope a ha (heq ▸ habsent)
  rw [hsame scope _ (scope.find?_grown_of_ne value hne), ha]

theorem get (name : String) : Lasts fun scope ↦ scope.store.get name := by
  refine of_lookup name (fun scope scope' h ↦ ?_) (fun scope v hv hnone ↦ ?_)
  · rw [Store.get, Store.get, h]
  · rw [Store.get, hnone] at hv
    cases hv

theorem textOf (name : String) (missing : String → FailedAssertion) :
    Lasts fun scope ↦ scope.textOf name missing := by
  refine of_lookup name (fun scope scope' h ↦ ?_) (fun scope text htext ↦ ?_)
  · rw [Scope.textOf, Scope.textOf, Store.requireExists_congr h, Store.text?_congr h]
  · obtain ⟨hexists, -⟩ := then_eq_ok_iff.mp htext
    exact Store.requireExists_eq_ok_iff.mp (StepError.lift_eq_ok_iff.mp hexists)

theorem substituted (name template : String) :
    Lasts fun scope ↦ scope.substituted name template := by
  refine of_lookup name (fun scope scope' h ↦ ?_) (fun scope text htext ↦ ?_)
  · rw [Scope.substituted, Scope.substituted, Store.requireExists_congr h, Store.text?_congr h]
  · obtain ⟨hexists, -⟩ := then_eq_ok_iff.mp htext
    exact Store.requireExists_eq_ok_iff.mp (StepError.lift_eq_ok_iff.mp hexists)

theorem valueToCopy (name : String) : Lasts fun scope ↦ scope.valueToCopy name :=
  .bind (.lift (.get name)) fun _ ↦ .const _

theorem xmlText (xml : String) : Lasts fun scope ↦ scope.xmlText xml :=
  .bind (.lift (.resolve xml)) fun _ ↦ .const _

theorem elementAt (collection index : String) :
    Lasts fun scope ↦ scope.elementAt collection index := by
  refine .bind (.lift (.resolve index)) fun resolved ↦ ?_
  cases Number.index? (Text.trim resolved.toList) with
  | none => exact .const _
  | some position => exact .lift (.bind (.get collection) fun _ ↦ .const _)

end Lasts
end Scope

/-- Whether a scope takes a new variable with a name. -/
structure Scope.Takes (scope : Scope) (name : String) : Prop where
  isActive : scope.isActive
  isOpen : scope.store.closed = false
  absent : scope.store.values.find? name = none
  name_ne : name ≠ ""

/-! ## Stages -/

/-- The stage with a value under a name. -/
def Stage.grown (stage : Stage σ) (name : String) (value : Value) : Stage σ :=
  { stage with scope := stage.scope.grown name value }

namespace StepRun

theorem put_eq_ok_iff {name : String} {v : Value} {stage after : Stage σ} :
    put name v stage = (.ok (), after) ↔
      name ≠ "" ∧ stage.scope.store.closed = false ∧ after = stage.grown name v := by
  unfold put
  cases hset : stage.scope.store.set name v with
  | error e =>
    refine ⟨nofun, fun ⟨hname, hopen, _⟩ ↦ ?_⟩
    rw [Store.set_eq_ok_iff.mpr ⟨hname, hopen, rfl⟩] at hset
    cases hset
  | ok store =>
    obtain ⟨hname, hopen, rfl⟩ := Store.set_eq_ok_iff.mp hset
    exact ⟨fun h ↦ ⟨hname, hopen, (Prod.mk.inj h).2.symm⟩, fun ⟨_, _, h⟩ ↦ h ▸ rfl⟩

section CreateFrom

variable {name : String} {value : Scope → Except StepError Value} {stage after : Stage σ}

/-- In an active scope without the variable it depends on the value alone what comes next. -/
theorem createFrom_of_absent
    (h : stage.scope.isActive ∧ stage.scope.store.values.find? name = none) :
    createFrom name value stage =
      match value stage.scope with
      | .ok v => put name v stage
      | .error e => (.error e, stage) := by
  have hcheck := absent_eq_ok_iff.mpr h
  rcases demand_cases (absent name) (compute (fun scope ↦ Work.of (value scope)) (put name)) stage
    with ⟨e, hfailed, -⟩ | ⟨-, hrun⟩
  · rw [hfailed] at hcheck
    cases hcheck
  · rw [createFrom, create, hrun]
    cases hvalue : value stage.scope with
    | error e => exact compute_of_error _ hvalue
    | ok v => exact compute_of_ok _ hvalue

/-- A value that is computed from the scope alone is stored in an active scope that takes it, and
nothing else changes. -/
theorem createFrom_eq_ok_iff :
    createFrom name value stage = (.ok (), after) ↔
      (stage.scope.isActive ∧ stage.scope.store.values.find? name = none) ∧
        ∃ v, value stage.scope = .ok v ∧
          name ≠ "" ∧ stage.scope.store.closed = false ∧ after = stage.grown name v := by
  by_cases hcheck : stage.scope.isActive ∧ stage.scope.store.values.find? name = none
  · rw [createFrom_of_absent hcheck, and_iff_right hcheck]
    cases hvalue : value stage.scope with
    | error e => exact ⟨fun h ↦ (nomatch (Prod.mk.inj h).1), fun ⟨v, hv, _⟩ ↦ nomatch hv⟩
    | ok v =>
      rw [put_eq_ok_iff]
      refine ⟨fun h ↦ ⟨v, rfl, h⟩, fun ⟨v', hv, h⟩ ↦ ?_⟩
      cases hv
      exact h
  · refine iff_of_false (fun h ↦ ?_) fun h ↦ hcheck h.1
    rcases demand_cases (absent name) (compute (fun scope ↦ Work.of (value scope)) (put name))
      stage with ⟨e, -, hrun⟩ | ⟨hok, -⟩
    · rw [createFrom, create, hrun] at h
      cases h
    · exact hcheck (absent_eq_ok_iff.mp hok)

end CreateFrom

/-- Where a variable is taken, it depends on its value alone whether it is stored. -/
theorem createFrom_of_takes {name : String} {value : Scope → Except StepError Value}
    {stage : Stage σ} (h : stage.scope.Takes name) :
    createFrom name value stage =
      match value stage.scope with
      | .ok v => (.ok (), stage.grown name v)
      | .error e => (.error e, stage) := by
  rw [createFrom_of_absent ⟨h.isActive, h.absent⟩]
  cases value stage.scope with
  | error e => rfl
  | ok v => exact put_eq_ok_iff.mpr ⟨h.name_ne, h.isOpen, rfl⟩

end StepRun

end Playbook
