import Playbook.Step.Run
import Playbook.File.Local
import Playbook.Proofs.StoreUpdate

/-!
# What a step does to the variables

A step either fails, and then the store is what it was, or it succeeds and has done one thing to one
variable: it has made a new one, changed or removed one that was there, or only looked. Which of
these it does, and to which variable, can be read off the call.

Steps are put together from a few forms, and the last thing any of them does is to write the store.
So each form is taken apart once, into a case for every way it can end, and its effect is read off
the cases. A call is then one of the forms. Only the call that writes several files is none of them,
since it writes the store after every file.
-/

namespace Playbook

variable {σ : Type}

/-! ## Effects -/

/-- What a step may do to variables. -/
inductive Effect where
  /-- It makes a variable. -/
  | creates (name : String)
  /-- It gives a variable another value. -/
  | changes (name : String)
  /-- It takes a variable away. -/
  | removes (name : String)
  /-- It does nothing to them. -/
  | keeps
  deriving DecidableEq

/-- Variables agree on all names but one. -/
def Variables.AgreeExcept (name : String) (before after : Variables) : Prop :=
  ∀ other, other ≠ name → after.find? other = before.find? other

/-- Whether an effect leads from variables to others. Every effect has one target, which is absent
or present before and after as the effect says, and all other names are as they were. -/
def Effect.Leads : Effect → (before after : Variables) → Prop
  | .creates name, before, after =>
    before.find? name = none ∧ after.find? name ≠ none ∧ before.AgreeExcept name after
  | .changes name, before, after =>
    before.find? name ≠ none ∧ after.find? name ≠ none ∧ before.AgreeExcept name after
  | .removes name, before, after =>
    before.find? name ≠ none ∧ after.find? name = none ∧ before.AgreeExcept name after
  | .keeps, before, after => after = before

/-- The effect of a call that succeeds. The call that writes several files has none of these. -/
def StepCall.effect? : StepCall → Option Effect
  | .storeText _ name | .storeMultilineText name _ | .storeXmlText name _ | .storeNumber _ name
  | .copyValue _ name | .copyText _ name | .substituteVariable _ _ name
  | .storeSequence name _ | .storeTypedSequence _ name _ | .storeRandomElement _ name
  | .storeElementAt _ _ name | .splitIntoSequence _ _ name
  | .storeMapping name _ | .storeRandomValue _ name | .storeValueByKey _ _ name
  | .storeDate _ _ name | .storeTime _ _ name | .storeDatetime _ _ _ name
  | .storeCurrentDate _ name | .storeRandomDate _ name | .storeShiftedDate _ _ _ _ name
  | .storeRandomText _ _ _ _ name | .storeUuid name | .storeRandomPhone _ name
  | .storeRandomMonth name | .storeRandomWeekday name | .storeRandomEmail _ name
  | .storeRandomIp name | .storeRandomUrl name | .storeFileContent _ name =>
    some (.creates name)
  | .changeVariable name _ | .emptyVariable name => some (.changes name)
  | .deleteVariable name => some (.removes name)
  | .assertText _ _ _ | .assertNull _ | .assertNotNull _ | .assertEmpty _ | .assertNotEmpty _
  | .assertFilesExist _ | .writeVariableToFile _ _ => some .keeps
  | .createFiles _ => none

theorem StepError.lift_eq_ok_iff {α : Type} {result : Except VariableError α} {a : α} :
    StepError.lift result = .ok a ↔ result = .ok a := by
  cases result <;> simp [StepError.lift, Except.mapError]

theorem StepError.lift_eq_error_iff {α : Type} {result : Except VariableError α} {e : StepError} :
    StepError.lift result = .error e ↔ ∃ cause, result = .error cause ∧ e = .ofVariable cause := by
  cases result <;> simp [StepError.lift, Except.mapError, eq_comm]

/-! ## The forms, case by case -/

theorem Work.bind_apply {α β : Type} (work : Work σ α) (next : α → Work σ β)
    (state : Random × σ) :
    (work >>= next) state =
      match work state with
      | (.ok a, after) => next a after
      | (.error e, after) => (.error e, after) := by
  change (match work state with | (result, after) => ExceptT.bindCont next result after) = _
  rcases work state with ⟨e | a, after⟩ <;> rfl

section Inversion

variable {α β : Type} {work : Work σ α} {next : α → Work σ β} {state after : Random × σ}

/-- Two computations succeed one after the other exactly when each of them does. -/
theorem Work.bind_eq_ok_iff {b : β} :
    (work >>= next) state = (.ok b, after) ↔
      ∃ a between, work state = (.ok a, between) ∧ next a between = (.ok b, after) := by
  rw [Work.bind_apply]
  rcases work state with ⟨e | a, between⟩
  · exact ⟨nofun, fun ⟨_, _, h, _⟩ ↦ nomatch h⟩
  · refine ⟨fun h ↦ ⟨a, between, rfl, h⟩, fun ⟨_, _, h, hnext⟩ ↦ ?_⟩
    cases h
    exact hnext

/-- Two computations one after the other fail with the first or, if that succeeds, the second. -/
theorem Work.bind_eq_error_iff {e : StepError} :
    (work >>= next) state = (.error e, after) ↔
      work state = (.error e, after) ∨
        ∃ a between, work state = (.ok a, between) ∧ next a between = (.error e, after) := by
  rw [Work.bind_apply]
  rcases work state with ⟨e' | a, between⟩
  · constructor
    · rintro h
      cases h
      exact .inl rfl
    · rintro (h | ⟨_, _, h, -⟩) <;> cases h
      rfl
  · refine ⟨fun h ↦ .inr ⟨a, between, rfl, h⟩, fun h ↦ ?_⟩
    rcases h with h | ⟨_, _, h, hnext⟩
    · cases h
    · cases h
      exact hnext

theorem Work.of_eq_error_iff {result : Except StepError α} {e : StepError} :
    Work.of result state = (.error e, after) ↔ result = .error e ∧ after = state := by
  rw [of, Prod.mk.injEq, eq_comm (a := state)]

theorem Work.ofVariables_eq_ok_iff {result : Except VariableError α} {a : α} :
    Work.ofVariables result state = (.ok a, after) ↔ result = .ok a ∧ after = state := by
  rw [ofVariables, of, Prod.mk.injEq, StepError.lift_eq_ok_iff, eq_comm (a := state)]

theorem Work.ofVariables_eq_error_iff {result : Except VariableError α} {e : StepError} :
    Work.ofVariables result state = (.error e, after) ↔
      ∃ cause, result = .error cause ∧ e = .ofVariable cause ∧ after = state := by
  rw [ofVariables, of_eq_error_iff, StepError.lift_eq_error_iff]
  exact ⟨fun ⟨⟨cause, hresult, he⟩, hafter⟩ ↦ ⟨cause, hresult, he, hafter⟩,
    fun ⟨cause, hresult, he, hafter⟩ ↦ ⟨⟨cause, hresult, he⟩, hafter⟩⟩

theorem Work.askChecked_eq_iff {request : StateM σ (Except StepError α)}
    {result : Except StepError α} {random random' : Random} {world world' : σ} :
    Work.askChecked request (random, world) = (result, random', world') ↔
      request world = (result, world') ∧ random' = random := by
  rcases hrequest : request world with ⟨answer, left⟩
  simp only [askChecked, hrequest]
  constructor
  · rintro ⟨⟩
    exact ⟨rfl, rfl⟩
  · rintro ⟨⟨⟩, rfl⟩
    rfl

end Inversion

/-- What a stage leaves of a computation is what the computation leaves. -/
theorem Stage.work_eq_of_run_eq {α : Type} {stage after : Stage σ} {work : Work σ α}
    {result : Except StepError α} (h : stage.run work = (result, after)) :
    work (stage.scope.random, stage.world) = (result, after.scope.random, after.world) := by
  cases h
  rfl

/-- A computation without draws changes the world of a stage and nothing else. -/
theorem Stage.run_eq_of_work_eq {α : Type} {stage : Stage σ} {work : Work σ α}
    {result : Except StepError α} {world : σ}
    (h : work (stage.scope.random, stage.world) = (result, stage.scope.random, world)) :
    stage.run work = (result, { stage with world }) := by
  rw [run, h]

namespace StepRun

variable {stage : Stage σ} {name : String} {value : Value}

theorem absent_eq_ok_iff {scope : Scope} :
    absent name scope = .ok () ↔ scope.isActive ∧ scope.store.values.find? name = none := by
  rw [absent, StepError.lift_eq_ok_iff, Outcome.then_eq_ok_iff, Scope.requireActive_eq_ok_iff,
    Store.requireAbsent_eq_ok_iff]

theorem present_eq_ok_iff {scope : Scope} :
    present name scope = .ok () ↔ scope.isActive ∧ scope.store.values.find? name ≠ none := by
  rw [present, StepError.lift_eq_ok_iff, Outcome.then_eq_ok_iff, Scope.requireActive_eq_ok_iff,
    Store.requireExists_eq_ok_iff]

/-- A demand that is not met ends the step where it is. -/
theorem demand_cases (check : Scope → Except StepError Unit) (next : StepRun σ)
    (stage : Stage σ) :
    (∃ e, check stage.scope = .error e ∧ demand check next stage = (.error e, stage)) ∨
      (check stage.scope = .ok () ∧ demand check next stage = next stage) := by
  unfold demand
  cases hcheck : check stage.scope with
  | error e => exact .inl ⟨e, rfl, rfl⟩
  | ok u => exact .inr ⟨rfl, rfl⟩

/-- A computation leaves the store as it is, whether it fails or the step goes on. -/
theorem compute_cases {α : Type} (work : Scope → Work σ α) (next : α → StepRun σ)
    (stage : Stage σ) :
    ∃ after : Stage σ, after.scope.store = stage.scope.store ∧
      ((∃ e, stage.run (work stage.scope) = (.error e, after) ∧
          compute work next stage = (.error e, after)) ∨
        ∃ a, stage.run (work stage.scope) = (.ok a, after) ∧
          compute work next stage = next a after) := by
  refine ⟨(stage.run (work stage.scope)).2, rfl, ?_⟩
  unfold compute
  cases hresult : stage.run (work stage.scope) with
  | mk result after =>
    cases result with
    | error e => exact .inl ⟨e, rfl, rfl⟩
    | ok a => exact .inr ⟨a, rfl, rfl⟩

/-- A look at an active scope is what is computed from it. -/
theorem inspect_of_isActive {work : Scope → Work σ Unit} (h : stage.scope.isActive) :
    inspect work stage = stage.run (work stage.scope) := by
  have hcheck : StepError.lift stage.scope.requireActive = .ok () :=
    StepError.lift_eq_ok_iff.mpr (Scope.requireActive_eq_ok_iff.mpr h)
  simp only [inspect, demand, hcheck, compute]
  rcases stage.run (work stage.scope) with ⟨e | ⟨⟩, after⟩ <;> rfl

section OfScope

variable {α : Type} {result : Scope → Except StepError α} (next : α → StepRun σ)

/-- What comes of the scope alone leaves the stage as it is. -/
theorem compute_of_ok {a : α} (h : result stage.scope = .ok a) :
    compute (fun scope ↦ Work.of (result scope)) next stage = next a stage := by
  have hrun : stage.run (Work.of (result stage.scope)) = (.ok a, stage) := by
    rw [h]
    rfl
  simp only [compute, hrun]

theorem compute_of_error {e : StepError} (h : result stage.scope = .error e) :
    compute (fun scope ↦ Work.of (result scope)) next stage = (.error e, stage) := by
  have hrun : stage.run (Work.of (result stage.scope)) = (.error e, stage) := by
    rw [h]
    rfl
  simp only [compute, hrun]

end OfScope

theorem resolving_of_ok {text resolved : String} (next : String → StepRun σ)
    (h : stage.scope.resolve text = .ok resolved) :
    resolving text next stage = next resolved stage :=
  compute_of_ok next (StepError.lift_eq_ok_iff.mpr h)

theorem resolving_of_error {text : String} (next : String → StepRun σ) {e : VariableError}
    (h : stage.scope.resolve text = .error e) :
    resolving text next stage = (.error (.ofVariable e), stage) :=
  compute_of_error next (StepError.lift_eq_error_iff.mpr ⟨e, h, rfl⟩)

/-- A value is not put into the store because the store refuses it. -/
theorem put_eq_error {e : StepError} {after : Stage σ}
    (h : put name value stage = (.error e, after)) :
    ∃ cause, stage.scope.store.set name value = .error cause ∧ e = .ofVariable cause := by
  unfold put at h
  cases hset : stage.scope.store.set name value with
  | error cause =>
    rw [hset] at h
    cases h
    exact ⟨cause, rfl, rfl⟩
  | ok store =>
    rw [hset] at h
    cases h

/-- Putting a value into the store fails and does nothing, or the value is there. -/
theorem put_cases (name : String) (value : Value) (stage : Stage σ) :
    (∃ e, put name value stage = (.error e, stage)) ∨
      (name ≠ "" ∧ ∃ after : Stage σ, put name value stage = (.ok (), after) ∧
        after.scope.store.values = stage.scope.store.values.put name value) := by
  unfold put
  cases hset : stage.scope.store.set name value with
  | error e => exact .inl ⟨_, rfl⟩
  | ok store =>
    obtain ⟨hname, -, rfl⟩ := Store.set_eq_ok_iff.mp hset
    exact .inr ⟨hname, _, rfl, rfl⟩

/-! ## The effects of the forms -/

/-- Whether an effect on a store may come out like this: after a failure the store is what it was,
and after a success the effect leads from its variables to those there are. -/
def Allows (effect : Effect) (store : Store) (outcome : Except StepError Unit × Stage σ) : Prop :=
  (∀ e, outcome.1 = .error e → outcome.2.scope.store = store) ∧
    (outcome.1 = .ok () → effect.Leads store.values outcome.2.scope.store.values)

/-- A step has an effect if it comes out like that wherever it is run. -/
def Makes (run : StepRun σ) (effect : Effect) : Prop :=
  ∀ stage : Stage σ, Allows effect stage.scope.store (run stage)

section Outcomes

variable {effect : Effect} {store : Store} {e : StepError}

theorem allows_error (h : stage.scope.store = store) : Allows effect store (.error e, stage) :=
  ⟨fun _ _ ↦ h, fun hok ↦ nomatch hok⟩

theorem allows_ok (h : effect.Leads store.values stage.scope.store.values) :
    Allows effect store (.ok (), stage) :=
  ⟨fun _ herror ↦ (nomatch herror), fun _ ↦ h⟩

theorem demand_allows {check : Scope → Except StepError Unit} {next : StepRun σ}
    (h : check stage.scope = .ok () → Allows effect stage.scope.store (next stage)) :
    Allows effect stage.scope.store (demand check next stage) := by
  rcases demand_cases check next stage with ⟨e, -, hrun⟩ | ⟨hcheck, hrun⟩
  · rw [hrun]
    exact allows_error rfl
  · rw [hrun]
    exact h hcheck

theorem compute_allows {α : Type} {work : Scope → Work σ α} {next : α → StepRun σ}
    (h : ∀ a after, after.scope.store = stage.scope.store →
      Allows effect stage.scope.store (next a after)) :
    Allows effect stage.scope.store (compute work next stage) := by
  obtain ⟨after, hstore, ⟨e, -, hrun⟩ | ⟨a, -, hrun⟩⟩ := compute_cases work next stage
  · rw [hrun]
    exact allows_error hstore
  · rw [hrun]
    exact h a after hstore

theorem put_allows (h : effect.Leads stage.scope.store.values
    (stage.scope.store.values.put name value)) :
    Allows effect stage.scope.store (put name value stage) := by
  rcases put_cases name value stage with ⟨e, hrun⟩ | ⟨-, after, hrun, hvalues⟩
  · rw [hrun]
    exact allows_error rfl
  · rw [hrun]
    exact allows_ok (by rwa [hvalues])

end Outcomes

theorem done_makes (result : Except StepError Unit) : (done (σ := σ) result).Makes .keeps :=
  fun _ ↦ ⟨fun _ _ ↦ rfl, fun _ ↦ rfl⟩

/-- A value under a name makes the name present and leaves all others. -/
theorem put_present_and_agree (values : Variables) (name : String) (value : Value) :
    (values.put name value).find? name ≠ none ∧
      values.AgreeExcept name (values.put name value) := by
  rw [Entries.find?_put_self]
  exact ⟨Option.some_ne_none value, fun _ hne ↦ Entries.find?_put_of_ne values value hne⟩

theorem create_makes (name : String) (work : Scope → Work σ Value) :
    (create name work).Makes (.creates name) := by
  intro stage
  refine demand_allows fun hcheck ↦ compute_allows fun value after hstore ↦ ?_
  obtain ⟨-, habsent⟩ := absent_eq_ok_iff.mp hcheck
  -- The work may have drawn numbers and written files, but the name is absent still.
  rw [← hstore] at habsent ⊢
  exact put_allows ⟨habsent, put_present_and_agree _ _ _⟩

theorem replace_makes (name : String) (value : Value) :
    (replace (σ := σ) name value).Makes (.changes name) := by
  intro stage
  refine demand_allows fun hcheck ↦ ?_
  obtain ⟨-, hpresent⟩ := present_eq_ok_iff.mp hcheck
  exact put_allows ⟨hpresent, put_present_and_agree _ _ _⟩

theorem remove_makes (name : String) : (remove (σ := σ) name).Makes (.removes name) := by
  intro stage
  refine demand_allows fun hcheck ↦ ?_
  obtain ⟨-, hpresent⟩ := present_eq_ok_iff.mp hcheck
  cases hdelete : stage.scope.store.delete name with
  | error e => exact allows_error rfl
  | ok store =>
    obtain ⟨-, rfl⟩ := Store.delete_eq_ok_iff.mp hdelete
    exact allows_ok ⟨hpresent, Entries.find?_erase_self _ _,
      fun _ hne ↦ Entries.find?_erase_of_ne _ hne⟩

theorem inspect_makes (work : Scope → Work σ Unit) : (inspect work).Makes .keeps := by
  intro stage
  refine demand_allows fun _ ↦ compute_allows fun _ after hstore ↦ ?_
  rw [← hstore]
  exact done_makes _ after

/-- What is resolved first has no effect of its own. -/
theorem resolving_makes {text : String} {next : String → StepRun σ} {effect : Effect}
    (h : ∀ resolved, (next resolved).Makes effect) : (resolving text next).Makes effect := by
  intro stage
  refine compute_allows fun resolved after hstore ↦ ?_
  rw [← hstore]
  exact h resolved after

end StepRun

/-! ## The effects of calls -/

open StepRun

/-- **A step is one change or none.** A call that fails leaves the variables exactly as they were; a
call that succeeds has done to its one target what its effect says, and nothing to other names. -/
theorem StepCall.run_makes_effect (services : Services σ) (call : StepCall)
    (h : ∀ files, call ≠ .createFiles files) :
    ∃ effect, call.effect? = some effect ∧ (call.run services).Makes effect := by
  cases call with
  | storeTypedSequence kind name table =>
    refine ⟨_, rfl, ?_⟩
    cases hkind : Kind.ofName? kind with
    | none =>
      -- An unknown kind is refused before the name is looked at.
      rw [StepCall.run, hkind]
      exact fun _ ↦ allows_error rfl
    | some kind =>
      rw [StepCall.run, hkind]
      exact create_makes name _
  | changeVariable name value => exact ⟨_, rfl, replace_makes name _⟩
  | emptyVariable name => exact ⟨_, rfl, replace_makes name _⟩
  | deleteVariable name => exact ⟨_, rfl, remove_makes name⟩
  | storeRandomPhone mask name => exact ⟨_, rfl, resolving_makes fun _ ↦ create_makes name _⟩
  | storeRandomEmail provider name => exact ⟨_, rfl, resolving_makes fun _ ↦ create_makes name _⟩
  | assertFilesExist files =>
    -- No files are no demand at all, not even for a scope that is active.
    cases files with
    | nil => exact ⟨_, rfl, done_makes _⟩
    | cons file files => exact ⟨_, rfl, inspect_makes _⟩
  | createFiles files => exact absurd rfl (h files)
  | assertText | assertNull | assertNotNull | assertEmpty | assertNotEmpty | writeVariableToFile =>
    exact ⟨_, rfl, inspect_makes _⟩
  | _ => exact ⟨_, rfl, create_makes _ _⟩

/-- Splitting a line into cells is one change or none. -/
theorem StepCall.run_splitIntoSequence_makes_effect :
    (∀ files, StepCall.splitIntoSequence "line" "," "cells" ≠ .createFiles files) ∧
      ∃ effect, (StepCall.splitIntoSequence "line" "," "cells").effect? = some effect ∧
        ((StepCall.splitIntoSequence "line" "," "cells").run (.local Draw.epoch)).Makes effect :=
  ⟨nofun, StepCall.run_makes_effect _ _ nofun⟩

end Playbook
