import Playbook.Scenario.Batch
import Playbook.Proofs.Composition
import Playbook.Proofs.Isolation
import Playbook.Proofs.Lifecycle
import Mathlib.Logic.Function.Iterate

/-!
# Runs that take turns

A run that has all its turns, whoever has turns in between, is the run of its scenario. Here nobody
has: a run that takes its turns in a row does what `Scenario.run` does
(`Scenario.advance_iterate_waiting`), and running one scenario after the other is the schedule in
which each run has all its turns before the next one begins (`Scenario.follow_inOrder`). So what is
true of all schedules is true of it.
-/

namespace Playbook

variable {σ : Type}

/-! ## Single turns -/

namespace Scenario

variable {scenario : Scenario} {services : Services σ} {manager : Manager} {world : σ}
  {id index : Nat} {scope : Scope} {call : StepCall} {rest : List StepCall} {stage : Stage σ}

theorem advance_waiting_of_error {e : VariableError}
    (h : scenario.scopeOptions manager.options = .error e) :
    scenario.advance services (.waiting, manager, world) =
      (.done (.error (.ofVariable e)), manager, world) := by
  simp only [advance, h]

theorem advance_waiting_of_ok {options : Options}
    (h : scenario.scopeOptions manager.options = .ok options) :
    scenario.advance services (.waiting, manager, world) =
      (.running manager.nextId 0 scenario.steps, (manager.startWith options).2, world) := by
  simp only [advance, h]
  rfl

theorem advance_running_of_none (h : manager.scope? id = none) :
    scenario.advance services (.running id index rest, manager, world) =
      (.done (.error (.ofVariable .noActiveScope)), manager, world) := by
  simp only [advance, h]

theorem advance_running_nil (h : manager.scope? id = some scope) :
    scenario.advance services (.running id index [], manager, world) =
      (.ending id (scenario.reportActive scope), manager, world) := by
  simp only [advance, h]

theorem advance_running_of_ok (h : manager.scope? id = some scope)
    (hcall : call.attempt services ⟨scope, world⟩ = some (.ok (), stage)) :
    scenario.advance services (.running id index (call :: rest), manager, world) =
      (.running id (index + 1) rest, manager.update stage.scope, stage.world) := by
  simp only [advance, h, hcall]

theorem advance_running_of_error (h : manager.scope? id = some scope) {e : StepError}
    (hcall : call.attempt services ⟨scope, world⟩ = some (.error e, stage)) :
    scenario.advance services (.running id index (call :: rest), manager, world) =
      (.ending id (.error (.step scenario.name index call.stepName e)),
        manager.update stage.scope, stage.world) := by
  simp only [advance, h, hcall]

theorem advance_running_of_panic (h : manager.scope? id = some scope)
    (hcall : call.attempt services ⟨scope, world⟩ = none) :
    scenario.advance services (.running id index (call :: rest), manager, world) =
      (.done (.error (.panicked scenario.name)), manager, world) := by
  simp only [advance, h, hcall]

/-- The ways that a turn of a run can go. -/
inductive Advances (scenario : Scenario) (services : Services σ) (manager : Manager) (world : σ) :
    Progress → Progress × Manager × σ → Prop
  /-- Its options are refused. -/
  | refused {e : VariableError} (options_eq : scenario.scopeOptions manager.options = .error e) :
      Advances scenario services manager world .waiting
        (.done (.error (.ofVariable e)), manager, world)
  /-- Its scope is begun. -/
  | begun {options : Options} (options_eq : scenario.scopeOptions manager.options = .ok options) :
      Advances scenario services manager world .waiting
        (.running manager.nextId 0 scenario.steps, (manager.startWith options).2, world)
  /-- Its scope is not found. -/
  | lost {id index : Nat} {rest : List StepCall} (scope_eq : manager.scope? id = none) :
      Advances scenario services manager world (.running id index rest)
        (.done (.error (.ofVariable .noActiveScope)), manager, world)
  /-- All steps have been run, and the report is made. -/
  | reported {id index : Nat} {scope : Scope} (scope_eq : manager.scope? id = some scope) :
      Advances scenario services manager world (.running id index [])
        (.ending id (scenario.reportActive scope), manager, world)
  /-- A step succeeds. -/
  | passed {id index : Nat} {scope : Scope} {call : StepCall} {rest : List StepCall}
      {stage : Stage σ} (scope_eq : manager.scope? id = some scope)
      (call_eq : call.attempt services ⟨scope, world⟩ = some (.ok (), stage)) :
      Advances scenario services manager world (.running id index (call :: rest))
        (.running id (index + 1) rest, manager.update stage.scope, stage.world)
  /-- A step fails. -/
  | failed {id index : Nat} {scope : Scope} {call : StepCall} {rest : List StepCall}
      {stage : Stage σ} {source : StepError} (scope_eq : manager.scope? id = some scope)
      (call_eq : call.attempt services ⟨scope, world⟩ = some (.error source, stage)) :
      Advances scenario services manager world (.running id index (call :: rest))
        (.ending id (.error (.step scenario.name index call.stepName source)),
          manager.update stage.scope, stage.world)
  /-- A step panics. -/
  | panicked {id index : Nat} {scope : Scope} {call : StepCall} {rest : List StepCall}
      (scope_eq : manager.scope? id = some scope)
      (call_eq : call.attempt services ⟨scope, world⟩ = none) :
      Advances scenario services manager world (.running id index (call :: rest))
        (.done (.error (.panicked scenario.name)), manager, world)
  /-- Its scope is ended. -/
  | ended (id : Nat) (result : Except RunError Report) :
      Advances scenario services manager world (.ending id result)
        (.done result, manager.finish id, world)
  /-- It is over already. -/
  | stayed (result : Except RunError Report) :
      Advances scenario services manager world (.done result) (.done result, manager, world)

theorem advances_advance (scenario : Scenario) (services : Services σ) (progress : Progress)
    (manager : Manager) (world : σ) :
    scenario.Advances services manager world progress
      (scenario.advance services (progress, manager, world)) := by
  cases progress with
  | waiting =>
    cases hoptions : scenario.scopeOptions manager.options with
    | error e =>
      rw [advance_waiting_of_error hoptions]
      exact .refused hoptions
    | ok options =>
      rw [advance_waiting_of_ok hoptions]
      exact .begun hoptions
  | running id index rest =>
    cases hscope : manager.scope? id with
    | none =>
      rw [advance_running_of_none hscope]
      exact .lost hscope
    | some scope =>
      cases rest with
      | nil =>
        rw [advance_running_nil hscope]
        exact .reported hscope
      | cons call rest =>
        rcases hcall : call.attempt services ⟨scope, world⟩ with _ | ⟨e | ⟨⟩, stage⟩
        · rw [advance_running_of_panic hscope hcall]
          exact .panicked hscope hcall
        · rw [advance_running_of_error hscope hcall]
          exact .failed hscope hcall
        · rw [advance_running_of_ok hscope hcall]
          exact .passed hscope hcall
  | ending id result => exact .ended id result
  | done result => exact .stayed result

end Scenario

/-! ## Scopes in a manager -/

namespace Manager

variable {manager : Manager} {scope : Scope} {id other : Nat}

/-- Whether all scopes have numbers that have been handed out. -/
def Numbered (manager : Manager) : Prop :=
  ∀ id ∈ manager.scopes.map Scope.id, id < manager.nextId

theorem scope?_startWith_self (h : manager.Numbered) (options : Options) :
    (manager.startWith options).2.scope? manager.nextId =
      some { id := manager.nextId, interpolator := .ofOptions options
             random := ⟨manager.seed options manager.nextId⟩ } := by
  have hold : manager.scopes.find? (fun scope ↦ scope.id = manager.nextId) = none := by
    rw [List.find?_eq_none]
    intro scope hmem
    have hlt := h scope.id (List.mem_map_of_mem hmem)
    simp [Nat.ne_of_lt hlt]
  rw [scope?, startWith, List.find?_append, hold]
  simp

theorem scope?_startWith_of_ne (options : Options) (h : id ≠ manager.nextId) :
    (manager.startWith options).2.scope? id = manager.scope? id := by
  rw [scope?, startWith, List.find?_append]
  simp [Ne.symm h, scope?]

/-- A scope is put in the place of the one with its number, if there is one. -/
theorem scope?_update (manager : Manager) (scope : Scope) (id : Nat) :
    (manager.update scope).scope? id =
      (manager.scope? id).map fun other ↦ if id = scope.id then scope else other := by
  have hsame : ∀ other : Scope,
      decide ((if other.id = scope.id then scope else other).id = id) = decide (other.id = id) := by
    intro other
    by_cases hother : other.id = scope.id
    · rw [if_pos hother, hother]
    · rw [if_neg hother]
  rw [scope?, update, List.find?_map, Function.comp_def]
  simp only [hsame]
  refine Option.map_congr fun other hother ↦ ?_
  have hid : other.id = id := id_of_scope?_eq_some hother
  rw [hid]

theorem scope?_update_self (h : manager.scope? id ≠ none) (hid : scope.id = id) :
    (manager.update scope).scope? id = some scope := by
  obtain ⟨other, hother⟩ := Option.ne_none_iff_exists'.mp h
  rw [scope?_update, hother, Option.map_some, if_pos hid.symm]

theorem scope?_update_of_ne (h : id ≠ scope.id) :
    (manager.update scope).scope? id = manager.scope? id := by
  simp only [scope?_update, if_neg h, Option.map_id']

theorem update_update {after : Scope} (h : scope.id = after.id) :
    (manager.update scope).update after = manager.update after := by
  simp only [update, List.map_map]
  congr 1
  refine List.map_congr_left fun other _ ↦ ?_
  by_cases hother : other.id = after.id <;> simp [h, hother]

theorem update_startWith (h : manager.Numbered) (options : Options)
    (hscope : (manager.startWith options).2.scope? manager.nextId = some scope) :
    (manager.startWith options).2.update scope = (manager.startWith options).2 := by
  rw [scope?_startWith_self h] at hscope
  cases hscope
  have hold : manager.scopes.map (fun other ↦
      if other.id = manager.nextId then
        { id := manager.nextId, interpolator := .ofOptions options
          random := ⟨manager.seed options manager.nextId⟩ }
      else other) = manager.scopes := by
    refine (List.map_congr_left fun other hmem ↦ ?_).trans (List.map_id _)
    exact if_neg (Nat.ne_of_lt (h other.id (List.mem_map_of_mem hmem)))
  simp only [startWith, update, List.map_append, hold]
  simp

/-- To end a scope changes nothing, or it puts the ended scope in its place and strikes it off. -/
theorem finish_cases (manager : Manager) (id : Nat) :
    manager.finish id = manager ∨ ∃ scope, manager.scope? id = some scope ∧ manager.finish id =
      { manager.update scope.finish with registered := manager.registered.erase id } := by
  unfold finish
  cases hscope : manager.scope? id with
  | none => exact .inl rfl
  | some scope =>
    cases hended : scope.ended
    · exact .inr ⟨scope, rfl, if_neg (by simp [hended])⟩
    · exact .inl (if_pos hended)

theorem scope?_finish_of_ne (h : id ≠ other) :
    (manager.finish other).scope? id = manager.scope? id := by
  rcases manager.finish_cases other with hsame | ⟨scope, hscope, hfinish⟩
  · rw [hsame]
  · have hid : scope.id = other := id_of_scope?_eq_some hscope
    have hne : id ≠ scope.finish.id := fun heq ↦ h (heq.trans hid)
    rw [hfinish]
    exact scope?_update_of_ne hne

namespace Numbered

theorem startWith (h : manager.Numbered) (options : Options) :
    (manager.startWith options).2.Numbered := by
  intro id hid
  rw [Manager.startWith, List.map_append, List.mem_append, List.map_singleton,
    List.mem_singleton] at hid
  rcases hid with hid | rfl
  · exact Nat.lt_succ_of_lt (h id hid)
  · exact Nat.lt_succ_self _

theorem update (h : manager.Numbered) (scope : Scope) : (manager.update scope).Numbered := by
  intro id hid
  rw [ids_update] at hid
  exact h id hid

theorem finish (h : manager.Numbered) (id : Nat) : (manager.finish id).Numbered := by
  rcases manager.finish_cases id with hsame | ⟨scope, -, hfinish⟩
  · rw [hsame]
    exact h
  · rw [hfinish]
    exact h.update scope.finish

end Numbered
end Manager

/-! ## A run that has all its turns -/

namespace StepCall

variable {services : Services σ} {stage : Stage σ}

/-- What every step keeps is kept by a step that comes to its end. -/
theorem keeps_attempt {P : Stage σ → Prop}
    (hP : ∀ (call : StepCall) {stage}, P stage → P (call.run services stage).2) {call : StepCall}
    {outcome : Except StepError Unit} {after : Stage σ} (h : P stage)
    (hcall : call.attempt services stage = some (outcome, after)) : P after := by
  have hrun := (attempt_eq_some_iff.mp hcall).2
  have hafter := hP call h
  rw [hrun] at hafter
  exact hafter

/-- What every step keeps is kept by steps in a row. -/
theorem runAll_keeps {P : Stage σ → Prop}
    (hP : ∀ (call : StepCall) {stage}, P stage → P (call.run services stage).2)
    (index : Nat) (calls : List StepCall) (h : P stage) :
    P (runAll services index calls stage).2 := by
  induction calls generalizing index stage with
  | nil => exact h
  | cons call rest ih =>
    unfold runAll
    rcases hcall : call.attempt services stage with _ | ⟨e | ⟨⟩, after⟩
    · exact h
    · exact keeps_attempt hP h hcall
    · exact ih (index + 1) (keeps_attempt hP h hcall)

theorem attempt_continues {call : StepCall} {outcome : Except StepError Unit} {after : Stage σ}
    (hcall : call.attempt services stage = some (outcome, after)) :
    stage.scope.Continues after.scope := by
  rw [attempt_eq_some_iff] at hcall
  have hkeeps := call.run_keepsScope services stage
  rw [hcall.2] at hkeeps
  exact hkeeps

theorem runAll_continues (services : Services σ) (index : Nat) (calls : List StepCall)
    (stage : Stage σ) : stage.scope.Continues (runAll services index calls stage).2.scope :=
  runAll_keeps (P := fun after ↦ stage.scope.Continues after.scope)
    (fun call after hbefore ↦ hbefore.trans (call.run_keepsScope services after)) index calls
    (.refl stage.scope)

end StepCall

namespace Scenario

variable {scenario : Scenario} {services : Services σ} {manager : Manager} {world : σ} {id : Nat}

theorem advance_iterate_done (result : Except RunError Report) (turns : Nat) :
    (scenario.advance services)^[turns] (.done result, manager, world) =
      (.done result, manager, world) := by
  induction turns with
  | zero => rfl
  | succ turns ih =>
    rw [Function.iterate_succ_apply]
    exact ih

theorem advance_iterate_ending (result : Except RunError Report) (turns : Nat) :
    (scenario.advance services)^[turns + 1] (.ending id result, manager, world) =
      (.done result, manager.finish id, world) := by
  rw [Function.iterate_succ_apply]
  exact advance_iterate_done result turns

/-- Once a scope has been begun, the turns that are left run its steps, report on it and end it. A
run that fails or panics needs fewer turns and then stays as it is. -/
theorem advance_iterate_running (rest : List StepCall) (index : Nat) {scope : Scope} {turns : Nat}
    (hturns : rest.length + 2 ≤ turns) (hscope : manager.scope? id = some scope)
    (hactive : scope.isActive) (hupdate : manager.update scope = manager)
    {outcome : Except Stop Unit} {last : Stage σ}
    (hrun : StepCall.runAll services index rest ⟨scope, world⟩ = (outcome, last)) :
    let result := scenario.conclude outcome last.scope
    (scenario.advance services)^[turns] (.running id index rest, manager, world) =
      (.done (scenario.joined result),
        if result.isSome then (manager.update last.scope).finish id else manager.update last.scope,
        last.world) := by
  -- The manager of the induction holds the scope as the step before has left it.
  induction rest generalizing index manager scope world turns with
  | nil =>
    cases hrun
    obtain ⟨turns, rfl⟩ := Nat.exists_eq_add_of_le' hturns
    have hreport : scenario.reportActive scope = .ok (scenario.report scope) := by
      rw [reportActive, Scope.activeStore, Scope.requireActive, if_pos hactive]
      rfl
    rw [List.length_nil, Nat.zero_add, Function.iterate_succ_apply, advance_running_nil hscope,
      hreport, advance_iterate_ending, hupdate]
    rfl
  | cons call rest ih =>
    obtain ⟨turns, rfl⟩ := Nat.exists_eq_add_of_le' (Nat.le_of_add_left_le hturns)
    have hid : scope.id = id := Manager.id_of_scope?_eq_some hscope
    rw [List.length_cons] at hturns
    unfold StepCall.runAll at hrun
    rcases hcall : call.attempt services ⟨scope, world⟩ with _ | ⟨e | ⟨⟩, stage⟩
    · -- The step panics, and the scope is left as it is.
      rw [hcall] at hrun
      cases hrun
      rw [Function.iterate_succ_apply, advance_running_of_panic hscope hcall,
        advance_iterate_done, hupdate]
      rfl
    · -- The step fails, and all that is left is to end the scope.
      rw [hcall] at hrun
      cases hrun
      rw [Function.iterate_succ_apply, advance_running_of_error hscope hcall,
        advance_iterate_ending]
      rfl
    · have hkeeps := StepCall.attempt_continues hcall
      rw [hcall] at hrun
      have hstage : stage.scope.id = id := hkeeps.id_eq.trans hid
      have hlast : last.scope.id = stage.scope.id := by
        have hall := StepCall.runAll_continues services (index + 1) rest stage
        have hsame : StepCall.runAll services (index + 1) rest stage = (outcome, last) := hrun
        rw [hsame] at hall
        exact hall.id_eq
      have hfound : (manager.update stage.scope).scope? id = some stage.scope := by
        refine Manager.scope?_update_self ?_ hstage
        rw [hscope]
        exact Option.some_ne_none scope
      have hstill : stage.scope.isActive := by
        rw [hkeeps.isActive_eq]
        exact hactive
      rw [Function.iterate_succ_apply, advance_running_of_ok hscope hcall,
        ih (index + 1) (by omega) hfound hstill (Manager.update_update rfl) hrun,
        Manager.update_update hlast.symm]

/-- A run takes its options, or fails on them; then it has a scope of its own, which is ended if
anything comes back. -/
theorem attempt_eq (h : manager.Numbered) :
    scenario.attempt services manager world =
      match scenario.scopeOptions manager.options with
      | .error e => (some (.error (.ofVariable e)), manager, world)
      | .ok options =>
        let (outcome, last) := StepCall.runAll services 0 scenario.steps
          { scope := { id := manager.nextId, interpolator := .ofOptions options
                       random := ⟨manager.seed options manager.nextId⟩ }, world }
        let result := scenario.conclude outcome last.scope
        let manager' := (manager.startWith options).2.update last.scope
        (result, if result.isSome then manager'.finish manager.nextId else manager',
          last.world) := by
  have hbegun : ∀ options, (manager.startWith options).2.scope? (manager.startWith options).1 = _ :=
    fun options ↦ Manager.scope?_startWith_self h options
  unfold attempt scopeOptions
  cases hoptions : scenario.options with
  | none =>
    simp only [Option.isSome_none, Bool.false_eq_true, ↓reduceIte, Option.getD_none, hbegun]
    rfl
  | some options =>
    cases hvalid : options.validate with
    | error e =>
      simp only [Option.isSome_some, ↓reduceIte, Option.getD_some, hvalid, Except.map]
    | ok u =>
      simp only [Option.isSome_some, ↓reduceIte, Option.getD_some, hvalid, hbegun, Except.map]
      rfl

/-- **A run in turns.** A scenario that has all its turns is run from beginning to end. -/
theorem advance_iterate_waiting (h : manager.Numbered) {turns : Nat}
    (hturns : scenario.steps.length + 3 ≤ turns) :
    (scenario.advance services)^[turns] (.waiting, manager, world) =
      (.done (scenario.run services manager world).1, (scenario.run services manager world).2) := by
  obtain ⟨turns, rfl⟩ := Nat.exists_eq_add_of_le' (Nat.le_of_add_left_le hturns)
  rw [Function.iterate_succ_apply, run, attempt_eq h]
  cases hoptions : scenario.scopeOptions manager.options with
  | error e =>
    rw [advance_waiting_of_error hoptions, advance_iterate_done]
    rfl
  | ok options =>
    have hscope := Manager.scope?_startWith_self h options
    rw [advance_waiting_of_ok hoptions, advance_iterate_running scenario.steps 0 (by omega) hscope
      rfl (Manager.update_startWith h options hscope) rfl]
    rfl

end Scenario

/-! ## One run after the other -/

namespace Batch

variable {services : Services σ} {batch : Batch σ} {scenario : Scenario} {progress : Progress}
  {place other : Nat}

theorem turn_eq (h : batch.runs[place]? = some (scenario, progress)) :
    batch.turn services place =
      { manager := (scenario.advance services (progress, batch.manager, batch.world)).2.1
        world := (scenario.advance services (progress, batch.manager, batch.world)).2.2
        runs := batch.runs.set place
          (scenario, (scenario.advance services (progress, batch.manager, batch.world)).1) } := by
  rw [turn, h]

theorem runs_turn_self (h : batch.runs[place]? = some (scenario, progress)) :
    (batch.turn services place).runs[place]? =
      some (scenario, (scenario.advance services (progress, batch.manager, batch.world)).1) := by
  rw [turn_eq h]
  exact List.getElem?_set_self (List.getElem?_eq_some_iff.mp h).1

theorem runs_turn_of_ne (h : place ≠ other) :
    (batch.turn services place).runs[other]? = batch.runs[other]? := by
  cases hrun : batch.runs[place]? with
  | none => rw [turn, hrun]
  | some run =>
    rw [turn_eq hrun]
    exact List.getElem?_set_ne h

theorem follow_replicate (h : batch.runs[place]? = some (scenario, progress)) (turns : Nat)
    {last : Progress × Manager × σ}
    (hlast : (scenario.advance services)^[turns] (progress, batch.manager, batch.world) = last) :
    batch.follow services (List.replicate turns place) =
      { manager := last.2.1, world := last.2.2
        runs := batch.runs.set place (scenario, last.1) } := by
  induction turns generalizing batch progress with
  | zero =>
    subst hlast
    have hset : batch.runs.set place (scenario, progress) = batch.runs := by
      obtain ⟨hlt, hget⟩ := List.getElem?_eq_some_iff.mp h
      rw [← hget, List.set_getElem_self]
    rw [Function.iterate_zero, id_eq, hset]
    rfl
  | succ turns ih =>
    have hlt : place < batch.runs.length := (List.getElem?_eq_some_iff.mp h).1
    rw [Function.iterate_succ_apply] at hlast
    rw [List.replicate_succ, follow, List.foldl_cons, ← follow, turn_eq h]
    rw [ih (List.getElem?_set_self hlt) hlast, List.set_set]

end Batch

namespace Scenario

variable {services : Services σ} {manager : Manager}

theorem numbered_run (h : manager.Numbered) (scenario : Scenario) (world : σ) :
    (scenario.run services manager world).2.1.Numbered := by
  rw [run, attempt_eq h]
  cases scenario.scopeOptions manager.options with
  | error e => exact h
  | ok options =>
    have hupdated := fun scope ↦ (h.startWith options).update scope
    change Manager.Numbered (if _ then _ else _)
    split
    · exact (hupdated _).finish manager.nextId
    · exact hupdated _

theorem length_runEach (services : Services σ) (scenarios : List Scenario) (manager : Manager)
    (world : σ) : (runEach services scenarios manager world).1.length = scenarios.length := by
  induction scenarios generalizing manager world with
  | nil => rfl
  | cons scenario rest ih => exact congrArg (· + 1) (ih _ _)

/-- **One after the other.** To run scenarios one after the other is one way to take turns. -/
theorem follow_inOrder (h : manager.Numbered) (scenarios : List Scenario) (world : σ)
    (before : List (Scenario × Progress)) :
    ({ manager, world, runs := before ++ scenarios.map fun scenario ↦ (scenario, .waiting) } :
        Batch σ).follow services (inOrder before.length scenarios) =
      { manager := (runEach services scenarios manager world).2.1
        world := (runEach services scenarios manager world).2.2
        runs := before ++ List.zipWith (fun scenario result ↦ (scenario, .done result)) scenarios
          (runEach services scenarios manager world).1 } := by
  induction scenarios generalizing manager world before with
  | nil => rfl
  | cons scenario rest ih =>
    have hfirst : (before ++ (scenario :: rest).map fun scenario ↦
        (scenario, Progress.waiting))[before.length]? = some (scenario, .waiting) := by
      rw [List.getElem?_append_right (Nat.le_refl _), Nat.sub_self]
      rfl
    have hset : ∀ progress, (before ++ (scenario :: rest).map fun scenario ↦
        (scenario, Progress.waiting)).set before.length (scenario, progress) =
          (before ++ [(scenario, progress)]) ++ rest.map fun scenario ↦ (scenario, .waiting) := by
      intro progress
      rw [List.set_append_right _ _ (Nat.le_refl _), Nat.sub_self, List.append_assoc]
      rfl
    have hlength : before.length + 1 = (before ++ [(scenario, Progress.done
        (scenario.run services manager world).1)]).length := by
      rw [List.length_append, List.length_singleton]
    rw [inOrder, Batch.follow, List.foldl_append, ← Batch.follow, ← Batch.follow,
      Batch.follow_replicate hfirst _ (advance_iterate_waiting h (Nat.le_refl _)), hset, hlength,
      ih (numbered_run h scenario world), List.append_assoc]
    rfl

end Scenario
end Playbook
