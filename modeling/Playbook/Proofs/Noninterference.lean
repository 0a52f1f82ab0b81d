import Playbook.Proofs.Interleaving

/-!
# Runs that share a manager do not meddle with each other

A run works in one scope, which it finds by its number. Two facts keep runs apart: a turn leaves the
scopes with other numbers as they are (`Manager.Turned`), and different runs have different numbers
(`Batch.Separate`).

What a run does can then depend on the others only through the number itself, the world and where
its random words start. Steps without files look at neither of the first two, and a seed settles the
third. So a run in a batch and the same run all alone stay alike turn after turn
(`Progress.Alike`), whoever has the turns in between.
-/

namespace Playbook

variable {σ : Type}

/-! ## What a turn leaves to other runs -/

/-- What becomes of a manager in a turn that takes a run from the scope with one number, if it has
one, to the scope with another. -/
structure Manager.Turned (before after : Manager) (own own' : Option Nat) : Prop where
  options_eq : after.options = before.options
  numbered : before.Numbered → after.Numbered
  nextId_le : before.nextId ≤ after.nextId
  own_eq : ∀ {id}, own' = some id →
    own = some id ∨ id = before.nextId ∧ before.nextId < after.nextId
  scope?_eq : ∀ {id}, id < before.nextId → own ≠ some id → after.scope? id = before.scope? id

namespace Manager.Turned

variable (manager : Manager) (own : Option Nat)

theorem refl : manager.Turned manager own own where
  options_eq := rfl
  numbered h := h
  nextId_le := Nat.le_refl _
  own_eq h := .inl h
  scope?_eq _ _ := rfl

theorem startWith (options : Options) :
    manager.Turned (manager.startWith options).2 none (some manager.nextId) where
  options_eq := rfl
  numbered h := h.startWith options
  nextId_le := Nat.le_succ _
  own_eq h := .inr ⟨(Option.some.inj h).symm, Nat.lt_succ_self _⟩
  scope?_eq hlt _ := scope?_startWith_of_ne options (Nat.ne_of_lt hlt)

theorem update (scope : Scope) :
    manager.Turned (manager.update scope) (some scope.id) (some scope.id) where
  options_eq := rfl
  numbered h := h.update scope
  nextId_le := Nat.le_refl _
  own_eq h := .inl h
  scope?_eq _ hne := scope?_update_of_ne fun hid ↦ hne (congrArg some hid.symm)

theorem finish (id : Nat) : manager.Turned (manager.finish id) (some id) none where
  options_eq := by
    rcases manager.finish_cases id with hsame | ⟨scope, -, hfinish⟩
    · rw [hsame]
    · rw [hfinish]
      rfl
  numbered h := h.finish id
  nextId_le := by
    rcases manager.finish_cases id with hsame | ⟨scope, -, hfinish⟩
    · exact hsame.symm ▸ Nat.le_refl manager.nextId
    · exact hfinish.symm ▸ Nat.le_refl manager.nextId
  own_eq h := nomatch h
  scope?_eq _ hne := scope?_finish_of_ne fun hid ↦ hne (congrArg some hid.symm)

variable {manager own} in
/-- A run may also be over without having ended its scope. -/
theorem withoutScope {after : Manager} {own' : Option Nat} (h : manager.Turned after own own') :
    manager.Turned after own none :=
  { h with own_eq := nofun }

end Manager.Turned

theorem Scenario.advance_turned (scenario : Scenario) (services : Services σ) (progress : Progress)
    (manager : Manager) (world : σ) :
    manager.Turned (scenario.advance services (progress, manager, world)).2.1 progress.handle?
      (scenario.advance services (progress, manager, world)).1.handle? := by
  have hturn := scenario.advances_advance services progress manager world
  generalize scenario.advance services (progress, manager, world) = after at hturn
  cases hturn with
  | refused | stayed => exact .refl manager none
  | begun => exact .startWith manager _
  | lost | panicked => exact (Manager.Turned.refl manager _).withoutScope
  | @reported id => exact .refl manager (some id)
  | @passed id _ _ _ _ stage hscope hcall | @failed id _ _ _ _ stage _ hscope hcall =>
    have hid : stage.scope.id = id :=
      (StepCall.attempt_continues hcall).id_eq.trans (Manager.id_of_scope?_eq_some hscope)
    rw [← hid]
    exact .update manager stage.scope
  | ended id => exact .finish manager id

/-! ## Runs with different scopes -/

namespace Batch

variable {services : Services σ} {batch : Batch σ} {scenario : Scenario} {progress : Progress}
  {place other : Nat}

/-- The number of the scope that the run in a place works in. -/
def handle? (batch : Batch σ) (place : Nat) : Option Nat :=
  batch.runs[place]?.bind fun run ↦ run.2.handle?

/-- Whether each run has a scope of its own. -/
structure Separate (batch : Batch σ) : Prop where
  numbered : batch.manager.Numbered
  begun : ∀ {place id}, batch.handle? place = some id → id < batch.manager.nextId
  apart : ∀ {place other id}, batch.handle? place = some id → batch.handle? other = some id →
    place = other

theorem handle?_eq (h : batch.runs[place]? = some (scenario, progress)) :
    batch.handle? place = progress.handle? := by
  rw [handle?, h, Option.bind_some]

theorem turned_turn (services : Services σ) (batch : Batch σ) (place : Nat) :
    batch.manager.Turned (batch.turn services place).manager (batch.handle? place)
      ((batch.turn services place).handle? place) := by
  cases hrun : batch.runs[place]? with
  | none =>
    rw [turn, hrun]
    exact .refl batch.manager _
  | some run =>
    rw [handle?_eq hrun, handle?_eq (runs_turn_self hrun), turn_eq hrun]
    exact run.1.advance_turned services run.2 batch.manager batch.world

/-- After a turn each run has the number it had, or it is the one whose turn it was, and the number
has not been handed out before. -/
theorem handle?_turn {id : Nat} (h : (batch.turn services place).handle? other = some id) :
    batch.handle? other = some id ∨ other = place ∧ id = batch.manager.nextId ∧
      batch.manager.nextId < (batch.turn services place).manager.nextId := by
  rcases eq_or_ne place other with rfl | hne
  · rcases (turned_turn services batch place).own_eq h with hold | hnew
    · exact .inl hold
    · exact .inr ⟨rfl, hnew⟩
  · rw [handle?, runs_turn_of_ne hne] at h
    exact .inl h

theorem separate_start (scenarios : List Scenario) {manager : Manager} (h : manager.Numbered)
    (world : σ) : (start scenarios manager world).Separate := by
  have hnone : ∀ place, (start scenarios manager world).handle? place = none := by
    intro place
    rw [handle?, start, List.getElem?_map]
    cases scenarios[place]? <;> rfl
  refine ⟨h, fun hid ↦ ?_, fun hid ↦ ?_⟩ <;>
  · rw [hnone] at hid
    cases hid

theorem Separate.turn (h : batch.Separate) (services : Services σ) (place : Nat) :
    (batch.turn services place).Separate where
  numbered := (turned_turn services batch place).numbered h.numbered
  begun hid := by
    rcases handle?_turn hid with hold | ⟨-, rfl, hnext⟩
    · exact Nat.lt_of_lt_of_le (h.begun hold) (turned_turn services batch place).nextId_le
    · exact hnext
  apart hid hid' := by
    rcases handle?_turn hid with hold | ⟨rfl, hnew, -⟩ <;>
      rcases handle?_turn hid' with hold' | ⟨rfl, hnew', -⟩
    · exact h.apart hold hold'
    · exact absurd (hnew' ▸ h.begun hold) (Nat.lt_irrefl _)
    · exact absurd (hnew ▸ h.begun hold') (Nat.lt_irrefl _)
    · rfl

end Batch

/-! ## Two runs of the same scenario -/

/-- Whether two runs of a scenario, each with its manager, have come equally far and have the same
before them: but for their numbers, their scopes are the same. -/
inductive Progress.Alike (manager manager' : Manager) : Progress → Progress → Prop
  | waiting (options_eq : manager.options = manager'.options) :
      Alike manager manager' .waiting .waiting
  | running {id id' : Nat} {scope : Scope} (index : Nat) {rest : List StepCall}
      (files : ∀ call ∈ rest, call.usesFiles = false) (scope_eq : manager.scope? id = some scope)
      (scope_eq' : manager'.scope? id' = some { scope with id := id' }) :
      Alike manager manager' (.running id index rest) (.running id' index rest)
  | ending (id id' : Nat) (result : Except RunError Report) :
      Alike manager manager' (.ending id result) (.ending id' result)
  | done (result : Except RunError Report) : Alike manager manager' (.done result) (.done result)

/-- A turn of another run leaves a run like the one all alone. -/
theorem Progress.Alike.turned {manager manager' after : Manager} {progress progress' : Progress}
    (h : Alike manager manager' progress progress') {own own' : Option Nat}
    (hturned : manager.Turned after own own')
    (hother : ∀ {id}, progress.handle? = some id → id < manager.nextId ∧ own ≠ some id) :
    Alike after manager' progress progress' := by
  cases h with
  | waiting hoptions => exact .waiting (hturned.options_eq.trans hoptions)
  | running index hfiles hscope hscope' =>
    obtain ⟨hlt, hne⟩ := hother rfl
    exact .running index hfiles ((hturned.scope?_eq hlt hne).trans hscope) hscope'
  | ending id id' result => exact .ending id id' result
  | done result => exact .done result

namespace Scenario

variable {scenario : Scenario} {services : Services σ} {manager manager' : Manager}
  {progress progress' : Progress} {now : Moment}

/-- The options that a run goes by. A scenario's own ones replace the common ones as a whole, so
that a seed among the common ones does not reach it. -/
def effectiveOptions (scenario : Scenario) (common : Options) : Options :=
  scenario.options.getD common

/-- Whether all that a run does is settled beforehand: its random words start from a seed, and its
steps use no files. A scenario with options of its own has to have the seed among them: a seed
among the common ones does not make up for it. -/
structure SelfContained (scenario : Scenario) (common : Options) : Prop where
  seeded : (scenario.effectiveOptions common).randomSeed ≠ none
  files : ∀ call ∈ scenario.steps, call.usesFiles = false

theorem eq_effectiveOptions_of_scopeOptions_eq_ok {common options : Options}
    (h : scenario.scopeOptions common = .ok options) :
    options = scenario.effectiveOptions common := by
  unfold scopeOptions at h
  unfold effectiveOptions
  cases hown : scenario.options with
  | none =>
    rw [hown] at h
    cases h
    rfl
  | some own =>
    simp only [hown] at h
    cases hvalid : own.validate with
    | error e =>
      rw [hvalid] at h
      cases h
    | ok u =>
      rw [hvalid] at h
      cases h
      rfl

/-- **A turn of two runs.** Runs that are alike take the same turn, each in its world. -/
theorem advance_alike (hclock : services.now = pure now)
    (hself : scenario.SelfContained manager.options) (hnumbered : manager.Numbered)
    (hnumbered' : manager'.Numbered) (h : Progress.Alike manager manager' progress progress')
    (world world' : σ) :
    Progress.Alike (scenario.advance services (progress, manager, world)).2.1
      (scenario.advance services (progress', manager', world')).2.1
      (scenario.advance services (progress, manager, world)).1
      (scenario.advance services (progress', manager', world')).1 := by
  cases h with
  | waiting hsame =>
    cases hoptions : scenario.scopeOptions manager.options with
    | error e =>
      rw [advance_waiting_of_error hoptions, advance_waiting_of_error (hsame ▸ hoptions)]
      exact .done _
    | ok options =>
      have hseed : options.randomSeed ≠ none := by
        rw [eq_effectiveOptions_of_scopeOptions_eq_ok hoptions]
        exact hself.seeded
      obtain ⟨seed, hseed⟩ := Option.ne_none_iff_exists'.mp hseed
      have hwords : manager.seed options manager.nextId = manager'.seed options manager'.nextId := by
        rw [Manager.seed, Manager.seed, hseed]
      have hscope' := Manager.scope?_startWith_self hnumbered' options
      rw [← hwords] at hscope'
      rw [advance_waiting_of_ok hoptions, advance_waiting_of_ok (hsame ▸ hoptions)]
      exact .running 0 hself.files (Manager.scope?_startWith_self hnumbered options) hscope'
  | @running id id' scope index rest hfiles hscope hscope' =>
    cases rest with
    | nil =>
      rw [advance_running_nil hscope, advance_running_nil hscope']
      exact .ending id id' _
    | cons call rest =>
      have hlocal : call.attempt services ⟨{ scope with id := id' }, world'⟩ = _ :=
        call.attempt_moved services hclock (hfiles call List.mem_cons_self) ⟨scope, world⟩ id'
          world'
      rcases hcall : call.attempt services ⟨scope, world⟩ with _ | ⟨e | ⟨⟩, stage⟩ <;>
        rw [hcall] at hlocal
      · rw [advance_running_of_panic hscope hcall, advance_running_of_panic hscope' hlocal]
        exact .done _
      · rw [advance_running_of_error hscope hcall, advance_running_of_error hscope' hlocal]
        exact .ending id id' _
      · have hid : stage.scope.id = id :=
          (StepCall.attempt_continues hcall).id_eq.trans (Manager.id_of_scope?_eq_some hscope)
        rw [advance_running_of_ok hscope hcall, advance_running_of_ok hscope' hlocal]
        have hfound : manager.scope? id ≠ none := by
          rw [hscope]
          exact Option.some_ne_none scope
        have hfound' : manager'.scope? id' ≠ none := by
          rw [hscope']
          exact Option.some_ne_none _
        exact .running (index + 1) (fun next hnext ↦ hfiles next (List.mem_cons_of_mem _ hnext))
          (Manager.scope?_update_self hfound hid) (Manager.scope?_update_self hfound' rfl)
  | ending id id' result => exact .done result
  | done result => exact .done result

end Scenario

/-! ## Whole runs -/

namespace Batch

variable {services : Services σ} {batch : Batch σ} {scenario : Scenario}
  {progress progress' : Progress} {place : Nat} {now : Moment}

/-- **A run among others.** Whatever the order of the turns, the run in a place has come as far as
it would have come all alone in as many turns as it had. -/
theorem follow_alike (hclock : services.now = pure now) {manager' : Manager} {world' : σ}
    (hself : scenario.SelfContained batch.manager.options) (hseparate : batch.Separate)
    (hnumbered' : manager'.Numbered) (hrun : batch.runs[place]? = some (scenario, progress))
    (halike : Progress.Alike batch.manager manager' progress progress') (schedule : List Nat)
    {last : Progress × Manager × σ}
    (hlast : (scenario.advance services)^[schedule.count place] (progress', manager', world') =
      last) :
    ∃ after, (batch.follow services schedule).runs[place]? = some (scenario, after) ∧
      Progress.Alike (batch.follow services schedule).manager last.2.1 after last.1 := by
  induction schedule generalizing batch progress progress' manager' world' with
  | nil =>
    subst hlast
    exact ⟨progress, hrun, halike⟩
  | cons turning schedule ih =>
    have hturned := turned_turn services batch turning
    have hself' : scenario.SelfContained (batch.turn services turning).manager.options := by
      rw [hturned.options_eq]
      exact hself
    rw [follow, List.foldl_cons, ← follow]
    rcases eq_or_ne turning place with rfl | hne
    · -- Both runs take their turn.
      rw [List.count_cons_self, Function.iterate_succ_apply] at hlast
      have hnext := Scenario.advance_alike hclock hself hseparate.numbered hnumbered' halike
        batch.world world'
      have hmanager : (batch.turn services turning).manager =
          (scenario.advance services (progress, batch.manager, batch.world)).2.1 := by
        rw [turn_eq hrun]
      rw [← hmanager] at hnext
      exact ih hself' (hseparate.turn services turning)
        ((scenario.advance_turned services progress' manager' world').numbered hnumbered')
        (runs_turn_self hrun) hnext hlast
    · -- Another run takes a turn in its own scope, and the one all alone waits.
      rw [List.count_cons_of_ne hne] at hlast
      refine ih hself' (hseparate.turn services turning) hnumbered'
        ((runs_turn_of_ne hne).trans hrun) (halike.turned hturned fun hid ↦ ?_) hlast
      have hplace : batch.handle? place = _ := (handle?_eq hrun).trans hid
      exact ⟨hseparate.begun hplace, fun hown ↦ hne (hseparate.apart hown hplace)⟩

end Batch

/-! ## Batches and runs all alone -/

namespace Scenario

variable {services : Services σ} {now : Moment} {options : Options} {scenarios : List Scenario}

/-- In a batch that has taken turns in any order, a run that is over has the result that it has all
alone, and it is over once it has had all its turns. -/
theorem exists_follow_start (hclock : services.now = pure now)
    (hself : ∀ scenario ∈ scenarios, scenario.SelfContained options)
    (entropy entropy' : UInt32) (world world' : σ) (schedule : List Nat) {place : Nat}
    {scenario : Scenario} (hscenario : scenarios[place]? = some scenario) :
    ∃ progress, ((Batch.start scenarios { options, entropy } world).follow services
        schedule).runs[place]? = some (scenario, progress) ∧
      (∀ result, progress = .done result →
        result = (scenario.run services { options, entropy := entropy' } world').1) ∧
      (scenario.steps.length + 3 ≤ schedule.count place → progress =
        .done (scenario.run services { options, entropy := entropy' } world').1) := by
  have hnew : ∀ entropy, ({ options, entropy } : Manager).Numbered := nofun
  have hrun : (Batch.start scenarios { options, entropy } world).runs[place]? =
      some (scenario, .waiting) := by
    rw [Batch.start, List.getElem?_map, hscenario]
    rfl
  have hlast : (scenario.advance services)^[schedule.count place]
      (.waiting, { options, entropy := entropy' }, world') = _ := rfl
  obtain ⟨progress, hprogress, halike⟩ := Batch.follow_alike hclock
    (hself scenario (List.mem_of_getElem? hscenario))
    (Batch.separate_start scenarios (hnew entropy) world) (hnew entropy') hrun (.waiting rfl)
    schedule hlast
  refine ⟨progress, hprogress, fun result hdone ↦ ?_, fun hturns ↦ ?_⟩
  · -- Further turns would change nothing, and with enough of them the run is over.
    subst hdone
    have hall : (scenario.advance services)^[scenario.steps.length + 3 + schedule.count place]
        (.waiting, { options, entropy := entropy' }, world') = _ :=
      advance_iterate_waiting (hnew entropy') (Nat.le_add_right _ _)
    rw [Function.iterate_add_apply] at hall
    generalize (scenario.advance services)^[schedule.count place]
      (.waiting, { options, entropy := entropy' }, world') = last at halike hall
    obtain ⟨after, manager, world⟩ := last
    cases halike
    rw [advance_iterate_done, Prod.mk.injEq, Progress.done.injEq] at hall
    exact hall.1
  · rw [advance_iterate_waiting (hnew entropy') hturns] at halike
    cases halike
    rfl

/-- **Batch runs.** Scenarios that start from seeds and use no files do in a batch what each does
all alone with a new manager of the same options. That is so one after the other, and in turns of
any order. -/
theorem batch_eq_alone (services : Services σ) {now : Moment} (hclock : services.now = pure now)
    (options : Options) {scenarios : List Scenario}
    (hself : ∀ scenario ∈ scenarios, scenario.SelfContained options)
    (entropy entropy' : UInt32) (world world' : σ) :
    (runEach services scenarios { options, entropy } world).1 =
        scenarios.map (fun scenario ↦
          (scenario.run services { options, entropy := entropy' } world').1) ∧
      ∀ schedule place scenario, scenarios[place]? = some scenario →
        ∃ progress, ((Batch.start scenarios { options, entropy } world).follow services
            schedule).runs[place]? = some (scenario, progress) ∧
          (∀ result, progress = .done result →
            result = (scenario.run services { options, entropy := entropy' } world').1) ∧
          (scenario.steps.length + 3 ≤ schedule.count place → progress =
            .done (scenario.run services { options, entropy := entropy' } world').1) := by
  refine ⟨?_, fun schedule place scenario hscenario ↦ exists_follow_start hclock hself entropy
    entropy' world world' schedule hscenario⟩
  have hnew : ({ options, entropy } : Manager).Numbered := nofun
  have hlength := length_runEach services scenarios { options, entropy } world
  have hruns : (Batch.start scenarios { options, entropy } world).follow services
      (inOrder 0 scenarios) = _ := follow_inOrder hnew scenarios world []
  refine List.ext_getElem (by rw [hlength, List.length_map]) fun place hplace hplace' ↦ ?_
  rw [List.length_map] at hplace'
  obtain ⟨progress, hprogress, hdone, -⟩ := exists_follow_start hclock hself entropy entropy' world
    world' (inOrder 0 scenarios) (List.getElem?_eq_getElem hplace')
  rw [hruns] at hprogress
  simp only [List.nil_append, List.getElem?_zipWith, List.getElem?_eq_getElem hplace,
    List.getElem?_eq_getElem hplace', Option.some.injEq, Prod.mk.injEq] at hprogress
  rw [List.getElem_map]
  exact hdone _ hprogress.2.symm

/-- Two runs that take turns, one under the common seed and one under its own. -/
theorem batch_eq_alone_two_seeds :
    let options : Options := { randomSeed := some 7 }
    let first : Scenario := ⟨currentVersion, "first", none, [.storeUuid "id"], []⟩
    let second : Scenario :=
      ⟨currentVersion, "second", some { randomSeed := some 8 }, [.storeRandomIp "id"], []⟩
    (∀ scenario ∈ [first, second], scenario.SelfContained options) ∧
      ((Batch.start [first, second] { options } {}).follow (.local Draw.epoch)
          [0, 1, 1, 0, 0, 1, 1, 0]).runs[1]? =
        some (second, .done (second.run (.local Draw.epoch) { options, entropy := 1 } {}).1) := by
  intro options first second
  have hself : ∀ scenario ∈ [first, second], scenario.SelfContained options := by
    rintro scenario (_ | ⟨_, _ | ⟨_, ⟨⟩⟩⟩)
    · exact ⟨nofun, by rintro call (_ | ⟨_, ⟨⟩⟩); rfl⟩
    · exact ⟨nofun, by rintro call (_ | ⟨_, ⟨⟩⟩); rfl⟩
  obtain ⟨progress, hrun, -, hdone⟩ := (batch_eq_alone (.local Draw.epoch) rfl options hself 0 1
    {} {}).2 [0, 1, 1, 0, 0, 1, 1, 0] 1 second rfl
  refine ⟨hself, ?_⟩
  rw [hrun, hdone (by decide)]

end Scenario

end Playbook
