import Playbook.Proofs.EntriesMap
import Playbook.Proofs.Interleaving

/-!
# Running up to the first failure

The steps of a scenario are run in order up to the first that fails or panics, in a scope of its
own. So a run comes out in one of three ways (`Scenario.ComesOut`): all steps have succeeded one
after the other, and the report tells the texts of the variables they have left; or the steps before
some step have succeeded, that step has failed, and the world is what it has left, so that the steps
after it have not been run at all; or that step has panicked, and nothing comes back.

Around the run the other scopes stay as they are, for its scope has a number that no scope had
before. If something comes back, the scope has been struck off the register again, as failures do
not keep it from being ended. A panic does: the scope stays registered and keeps its variables, and
nothing that is run later ends it.
-/

namespace Playbook

variable {σ : Type}

/-! ## Steps in a row -/

namespace StepCall

/-- Whether steps succeed one after the other, and lead from a stage to another. -/
inductive Passes (services : Services σ) : List StepCall → Stage σ → Stage σ → Prop
  | nil (stage : Stage σ) : Passes services [] stage stage
  | cons {call : StepCall} {rest : List StepCall} {stage between last : Stage σ}
      (first : call.attempt services stage = some (.ok (), between))
      (later : Passes services rest between last) : Passes services (call :: rest) stage last

/-- How steps stop at one of them: it has failed and leads to the last stage, or it has panicked in
it. -/
inductive StopsAt (services : Services σ) (index : Nat) (call : StepCall) (stage : Stage σ) :
    Stop → Stage σ → Prop
  | failed {source : StepError} {last : Stage σ}
      (fails : call.attempt services stage = some (.error source, last)) :
      StopsAt services index call stage (.failed index call source) last
  | panicked (panics : call.attempt services stage = none) :
      StopsAt services index call stage .panicked stage

variable {services : Services σ} {calls : List StepCall} {stage last : Stage σ} {index : Nat}

/-- A step panics exactly when it asks for a new random text that there is no room for. -/
theorem attempt_eq_none_iff {call : StepCall} :
    call.attempt services stage = none ↔ ∃ charset length before behind name,
      call = .storeRandomText charset length before behind name ∧
        services.data.capacity < length.toNat ∧ StepRun.absent name stage.scope = .ok () := by
  have hpanics : call.attempt services stage = none ↔ call.panics services stage.scope := by
    rw [attempt]
    split <;> simp_all
  rw [hpanics]
  cases call with
  | storeRandomText charset length before behind name =>
    cases habsent : StepRun.absent name stage.scope <;> simp [panics, habsent, Except.toBool]
  | _ => simp [panics]

/-- Steps are run to the end exactly when they pass. -/
theorem runAll_eq_ok_iff :
    runAll services index calls stage = (.ok (), last) ↔ Passes services calls stage last := by
  induction calls generalizing index stage with
  | nil =>
    constructor
    · rintro ⟨⟩
      exact .nil _
    · rintro ⟨⟩
      rfl
  | cons call rest ih =>
    constructor
    · intro h
      unfold runAll at h
      rcases hcall : call.attempt services stage with _ | ⟨e | ⟨⟩, between⟩ <;> rw [hcall] at h
      · cases h
      · cases h
      · exact .cons hcall (ih.mp h)
    · rintro (_ | ⟨hfirst, hlater⟩)
      simp only [runAll, hfirst]
      exact ih.mpr hlater

/-- Steps that are not run to the end pass up to one where they stop, and no step after it is
run. -/
theorem runAll_eq_error {stop : Stop}
    (h : runAll services index calls stage = (.error stop, last)) :
    ∃ done call rest between, calls = done ++ call :: rest ∧
      Passes services done stage between ∧
      StopsAt services (index + done.length) call between stop last := by
  induction calls generalizing index stage with
  | nil => cases h
  | cons call rest ih =>
    unfold runAll at h
    rcases hcall : call.attempt services stage with _ | ⟨source | ⟨⟩, between⟩ <;> rw [hcall] at h
    · cases h
      exact ⟨[], call, rest, _, rfl, .nil _, .panicked hcall⟩
    · cases h
      exact ⟨[], call, rest, _, rfl, .nil _, .failed hcall⟩
    · obtain ⟨done, call', rest', between', rfl, hdone, hstops⟩ := ih h
      rw [Nat.add_assoc, Nat.add_comm 1] at hstops
      exact ⟨call :: done, call', rest', between', rfl, .cons hcall hdone, hstops⟩

end StepCall

/-- No name comes into a store twice. -/
theorem Store.nodup_lasting : Store.Lasting fun store ↦ store.values.names.Nodup where
  set := fun hnodup hset ↦ by
    obtain ⟨-, -, rfl⟩ := set_eq_ok_iff.mp hset
    exact Entries.nodup_names_put hnodup
  delete := fun hnodup hdelete ↦ by
    obtain ⟨-, rfl⟩ := delete_eq_ok_iff.mp hdelete
    exact Entries.nodup_names_erase hnodup

/-! ## How a scenario comes out -/

namespace Scenario

/-- Whether a scenario has options of its own that do not let placeholders be followed. -/
def HasDepthZero (scenario : Scenario) : Prop :=
  ∃ options, scenario.options = some options ∧ options.maxInterpolationDepth = 0

/-- What a scenario starts with: a scope with the next number and without variables. -/
def opening (scenario : Scenario) (manager : Manager) (world : σ) : Stage σ :=
  let options := scenario.options.getD manager.options
  { scope := { id := manager.nextId, interpolator := .ofOptions options
               random := ⟨manager.seed options manager.nextId⟩ }
    world }

/-- What comes back from a scenario that is run from a stage, and the stage that is left. -/
inductive ComesOut (services : Services σ) (scenario : Scenario) (stage : Stage σ) :
    Option (Except RunError Report) → Stage σ → Prop
  /-- All steps have passed, and the report has the texts of the variables that are left. -/
  | passed {last : Stage σ} {report : Report}
      (passes : StepCall.Passes services scenario.steps stage last)
      (scenario_eq : report.scenario = scenario.name)
      (steps_eq : report.steps = scenario.steps.length)
      (sorted : report.values.names.Pairwise (· < ·))
      (texts : ∀ name, report.values.find? name =
        (last.scope.store.values.find? name).map Value.render) :
      ComesOut services scenario stage (some (.ok report)) last
  /-- A step has failed after those before it have passed, and the stage is what it has left. -/
  | failed {done rest : List StepCall} {call : StepCall} {between last : Stage σ}
      {source : StepError} (steps_eq : scenario.steps = done ++ call :: rest)
      (passes : StepCall.Passes services done stage between)
      (fails : call.attempt services between = some (.error source, last)) :
      ComesOut services scenario stage
        (some (.error (.step scenario.name done.length call.stepName source))) last
  /-- A step has panicked after those before it have passed, and the stage is what they have
  left. -/
  | panicked {done rest : List StepCall} {call : StepCall} {between : Stage σ}
      (steps_eq : scenario.steps = done ++ call :: rest)
      (passes : StepCall.Passes services done stage between)
      (panics : call.attempt services between = none) :
      ComesOut services scenario stage none between

variable {scenario : Scenario} {services : Services σ} {manager : Manager} {world : σ}

theorem scopeOptions_of_hasDepthZero (h : scenario.HasDepthZero) (common : Options) :
    scenario.scopeOptions common = .error (.invalidOptions .zeroDepth) := by
  obtain ⟨options, hown, hdepth⟩ := h
  rw [scopeOptions, hown]
  simp only [Options.validate, if_pos hdepth, Except.map]

theorem scopeOptions_of_not_hasDepthZero (h : ¬scenario.HasDepthZero) (common : Options) :
    scenario.scopeOptions common = .ok (scenario.options.getD common) := by
  rw [scopeOptions]
  cases hown : scenario.options with
  | none => rfl
  | some options =>
    have hdepth : options.maxInterpolationDepth ≠ 0 := fun hzero ↦ h ⟨options, hown, hzero⟩
    simp only [Options.validate, if_neg hdepth, Except.map, Option.getD_some]

theorem attempt_of_hasDepthZero (hnumbered : manager.Numbered) (h : scenario.HasDepthZero) :
    scenario.attempt services manager world =
      (some (.error (.ofVariable (.invalidOptions .zeroDepth))), manager, world) := by
  rw [attempt_eq hnumbered, scopeOptions_of_hasDepthZero h]

theorem attempt_of_not_hasDepthZero (hnumbered : manager.Numbered) (h : ¬scenario.HasDepthZero) :
    scenario.attempt services manager world =
      let (outcome, last) :=
        StepCall.runAll services 0 scenario.steps (scenario.opening manager world)
      let result := scenario.conclude outcome last.scope
      let manager' :=
        (manager.startWith (scenario.options.getD manager.options)).2.update last.scope
      (result, if result.isSome then manager'.finish manager.nextId else manager',
        last.world) := by
  rw [attempt_eq hnumbered, scopeOptions_of_not_hasDepthZero h]
  rfl

theorem ComesOut.exists_storeRandomText {stage last : Stage σ}
    (h : scenario.ComesOut services stage none last) :
    ∃ charset length before behind name, services.data.capacity < length.toNat ∧
      .storeRandomText charset length before behind name ∈ scenario.steps := by
  cases h with
  | panicked hsteps hpasses hpanics =>
    obtain ⟨charset, length, before, behind, name, rfl, hlong, -⟩ :=
      StepCall.attempt_eq_none_iff.mp hpanics
    refine ⟨charset, length, before, behind, name, hlong, ?_⟩
    rw [hsteps]
    exact List.mem_append_right _ List.mem_cons_self

/-- A report has the names of the store in order, each with the text of its value. -/
theorem report_values (scenario : Scenario) {scope : Scope} (h : scope.store.values.names.Nodup) :
    (scenario.report scope).values.names.Pairwise (· < ·) ∧
      ∀ name, (scenario.report scope).values.find? name =
        (scope.store.values.find? name).map Value.render := by
  have hnodup := h
  rw [← Entries.names_map Value.render] at hnodup
  refine ⟨Entries.pairwise_names_sorted hnodup, fun name ↦ ?_⟩
  rw [report, Entries.find?_sorted hnodup, Entries.find?_map]

/-- Steps that are run from a stage without repeated names come out in one of the three ways. -/
theorem comesOut_runAll {stage last : Stage σ} (hstage : stage.scope.store.values.names.Nodup)
    {outcome : Except Stop Unit}
    (h : StepCall.runAll services 0 scenario.steps stage = (outcome, last)) :
    scenario.ComesOut services stage (scenario.conclude outcome last.scope) last := by
  have hlast := StepCall.runAll_keeps (P := fun stage ↦ stage.scope.store.values.names.Nodup)
    (fun call _ ↦ call.run_keepsStore Store.nodup_lasting services) 0 scenario.steps hstage
  rw [h] at hlast
  obtain ⟨hsorted, htexts⟩ := scenario.report_values hlast
  rcases outcome with stop | ⟨⟩
  · obtain ⟨done, call, rest, between, hsteps, hpasses, hstops⟩ := StepCall.runAll_eq_error h
    rw [Nat.zero_add] at hstops
    cases hstops with
    | failed hfails => exact .failed hsteps hpasses hfails
    | panicked hpanics => exact .panicked hsteps hpasses hpanics
  · exact .passed (StepCall.runAll_eq_ok_iff.mp h) rfl rfl hsorted htexts

end Scenario

/-! ## What is around a run -/

/-- A closed store without variables gets none. -/
theorem Store.empty_lasting :
    Store.Lasting fun store ↦ store.closed = true → store.values = [] where
  set := fun _ hset hclosed ↦ by
    obtain ⟨-, hopen, rfl⟩ := set_eq_ok_iff.mp hset
    exact absurd (hopen.symm.trans hclosed) Bool.false_ne_true
  delete := fun hempty hdelete hclosed ↦ by
    obtain ⟨hfound, rfl⟩ := delete_eq_ok_iff.mp hdelete
    exact absurd (by rw [hempty hclosed]; rfl) hfound

/-- A step leaves the marks of its scope and its store as they are, and so do steps in a row. -/
theorem Scope.Records.run {finished : List Nat} {stage : Stage σ}
    (h : stage.scope.Records finished) (services : Services σ) (call : StepCall) :
    (call.run services stage).2.scope.Records finished := by
  have hscope := call.run_keepsScope services stage
  have hclosed : (call.run services stage).2.scope.store.closed = stage.scope.ended :=
    call.run_keepsStore (Store.closed_lasting stage.scope.ended) services h.closed_eq
  have hempty := call.run_keepsStore Store.empty_lasting services
    fun hclosed ↦ h.values_eq_nil (h.closed_eq.symm.trans hclosed)
  refine ⟨?_, hclosed.trans hscope.ended_eq.symm, fun hended ↦ hempty ?_⟩
  · rw [hscope.ended_eq, hscope.id_eq]
    exact h.ended_iff
  · rw [hclosed, ← hscope.ended_eq]
    exact hended

namespace Manager.Records

variable {manager : Manager} {count : Nat} {finished : List Nat}

theorem numbered (h : manager.Records count finished) : manager.Numbered := by
  intro id hid
  rw [h.ids_eq, List.mem_range'_1] at hid
  rw [h.nextId_eq]
  omega

/-- The next number has not been given to a scope yet. -/
theorem nextId_notMem_range (h : manager.Records count finished) :
    manager.nextId ∉ List.range' 1 count := by
  rw [h.nextId_eq, List.mem_range'_1]
  omega

theorem nextId_notMem_finished (h : manager.Records count finished) :
    manager.nextId ∉ finished := fun hmem ↦ h.nextId_notMem_range (h.finished_subset hmem)

theorem ne_nextId_of_scope?_eq_some (h : manager.Records count finished) {id : Nat} {scope : Scope}
    (hscope : manager.scope? id = some scope) : id ≠ manager.nextId := by
  obtain ⟨hmem, rfl⟩ := h.scope?_eq_some_iff.mp hscope
  exact Nat.ne_of_lt (h.numbered scope.id (List.mem_map_of_mem hmem))

/-- A scope that is begun and worked on is registered besides those that were, and it is found as
the work has left it. The others stay as they are. -/
theorem update_startWith (h : manager.Records count finished) (options : Options) {last : Scope}
    (hid : last.id = manager.nextId) (hlast : last.Records finished) :
    let after := (manager.startWith options).2.update last
    after.registered = manager.nextId :: manager.registered ∧
      after.scope? manager.nextId = some last ∧
      (∀ id scope, manager.scope? id = some scope → after.scope? id = some scope) ∧
      after.Records (count + 1) finished := by
  have hnew : manager.nextId ∉ manager.registered := by
    rw [h.mem_registered_iff]
    exact fun hmem ↦ h.nextId_notMem_range hmem.1
  refine ⟨List.insert_of_not_mem hnew, scope?_update_self ?_ hid, fun id scope hscope ↦ ?_,
    (h.startWith options).2.update hlast⟩
  · rw [scope?_startWith_self h.numbered]
    exact Option.some_ne_none _
  · have hne := h.ne_nextId_of_scope?_eq_some hscope
    rw [scope?_update_of_ne (hid ▸ hne), scope?_startWith_of_ne _ hne, hscope]

/-- If the scope is ended then, it is registered no longer. -/
theorem finish_update_startWith (h : manager.Records count finished) (options : Options)
    {last : Scope} (hid : last.id = manager.nextId) (hlast : last.Records finished) :
    let after := ((manager.startWith options).2.update last).finish manager.nextId
    after.registered = manager.registered ∧
      (∀ id scope, manager.scope? id = some scope → after.scope? id = some scope) ∧
      after.Records (count + 1) (finished ++ [manager.nextId]) := by
  obtain ⟨hregistered, hfound, hothers, hrecords⟩ := h.update_startWith options hid hlast
  refine ⟨?_, fun id scope hscope ↦ ?_, hrecords.finish hfound⟩
  · have hactive : ¬last.ended = true := by
      rw [hlast.ended_iff, hid]
      exact h.nextId_notMem_finished
    rw [Manager.finish, hfound]
    simp only [if_neg hactive, hregistered, List.erase_cons_head]
  · rw [scope?_finish_of_ne (h.ne_nextId_of_scope?_eq_some hscope), hothers id scope hscope]

end Manager.Records

/-- **Running a scenario.** Whatever comes of a run, the other scopes are as they were. Options of
its own that do not let placeholders be followed are refused before anything is done. Else the run
comes out in one of the three ways, from a new scope without variables. If anything comes back, the
scope has been ended and the register is as it was; if not, the scope is registered besides the
others and has all that the steps have left in it, and the scenario asks for a text that there is no
room for. What the manager has on record agrees with that either way, so that the next run finds it
so. -/
theorem Scenario.attempt_comesOut (services : Services σ) {scenario : Scenario}
    {manager after : Manager} {count : Nat} {finished : List Nat} {world left : σ}
    {result : Option (Except RunError Report)} (h : manager.Records count finished)
    (hrun : scenario.attempt services manager world = (result, after, left)) :
    (∀ id scope, manager.scope? id = some scope → after.scope? id = some scope) ∧
      (scenario.HasDepthZero →
        result = some (.error (.ofVariable (.invalidOptions .zeroDepth))) ∧ after = manager ∧
          left = world) ∧
      (¬scenario.HasDepthZero → ∃ last : Stage σ,
        scenario.ComesOut services (scenario.opening manager world) result last ∧
          left = last.world ∧
          (result ≠ none → after.registered = manager.registered ∧
            after.Records (count + 1) (finished ++ [manager.nextId])) ∧
          (result = none → after.registered = manager.nextId :: manager.registered ∧
            after.scope? manager.nextId = some last.scope ∧
            after.Records (count + 1) finished ∧
            ∃ charset length before behind name, services.data.capacity < length.toNat ∧
              .storeRandomText charset length before behind name ∈ scenario.steps)) := by
  by_cases hdepth : scenario.HasDepthZero
  · rw [attempt_of_hasDepthZero h.numbered hdepth] at hrun
    cases hrun
    exact ⟨fun _ _ ↦ id, fun _ ↦ ⟨rfl, rfl, rfl⟩, fun hnot ↦ absurd hdepth hnot⟩
  · rw [attempt_of_not_hasDepthZero h.numbered hdepth] at hrun
    let first : Stage σ := scenario.opening manager world
    have hnodup : first.scope.store.values.names.Nodup := List.nodup_nil
    have hfirst : first.scope.Records finished :=
      ⟨iff_of_false Bool.false_ne_true h.nextId_notMem_finished, rfl, nofun⟩
    have hcontinues := StepCall.runAll_continues services 0 scenario.steps first
    have hlast := StepCall.runAll_keeps (P := fun stage ↦ stage.scope.Records finished)
      (fun call _ hstage ↦ hstage.run services call) 0 scenario.steps hfirst
    rcases hsteps : StepCall.runAll services 0 scenario.steps first with ⟨outcome, last⟩
    have hout := comesOut_runAll hnodup hsteps
    rw [hsteps] at hrun hcontinues hlast
    let options := scenario.options.getD manager.options
    cases hresult : scenario.conclude outcome last.scope with
    | none =>
      -- The panic skips the end of the scope.
      obtain ⟨hregistered, hfound, hothers, hrecords⟩ :=
        h.update_startWith options hcontinues.id_eq hlast
      simp only [hresult, Option.isSome_none] at hrun hout
      cases hrun
      exact ⟨hothers, fun hzero ↦ absurd hzero hdepth, fun _ ↦ ⟨last, hout, rfl,
        fun hsome ↦ absurd rfl hsome,
        fun _ ↦ ⟨hregistered, hfound, hrecords, hout.exists_storeRandomText⟩⟩⟩
    | some result =>
      obtain ⟨hregistered, hothers, hrecords⟩ :=
        h.finish_update_startWith options hcontinues.id_eq hlast
      simp only [hresult, Option.isSome_some] at hrun hout
      cases hrun
      exact ⟨hothers, fun hzero ↦ absurd hzero hdepth,
        fun _ ↦ ⟨last, hout, rfl, fun _ ↦ ⟨hregistered, hrecords⟩, nofun⟩⟩

/-- The second of three steps fails. A scope that is still active has its variable as before, and
the next number goes to the one after. -/
theorem Scenario.attempt_comesOut_second_fails :
    let busy : Scope := { id := 1, interpolator := .default, random := ⟨7⟩,
                          store := { values := [("a", .string "kept")] } }
    let manager : Manager := { scopes := [busy], registered := [1], nextId := 2 }
    let scenario : Scenario :=
      { schemaVersion := Scenario.currentVersion, name := "broken", options := none
        steps := [.storeText "x" "a", .storeText "x" "a", .storeText "x" "b"]
        expectedVariables := [] }
    manager.Records 1 [] ∧ ¬scenario.HasDepthZero ∧
      ∃ after left, scenario.attempt (.local Draw.epoch) manager {} =
          (some (.error (.step "broken" 1 "storeText" (.ofVariable (.alreadyExists "a")))), after,
            left) ∧
        after.registered = [1] ∧ after.scope? 1 = some busy ∧
        after.Records 2 [2] := by
  intro busy manager scenario
  have hrecords : manager.Records 1 [] :=
    { nextId_eq := rfl
      ids_eq := rfl
      finished_subset := List.nil_subset _
      nodup_registered := List.nodup_singleton 1
      mem_registered_iff := by simp [manager]
      scopes := fun scope hmem ↦ by
        obtain rfl := List.mem_singleton.mp hmem
        exact ⟨by simp, rfl, nofun⟩ }
  have hdepth : ¬scenario.HasDepthZero := nofun
  have hrun : scenario.attempt (.local Draw.epoch) manager {} =
      (some (.error (.step "broken" 1 "storeText" (.ofVariable (.alreadyExists "a")))), _, _) := rfl
  obtain ⟨hothers, -, hout⟩ := Scenario.attempt_comesOut _ hrecords hrun
  obtain ⟨last, -, -, hended, -⟩ := hout hdepth
  obtain ⟨hregistered, hafter⟩ := hended (Option.some_ne_none _)
  exact ⟨hrecords, hdepth, _, _, hrun, hregistered, hothers 1 busy rfl, hafter⟩

/-- A text that there is no room for is asked for. Nothing comes back, and the scope, the first one,
stays registered. -/
theorem Scenario.attempt_leaves_scope :
    let scenario : Scenario :=
      { schemaVersion := Scenario.currentVersion, name := "s", options := none
        steps := [.storeRandomText .letters 18446744073709551615 none none "t", .deleteVariable "t"]
        expectedVariables := [] }
    let (result, after, _) := scenario.attempt (.local Draw.epoch) {} {}
    ({} : Manager).registered = [] ∧ result = none ∧ after.registered = [1] :=
  ⟨rfl, rfl, rfl⟩

end Playbook
