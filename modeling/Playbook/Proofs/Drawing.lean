import Playbook.File.Local
import Playbook.Proofs.Composition
import Playbook.Proofs.Failure
import Playbook.Proofs.RandomWords

/-!
# When random words are used up

Seeded data can be told beforehand only if random words are used up where they are asked for and
nowhere else. Most calls are made without draws and leave the words as they are, whether they
succeed or fail. A call that draws looks first whether its new variable is absent, whether there is
something to draw from and what its mask or provider is, so that most of its failures come before
the draw.

What is left to fail after the draw is little (`StepCall.FailsLate`): the store refuses an empty
name, the texts around random characters are resolved late, and a random date may have no form in
the format asked for. To be refused for a variable that exists is none of these.
-/

namespace Playbook

variable {σ : Type}

/-! ## Drawing from what is there -/

namespace Variable

variable {v : Variable} {random random' : Random} {e : VariableError}

/-- A pick fails only if there is nothing to pick from, and then it does not draw. -/
theorem pick_eq_error {values : List Value} (h : v.pick values random = (.error e, random')) :
    random' = random := by
  by_cases hempty : values = []
  · rw [hempty] at h
    cases h
    rfl
  · obtain ⟨_, -, hpick⟩ := exists_pick_eq_ok (v := v) hempty random
    rw [hpick] at h
    cases h

theorem randomItem_eq_error (h : v.randomItem random = (.error e, random')) : random' = random := by
  rw [randomItem] at h
  split at h
  · exact pick_eq_error h
  · cases h
    rfl

theorem randomValue_eq_error (h : v.randomValue random = (.error e, random')) :
    random' = random := by
  rw [randomValue] at h
  split at h
  · exact pick_eq_error h
  · cases h
    rfl

end Variable

/-! ## What computations fail with -/

theorem Moment.stored_eq_error {m : Moment} {format : Option String} {e : StepError}
    (h : m.stored format = .error e) :
    ∃ text, format = some text ∧ e = .date (.badFormat text) := by
  cases format with
  | none => cases h
  | some text =>
    rw [Moment.stored] at h
    split at h
    · cases h
    · exact ⟨text, rfl, (Except.error.inj h).symm⟩

namespace Scope

variable {scope : Scope}

theorem resolve_ne_alreadyExists (scope : Scope) (text name : String) :
    scope.resolve text ≠ .error (.alreadyExists name) := by
  intro h
  rcases Outcome.bind_eq_error_iff.mp h with hactive | ⟨-, -, hrest⟩
  · rw [requireActive] at hactive
    split at hactive <;> cases hactive
  · rcases Outcome.bind_eq_error_iff.mp hrest with hresolve | ⟨_, -, hdone⟩
    · rcases Interpolator.resolve_eq_error hresolve with
        ⟨_, -, _, -, hpass⟩ | ⟨_, he, -⟩
      · rcases Interpolator.pass_eq_error hpass with ⟨_, he, -⟩ | ⟨_, he, -⟩ <;> cases he
      · cases he
    · cases hdone

/-- Random characters are drawn, and then one of the texts around them is not resolved. -/
theorem randomText_eq_error {services : Services σ} {charset : Charset} {length : UInt64}
    {before after : Option String} {state state' : Random × σ} {e : StepError}
    (h : scope.randomText services charset length before after state = (.error e, state')) :
    ∃ cause, e = .ofVariable cause ∧
      (scope.resolveOr "" before = .error cause ∨ scope.resolveOr "" after = .error cause) := by
  rcases Work.bind_eq_error_iff.mp h with hbody | ⟨_, _, -, hbefore⟩
  · cases hbody
  rcases Work.bind_eq_error_iff.mp hbefore with hbefore | ⟨_, _, -, hafter⟩
  · obtain ⟨cause, hcause, rfl, -⟩ := Work.ofVariables_eq_error_iff.mp hbefore
    exact ⟨cause, rfl, .inl hcause⟩
  rcases Work.bind_eq_error_iff.mp hafter with hafter | ⟨_, _, -, hdone⟩
  · obtain ⟨cause, hcause, rfl, -⟩ := Work.ofVariables_eq_error_iff.mp hafter
    exact ⟨cause, rfl, .inr hcause⟩
  · cases hdone

end Scope

/-! ## Failing before and after the draw -/

/-- Whether a computation that fails has left the random words, unless it fails late. -/
def Work.DrawsLast {α : Type} (late : StepError → Prop) (work : Work σ α) : Prop :=
  ∀ ⦃state after e⦄, work state = (.error e, after) → after.1 = state.1 ∨ late e

namespace Work.DrawsLast

variable {α β : Type} {late : StepError → Prop}

/-- What is not drawn comes first. -/
theorem ofVariables_bind {result : Except VariableError α} {next : α → Work σ β}
    (h : ∀ a, (next a).DrawsLast late) :
    (Work.ofVariables result >>= next).DrawsLast late := by
  intro state after e hrun
  rcases bind_eq_error_iff.mp hrun with hresult | ⟨a, between, hresult, hnext⟩
  · obtain ⟨-, -, -, rfl⟩ := ofVariables_eq_error_iff.mp hresult
    exact .inl rfl
  · obtain rfl : between = state := congrArg Prod.snd hresult.symm
    exact h a hnext

/-- What is left to fail once the words are drawn is late. -/
theorem draw_bind {draw : Draw α} {next : α → Except StepError β}
    (h : ∀ {a e}, next a = .error e → late e) :
    (Work.draw (σ := σ) draw >>= fun a ↦ Work.of (next a)).DrawsLast late := by
  intro state after e hrun
  rcases bind_eq_error_iff.mp hrun with hdraw | ⟨a, between, -, hnext⟩
  · cases hdraw
  · exact .inr (h (of_eq_error_iff.mp hnext).1)

theorem draw_bind_pure {draw : Draw α} {f : α → β} :
    (Work.draw (σ := σ) draw >>= fun a ↦ pure (f a)).DrawsLast late := by
  have hof : (Work.draw (σ := σ) draw >>= fun a ↦ Work.of (.ok (f a))).DrawsLast late :=
    draw_bind nofun
  exact hof

theorem drawChecked {draw : Random → Except VariableError α × Random}
    (h : ∀ {random random' e}, draw random = (.error e, random') → random' = random) :
    (Work.drawChecked (σ := σ) draw).DrawsLast late := by
  rintro ⟨random, world⟩ after e hrun
  rw [Work.drawChecked] at hrun
  rcases hdraw : draw random with ⟨cause | a, random'⟩ <;> simp only [hdraw] at hrun <;> cases hrun
  exact .inl (h hdraw)

end Work.DrawsLast

namespace StepRun

variable {stage after : Stage σ} {late : StepError → Prop} {e : StepError}

/-- A step that creates has left the random words if it fails, unless its computation fails late or
its variable has no name. The store is open, or the step would not have come to draw. -/
theorem create_eq_error {name : String} {work : Scope → Work σ Value}
    (hstore : stage.scope.store.closed = stage.scope.ended)
    (hwork : (work stage.scope).DrawsLast late) (hname : name = "" → late (.ofVariable .emptyName))
    (h : create name work stage = (.error e, after)) :
    after.scope.random = stage.scope.random ∨ late e := by
  rw [create] at h
  rcases demand_cases (absent name) (compute work (put name)) stage with
    ⟨_, -, hrun⟩ | ⟨hcheck, hrun⟩ <;> rw [hrun] at h
  · cases h
    exact .inl rfl
  obtain ⟨between, hsame, ⟨_, hresult, hrun⟩ | ⟨value, -, hrun⟩⟩ :=
    compute_cases work (put name) stage <;> rw [hrun] at h
  · cases h
    exact hwork (Stage.work_eq_of_run_eq hresult)
  · obtain ⟨cause, hset, rfl⟩ := put_eq_error h
    rw [hsame] at hset
    rcases Store.set_eq_error_iff.mp hset with ⟨hempty, rfl⟩ | ⟨-, hclosed, -⟩
    · exact .inr (hname hempty)
    · have hactive : stage.scope.isActive := (absent_eq_ok_iff.mp hcheck).1
      rw [hstore] at hclosed
      rw [Scope.isActive, hclosed] at hactive
      cases hactive

theorem createDrawn_eq_error {name : String} {text : Draw String}
    (hstore : stage.scope.store.closed = stage.scope.ended)
    (hname : name = "" → late (.ofVariable .emptyName))
    (h : createDrawn name text stage = (.error e, after)) :
    after.scope.random = stage.scope.random ∨ late e :=
  create_eq_error hstore .draw_bind_pure hname h

/-- A text that is not resolved is told before anything is drawn. -/
theorem resolving_eq_error {text : String} {next : String → StepRun σ}
    (hnext : ∀ {resolved}, next resolved stage = (.error e, after) →
      after.scope.random = stage.scope.random ∨ late e)
    (h : resolving text next stage = (.error e, after)) :
    after.scope.random = stage.scope.random ∨ late e := by
  cases hresolve : stage.scope.resolve text with
  | error cause =>
    rw [resolving_of_error next hresolve] at h
    cases h
    exact .inl rfl
  | ok resolved =>
    rw [resolving_of_ok next hresolve] at h
    exact hnext h

end StepRun

/-! ## Calls -/

/-- What a call can fail with after it has drawn. -/
inductive StepCall.FailsLate (scope : Scope) : StepCall → StepError → Prop
  /-- The store refuses a variable without a name. -/
  | unnamed {call : StepCall} (h : call.effect? = some (.creates "")) :
      FailsLate scope call (.ofVariable .emptyName)
  /-- A text around random characters is not resolved. -/
  | unresolved {charset : Charset} {length : UInt64} {before after : Option String} {name : String}
      {cause : VariableError}
      (h : scope.resolveOr "" before = .error cause ∨ scope.resolveOr "" after = .error cause) :
      FailsLate scope (.storeRandomText charset length before after name) (.ofVariable cause)
  /-- A random date has no form in its format. -/
  | badFormat {format name : String} :
      FailsLate scope (.storeRandomDate (some format) name) (.date (.badFormat format))

/-- A variable that exists is noticed before the draw. -/
theorem StepCall.FailsLate.ne_alreadyExists {scope : Scope} {call : StepCall} {name : String} :
    ¬call.FailsLate scope (.ofVariable (.alreadyExists name)) := by
  have hresolveOr : ∀ text, scope.resolveOr "" text ≠ .error (.alreadyExists name) := by
    rintro (_ | text)
    · exact nofun
    · exact scope.resolve_ne_alreadyExists text name
  intro h
  cases h with
  | unresolved h => exact h.elim (hresolveOr _) (hresolveOr _)

theorem StepCall.random_eq_of_not_draws (services : Services σ) {call : StepCall}
    (hdraws : call.draws = false) (stage : Stage σ) :
    (call.run services stage).2.scope.random = stage.scope.random := by
  have hcomposed := call.run_composed services
  rw [hdraws] at hcomposed
  exact hcomposed.random_eq stage

/-- A call that fails has left the random words, unless it draws and fails late. -/
theorem StepCall.random_eq_or_failsLate (services : Services σ) {call : StepCall}
    {stage after : Stage σ} {e : StepError}
    (hstore : stage.scope.store.closed = stage.scope.ended)
    (h : call.run services stage = (.error e, after)) :
    after.scope.random = stage.scope.random ∨ call.draws ∧ call.FailsLate stage.scope e := by
  by_cases hdraws : call.draws
  swap
  · have hrandom := random_eq_of_not_draws services ((Bool.not_eq_true _).mp hdraws) stage
    rw [h] at hrandom
    exact .inl hrandom
  suffices hlate : after.scope.random = stage.scope.random ∨ call.FailsLate stage.scope e from
    hlate.imp_right fun hlate ↦ ⟨hdraws, hlate⟩
  have hname : ∀ {name}, call.effect? = some (.creates name) → name = "" →
      call.FailsLate stage.scope (.ofVariable .emptyName) := by
    rintro name heffect rfl
    exact .unnamed heffect
  cases call with
  | storeRandomElement collection name =>
    exact StepRun.create_eq_error hstore
      (.ofVariables_bind fun _ ↦ .drawChecked Variable.randomItem_eq_error) (hname rfl) h
  | storeRandomValue mapping name =>
    exact StepRun.create_eq_error hstore
      (.ofVariables_bind fun _ ↦ .drawChecked Variable.randomValue_eq_error) (hname rfl) h
  | storeRandomDate format name =>
    refine StepRun.create_eq_error hstore (.draw_bind fun hstored ↦ ?_) (hname rfl) h
    obtain ⟨text, rfl, rfl⟩ := Moment.stored_eq_error hstored
    exact .badFormat
  | storeRandomText charset length before behind name =>
    refine StepRun.create_eq_error hstore ?_ (hname rfl) h
    intro state after e hrun
    obtain ⟨cause, rfl, hcause⟩ := Scope.randomText_eq_error hrun
    exact .inr (.unresolved hcause)
  | storeUuid | storeRandomMonth | storeRandomWeekday | storeRandomIp | storeRandomUrl =>
    exact StepRun.createDrawn_eq_error hstore (hname rfl) h
  | storeRandomPhone | storeRandomEmail =>
    exact StepRun.resolving_eq_error (StepRun.createDrawn_eq_error hstore (hname rfl)) h
  | _ => cases hdraws

/-- **Random words are used up where they are asked for.** A call made without draws leaves them. So
does a call that draws, if it fails, unless it fails late; and to be refused for a variable that
exists is not late. A store is closed when its scope ends, and it still agrees with its scope
afterwards, so that this goes on from call to call. -/
theorem StepCall.run_draws_where_asked (services : Services σ) {call : StepCall}
    {stage after : Stage σ} {result : Except StepError Unit}
    (hstore : stage.scope.store.closed = stage.scope.ended)
    (h : call.run services stage = (result, after)) :
    (call.draws = false → after.scope.random = stage.scope.random) ∧
      (∀ e, result = .error e →
        after.scope.random = stage.scope.random ∨ call.draws ∧ call.FailsLate stage.scope e) ∧
      (∀ name, result = .error (.ofVariable (.alreadyExists name)) →
        after.scope.random = stage.scope.random) ∧
      after.scope.store.closed = after.scope.ended := by
  have hfail : ∀ e, result = .error e →
      after.scope.random = stage.scope.random ∨ call.draws ∧ call.FailsLate stage.scope e := by
    rintro e rfl
    exact random_eq_or_failsLate services hstore h
  refine ⟨fun hdraws ↦ ?_, hfail, fun name hexists ↦ ?_, ?_⟩
  · have hrandom := random_eq_of_not_draws services hdraws stage
    rwa [h] at hrandom
  · exact (hfail _ hexists).resolve_right fun hlate ↦ hlate.2.ne_alreadyExists
  · have hclosed :=
      call.run_keepsStore (Store.closed_lasting stage.scope.store.closed) services rfl
    have hscope := call.run_keepsScope services stage
    rw [h] at hclosed hscope
    rw [hclosed, hstore, hscope.ended_eq]

/-- A new identifier is refused under a name that is taken, and the random words are what they
were. -/
theorem StepCall.run_draws_where_asked_taken :
    let taken : Scope := { id := 1, interpolator := .default, random := ⟨7⟩,
                           store := { values := [("id", .string "text")] } }
    taken.store.closed = taken.ended ∧
      ∃ after, (StepCall.storeUuid "id").run (.local Draw.epoch) ⟨taken, {}⟩ =
          (.error (.ofVariable (.alreadyExists "id")), after) ∧
        after.scope.random = ⟨7⟩ := by
  intro taken
  have hrefused : (StepCall.storeUuid "id").run (.local Draw.epoch) ⟨taken, {}⟩ =
      (.error (.ofVariable (.alreadyExists "id")), ⟨taken, {}⟩) := rfl
  exact ⟨rfl, _, hrefused, (StepCall.run_draws_where_asked _ rfl hrefused).2.2.1 "id" rfl⟩

/-- A month for a variable without a name is drawn before it is refused. -/
example :
    let unnamed := (StepCall.storeRandomMonth "").run (.local Draw.epoch)
      ⟨{ id := 1, interpolator := .default, random := ⟨7⟩ }, {}⟩
    unnamed.1 = .error (.ofVariable .emptyName) ∧ unnamed.2.scope.random ≠ ⟨7⟩ := by
  decide +kernel

end Playbook
