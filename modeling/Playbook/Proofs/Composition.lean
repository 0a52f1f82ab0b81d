import Playbook.Proofs.StepEffect

/-!
# How steps are put together

All steps are put together from the same few parts. What a step computes is made of results that
have come already, of requests to the clock and to the files, and of draws; what it does is made of
demands, of computations and of writing to the store or erasing from it. `StepRun.Composed` says so,
and says whether draws are among the parts.

What the parts keep to is then kept to by every step (`StepCall.run_composed`), by an induction that
does not look at steps again (`StepRun.Composed.relates`). Three things are proved here: a step
changes of its scope the random words and the store only; a step without draws leaves the random
words too; and a step does to the store what can be done by setting and deleting variables.
-/

namespace Playbook

variable {σ α : Type}

/-- Whether a call may draw random words. -/
def StepCall.draws : StepCall → Bool
  | .storeRandomElement _ _ | .storeRandomValue _ _ | .storeRandomDate _ _
  | .storeRandomText _ _ _ _ _ | .storeUuid _ | .storeRandomPhone _ _ | .storeRandomMonth _
  | .storeRandomWeekday _ | .storeRandomEmail _ _ | .storeRandomIp _ | .storeRandomUrl _ => true
  | _ => false

/-! ## Computations -/

/-- Whether a computation is made of results, requests to services and, if allowed, draws. -/
inductive Work.Composed (services : Services σ) (draws : Bool) : {α : Type} → Work σ α → Prop
  | of {α : Type} (result : Except StepError α) : Composed services draws (Work.of result)
  | bind {α β : Type} {work : Work σ α} {next : α → Work σ β}
      (first : Composed services draws work) (later : ∀ a, Composed services draws (next a)) :
      Composed services draws (work >>= next)
  | now : Composed services draws (Work.ask services.now)
  | isFile (path : String) : Composed services draws (Work.ask (services.files.isFile path))
  | read (path : String) : Composed services draws (Work.askChecked (services.files.read path))
  | write (path text : String) :
      Composed services draws (Work.askChecked (services.files.write path text))
  | draw {α : Type} (allowed : draws = true) (draw : Draw α) :
      Composed services draws (Work.draw draw)
  | drawChecked {α : Type} (allowed : draws = true)
      (draw : Random → Except VariableError α × Random) :
      Composed services draws (Work.drawChecked draw)

namespace Work.Composed

variable {services : Services σ} {draws : Bool}

theorem pure (a : α) : (Pure.pure a : Work σ α).Composed services draws := .of (.ok a)

theorem momentOrNow (scope : Scope) (start : Option String) :
    (scope.momentOrNow services start).Composed services draws := by
  cases start with
  | none => exact .now
  | some text => exact .of _

theorem createFile (scope : Scope) (row : FileRow) :
    (scope.createFile services row).Composed services draws := by
  refine .bind (.of _) ?_
  rintro ⟨name, path⟩
  exact .bind (.of _) fun content ↦ .bind (.write path content) fun _ ↦ .pure _

theorem demandFiles (scope : Scope) (rows : List FileRow) :
    (scope.demandFiles services rows).Composed services draws := by
  induction rows with
  | nil => exact .pure ()
  | cons row rest ih =>
    refine .bind (.of _) ?_
    rintro ⟨-, path⟩
    refine .bind (.isFile path) fun found ↦ ?_
    cases found with
    | false => exact .of _
    | true => exact ih

end Work.Composed

/-! ## Steps -/

namespace StepRun

/-- Takes a variable out of the store. -/
def delete (name : String) : StepRun σ := fun stage ↦
  match stage.scope.store.delete name with
  | .ok store => (.ok (), { stage with scope := { stage.scope with store } })
  | .error e => (.error (.ofVariable e), stage)

/-- Goes on if something has been done. -/
def andThen (first next : StepRun σ) : StepRun σ := fun stage ↦
  match first stage with
  | (.ok (), stage) => next stage
  | (.error e, stage) => (.error e, stage)

theorem andThen_eq_ok_iff {first next : StepRun σ} {stage last : Stage σ} :
    andThen first next stage = (.ok (), last) ↔
      ∃ between, first stage = (.ok (), between) ∧ next between = (.ok (), last) := by
  unfold andThen
  rcases first stage with ⟨e | ⟨⟩, between⟩
  · exact ⟨nofun, fun ⟨_, h, _⟩ ↦ nomatch h⟩
  · refine ⟨fun h ↦ ⟨between, rfl, h⟩, fun ⟨_, h, hnext⟩ ↦ ?_⟩
    cases h
    exact hnext

theorem remove_eq (name : String) :
    remove (σ := σ) name = demand (present name) (delete name) := rfl

theorem createFiles_cons (services : Services σ) (row : FileRow) (rest : List FileRow) :
    createFiles services (row :: rest) =
      compute (fun scope ↦ scope.createFile services row) fun file ↦
        andThen (put file.1 (.string file.2)) (createFiles services rest) := rfl

/-- Whether a step is made of demands, computations and changes of the store. -/
inductive Composed (services : Services σ) (draws : Bool) : StepRun σ → Prop
  | done (result : Except StepError Unit) : Composed services draws (done result)
  | put (name : String) (value : Value) : Composed services draws (put name value)
  | delete (name : String) : Composed services draws (delete name)
  | demand (check : Scope → Except StepError Unit) {next : StepRun σ}
      (later : Composed services draws next) : Composed services draws (demand check next)
  | compute {α : Type} {work : Scope → Work σ α} {next : α → StepRun σ}
      (first : ∀ scope, (work scope).Composed services draws)
      (later : ∀ a, Composed services draws (next a)) : Composed services draws (compute work next)
  | andThen {first next : StepRun σ} (done : Composed services draws first)
      (later : Composed services draws next) : Composed services draws (andThen first next)

namespace Composed

variable {services : Services σ} {draws : Bool} {name : String}

theorem create {work : Scope → Work σ Value}
    (h : ∀ scope, (work scope).Composed services draws) :
    (create name work).Composed services draws :=
  .demand _ (.compute h fun value ↦ .put name value)

theorem createFrom (value : Scope → Except StepError Value) :
    (createFrom name value).Composed services draws :=
  create fun _ ↦ .of _

theorem createDrawn (h : draws = true) (text : Draw String) :
    (createDrawn name text).Composed services draws :=
  create fun _ ↦ .bind (.draw h text) fun _ ↦ .pure _

theorem replace (name : String) (value : Value) :
    (replace name value).Composed services draws := .demand _ (.put name value)

theorem remove (name : String) : (remove name).Composed services draws := by
  rw [remove_eq]
  exact .demand _ (.delete name)

theorem inspect {work : Scope → Work σ Unit}
    (h : ∀ scope, (work scope).Composed services draws) : (inspect work).Composed services draws :=
  .demand _ (.compute h fun _ ↦ .done _)

theorem resolving {text : String} {next : String → StepRun σ}
    (h : ∀ resolved, (next resolved).Composed services draws) :
    (resolving text next).Composed services draws := .compute (fun _ ↦ .of _) h

theorem createFiles (rows : List FileRow) :
    (createFiles services rows).Composed services draws := by
  induction rows with
  | nil => exact .done _
  | cons row rest ih =>
    rw [createFiles_cons]
    exact .compute (fun scope ↦ .createFile scope row) fun file ↦ .andThen (.put _ _) ih

end Composed
end StepRun

open StepRun in
/-- **What steps are made of.** The calls that draw are those that `StepCall.draws` names. -/
theorem StepCall.run_composed (services : Services σ) (call : StepCall) :
    (call.run services).Composed services call.draws := by
  cases call with
  | storeTypedSequence kind name table =>
    rw [StepCall.run]
    cases Kind.ofName? kind with
    | none => exact .done _
    | some kind => exact .createFrom _
  | changeVariable name value => exact .replace name _
  | emptyVariable name => exact .replace name _
  | deleteVariable name => exact .remove name
  | storeRandomElement | storeRandomValue =>
    exact .create fun _ ↦ .bind (.of _) fun _ ↦ .drawChecked rfl _
  | storeCurrentDate => exact .create fun _ ↦ .bind .now fun _ ↦ .of _
  | storeRandomDate => exact .create fun _ ↦ .bind (.draw rfl _) fun _ ↦ .of _
  | storeShiftedDate shift direction start format name =>
    exact .create fun scope ↦ .bind (.momentOrNow scope start) fun _ ↦ .of _
  | storeRandomText =>
    exact .create fun _ ↦
      .bind (.draw rfl _) fun _ ↦ .bind (.of _) fun _ ↦ .bind (.of _) fun _ ↦ .pure _
  | storeUuid | storeRandomMonth | storeRandomWeekday | storeRandomIp | storeRandomUrl =>
    exact .createDrawn rfl _
  | storeRandomPhone | storeRandomEmail => exact .resolving fun _ ↦ .createDrawn rfl _
  | assertText | assertNull | assertNotNull | assertEmpty | assertNotEmpty =>
    exact .inspect fun _ ↦ .of _
  | createFiles files =>
    rw [StepCall.run]
    exact .demand _ (.createFiles files)
  | assertFilesExist files =>
    cases files with
    | nil => exact .done _
    | cons file files => exact .inspect fun scope ↦ .demandFiles scope _
  | storeFileContent path name =>
    exact .create fun _ ↦ .bind (.of _) fun path ↦ .bind (.read path) fun _ ↦ .pure _
  | writeVariableToFile name path =>
    exact .inspect fun _ ↦ .bind (.of _) fun _ ↦ .bind (.of _) fun path ↦ .write path _
  | _ => exact .createFrom _

/-!
## From the parts to the whole

A relation between stages that goes on from one part to the next holds between the stage a step is
run on and the one it leaves.
-/

/-- Whether a relation between stages is one that parts of steps keep to, and goes on from one part
to the next. -/
structure Stage.Spans (services : Services σ) (draws : Bool)
    (R : Stage σ → Stage σ → Prop) : Prop where
  refl : ∀ stage, R stage stage
  trans : ∀ {first second third}, R first second → R second third → R first third
  run : ∀ {α : Type} {work : Work σ α}, work.Composed services draws →
    ∀ stage, R stage (stage.run work).2
  set : ∀ {stage : Stage σ} {name value store}, stage.scope.store.set name value = .ok store →
    R stage { stage with scope := { stage.scope with store } }
  delete : ∀ {stage : Stage σ} {name store}, stage.scope.store.delete name = .ok store →
    R stage { stage with scope := { stage.scope with store } }

/-- **From the parts to the whole**, by induction on how the step is put together. -/
theorem StepRun.Composed.relates {services : Services σ} {draws : Bool}
    {R : Stage σ → Stage σ → Prop} (hR : Stage.Spans services draws R) {run : StepRun σ}
    (h : run.Composed services draws) (stage : Stage σ) : R stage (run stage).2 := by
  induction h generalizing stage with
  | done => exact hR.refl stage
  | put name value =>
    unfold StepRun.put
    cases hset : stage.scope.store.set name value with
    | error e => exact hR.refl stage
    | ok store => exact hR.set hset
  | delete name =>
    unfold StepRun.delete
    cases hdelete : stage.scope.store.delete name with
    | error e => exact hR.refl stage
    | ok store => exact hR.delete hdelete
  | @demand check next _ ih =>
    rcases demand_cases check next stage with ⟨e, -, hrun⟩ | ⟨-, hrun⟩ <;> rw [hrun]
    · exact hR.refl stage
    · exact ih stage
  | @compute _ work next hwork _ ih =>
    have hfirst := hR.run (hwork stage.scope) stage
    obtain ⟨after, -, ⟨e, hresult, hrun⟩ | ⟨a, hresult, hrun⟩⟩ := compute_cases work next stage <;>
      rw [hresult] at hfirst <;> rw [hrun]
    · exact hfirst
    · exact hR.trans hfirst (ih a after)
  | @andThen first next _ _ ihfirst ihnext =>
    unfold StepRun.andThen
    have hfirst := ihfirst stage
    rcases hresult : first stage with ⟨e | ⟨⟩, between⟩ <;> rw [hresult] at hfirst
    · exact hfirst
    · exact hR.trans hfirst (ihnext between)

/-! ### The scope -/

/-- Whether a scope is another one with other random words and another store. -/
structure Scope.Continues (before after : Scope) : Prop where
  id_eq : after.id = before.id
  interpolator_eq : after.interpolator = before.interpolator
  ended_eq : after.ended = before.ended

namespace Scope.Continues

variable {before between after : Scope}

theorem refl (scope : Scope) : scope.Continues scope := ⟨rfl, rfl, rfl⟩

theorem trans (h : before.Continues between) (h' : between.Continues after) :
    before.Continues after :=
  ⟨h'.id_eq.trans h.id_eq, h'.interpolator_eq.trans h.interpolator_eq,
    h'.ended_eq.trans h.ended_eq⟩

theorem isActive_eq (h : before.Continues after) : after.isActive = before.isActive := by
  rw [isActive, isActive, h.ended_eq]

end Scope.Continues

def StepRun.KeepsScope (run : StepRun σ) : Prop :=
  ∀ stage : Stage σ, stage.scope.Continues (run stage).2.scope

/-- All that a step changes of its scope are the random words and the store. -/
theorem StepCall.run_keepsScope (services : Services σ) (call : StepCall) :
    (call.run services).KeepsScope :=
  (call.run_composed services).relates
    (R := fun before after ↦ before.scope.Continues after.scope)
    { refl := fun stage ↦ .refl stage.scope
      trans := .trans
      run := fun _ _ ↦ ⟨rfl, rfl, rfl⟩
      set := fun _ ↦ ⟨rfl, rfl, rfl⟩
      delete := fun _ ↦ ⟨rfl, rfl, rfl⟩ }

/-! ### The random words -/

/-- Without draws a computation leaves the random words. -/
theorem Work.Composed.random_eq {services : Services σ} {work : Work σ α}
    (h : work.Composed services false) (state : Random × σ) : (work state).2.1 = state.1 := by
  induction h generalizing state with
  | of | now | isFile | read | write => rfl
  | @bind _ _ work next _ _ ihwork ihnext =>
    rw [Work.bind_apply]
    have hfirst := ihwork state
    rcases hresult : work state with ⟨e | a, between⟩ <;> rw [hresult] at hfirst
    · exact hfirst
    · exact (ihnext a between).trans hfirst
  | draw hdraws | drawChecked hdraws => cases hdraws

/-- A step that is made without draws leaves the random words. -/
theorem StepRun.Composed.random_eq {services : Services σ} {run : StepRun σ}
    (h : run.Composed services false) (stage : Stage σ) :
    (run stage).2.scope.random = stage.scope.random :=
  h.relates (R := fun before after ↦ after.scope.random = before.scope.random)
    { refl := fun _ ↦ rfl
      trans := fun hfirst hsecond ↦ hsecond.trans hfirst
      run := fun hwork stage ↦ hwork.random_eq (stage.scope.random, stage.world)
      set := fun _ ↦ rfl
      delete := fun _ ↦ rfl } stage

/-! ### The store -/

/-- Whether a property of stores lasts, whatever is set and deleted. -/
structure Store.Lasting (P : Store → Prop) : Prop where
  set : ∀ {store store' : Store} {name value},
    P store → store.set name value = .ok store' → P store'
  delete : ∀ {store store' : Store} {name},
    P store → store.delete name = .ok store' → P store'

/-- Setting and deleting leave a store open or closed. -/
theorem Store.closed_lasting (closed : Bool) :
    Store.Lasting fun store ↦ store.closed = closed where
  set := fun hclosed hset ↦ by
    obtain ⟨-, -, rfl⟩ := Store.set_eq_ok_iff.mp hset
    exact hclosed
  delete := fun hclosed hdelete ↦ by
    obtain ⟨-, rfl⟩ := Store.delete_eq_ok_iff.mp hdelete
    exact hclosed

/-- What lasts of a store through any setting and deleting is kept by every step. -/
theorem StepCall.run_keepsStore {P : Store → Prop} (hP : Store.Lasting P) (services : Services σ)
    (call : StepCall) {stage : Stage σ} (h : P stage.scope.store) :
    P (call.run services stage).2.scope.store :=
  (call.run_composed services).relates
    (R := fun before after ↦ P before.scope.store → P after.scope.store)
    { refl := fun _ ↦ id
      trans := fun hfirst hsecond hbefore ↦ hsecond (hfirst hbefore)
      run := fun _ _ ↦ id
      set := fun hset hbefore ↦ hP.set hbefore hset
      delete := fun hdelete hbefore ↦ hP.delete hbefore hdelete } stage h

end Playbook
