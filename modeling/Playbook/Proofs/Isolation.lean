import Playbook.Proofs.StepEffect

/-!
# What a step looks at

Two runs that share a manager, a clock and a world could meet in four places: in the number of the
scope, in the world, in the services and in the scope itself. A step never looks at the number of
its scope. Unless it uses files, it neither looks at the world nor changes it, as long as the clock
stands still. So such a step does in one scope just what it does in any other that has the same
variables, the same random words and the same way of resolving placeholders: it is *local*.
-/

namespace Playbook

variable {σ α : Type}

/-- Whether a call reads, writes or looks for files. -/
def StepCall.usesFiles : StepCall → Bool
  | .createFiles files | .assertFilesExist files => !files.isEmpty
  | .storeFileContent _ _ | .writeVariableToFile _ _ => true
  | _ => false

/-- The same scope under another number, in another world. -/
def Stage.moved (stage : Stage σ) (id : Nat) (world : σ) : Stage σ where
  scope := { stage.scope with id }
  world

/-- Whether a computation neither looks at the world nor changes it. -/
def Work.IsLocal (work : Work σ α) : Prop :=
  ∀ random world world', work (random, world') =
    ((work (random, world)).1, (work (random, world)).2.1, world')

/-- Whether a step does the same wherever its scope is moved, and leaves the scope there. -/
def StepRun.IsLocal (run : StepRun σ) : Prop :=
  ∀ (stage : Stage σ) id world,
    run (stage.moved id world) = ((run stage).1, (run stage).2.moved id world)

/-! ## Computations -/

namespace Work.IsLocal

theorem of (result : Except StepError α) : (Work.of (σ := σ) result).IsLocal :=
  fun _ _ _ ↦ rfl

theorem pure (a : α) : (Pure.pure a : Work σ α).IsLocal := fun _ _ _ ↦ rfl

theorem draw (draw : Draw α) : (Work.draw (σ := σ) draw).IsLocal := fun _ _ _ ↦ rfl

theorem drawChecked (draw : Random → Except VariableError α × Random) :
    (Work.drawChecked (σ := σ) draw).IsLocal := fun _ _ _ ↦ rfl

/-- A clock that stands still can be asked in any world. -/
theorem ask {request : StateM σ α} {a : α} (h : request = Pure.pure a) :
    (Work.ask request).IsLocal := by
  subst h
  exact fun _ _ _ ↦ rfl

theorem bind {β : Type} {work : Work σ α} {next : α → Work σ β} (hwork : work.IsLocal)
    (hnext : ∀ a, (next a).IsLocal) : (work >>= next).IsLocal := by
  intro random world world'
  rw [bind_apply, bind_apply, hwork random world world']
  rcases hresult : work (random, world) with ⟨e | a, random', after⟩
  · rfl
  · exact hnext a random' after world'

end Work.IsLocal

/-! ## Forms of steps -/

namespace StepRun

variable {name : String} {check : Scope → Except StepError Unit} {next : StepRun σ}
  {work : Scope → Work σ α}

theorem done_isLocal (result : Except StepError Unit) : (done (σ := σ) result).IsLocal :=
  fun _ _ _ ↦ rfl

theorem put_isLocal (name : String) (value : Value) : (put (σ := σ) name value).IsLocal := by
  intro stage id world
  unfold put
  rw [show (stage.moved id world).scope.store = stage.scope.store from rfl]
  cases stage.scope.store.set name value <;> rfl

theorem demand_isLocal (hcheck : ∀ scope id, check { scope with id } = check scope)
    (hnext : next.IsLocal) : (demand check next).IsLocal := by
  intro stage id world
  unfold demand
  rw [show check (stage.moved id world).scope = check stage.scope from hcheck stage.scope id]
  cases check stage.scope with
  | error e => rfl
  | ok u => exact hnext stage id world

theorem compute_isLocal {next : α → StepRun σ}
    (hnumber : ∀ scope id, work { scope with id } = work scope)
    (hwork : ∀ scope, (work scope).IsLocal) (hnext : ∀ a, (next a).IsLocal) :
    (compute work next).IsLocal := by
  intro stage id world
  have hrun : (stage.moved id world).run (work (stage.moved id world).scope) =
      ((stage.run (work stage.scope)).1, (stage.run (work stage.scope)).2.moved id world) := by
    -- The random words are those of the scope, and they move with it.
    have hmoved := hwork stage.scope stage.scope.random stage.world world
    rw [show work (stage.moved id world).scope = work stage.scope from hnumber stage.scope id]
    unfold Stage.run
    rw [show (stage.moved id world).scope.random = stage.scope.random from rfl,
      show (stage.moved id world).world = world from rfl, hmoved]
    rfl
  unfold compute
  rw [hrun]
  rcases stage.run (work stage.scope) with ⟨e | a, after⟩
  · rfl
  · exact hnext a after id world

theorem create_isLocal {work : Scope → Work σ Value}
    (hnumber : ∀ scope id, work { scope with id } = work scope)
    (hwork : ∀ scope, (work scope).IsLocal) : (create name work).IsLocal :=
  demand_isLocal (fun _ _ ↦ rfl) (compute_isLocal hnumber hwork fun value ↦ put_isLocal name value)

theorem createFrom_isLocal {value : Scope → Except StepError Value}
    (hnumber : ∀ scope id, value { scope with id } = value scope) :
    (createFrom (σ := σ) name value).IsLocal :=
  create_isLocal (fun scope id ↦ congrArg Work.of (hnumber scope id)) fun _ ↦ .of _

theorem createDrawn_isLocal (text : Draw String) : (createDrawn (σ := σ) name text).IsLocal :=
  create_isLocal (fun _ _ ↦ rfl) fun _ ↦ .bind (.draw text) fun _ ↦ .pure _

theorem replace_isLocal (name : String) (value : Value) :
    (replace (σ := σ) name value).IsLocal :=
  demand_isLocal (fun _ _ ↦ rfl) (put_isLocal name value)

theorem remove_isLocal (name : String) : (remove (σ := σ) name).IsLocal := by
  refine demand_isLocal (fun _ _ ↦ rfl) fun stage id world ↦ ?_
  rw [show (stage.moved id world).scope.store = stage.scope.store from rfl]
  cases stage.scope.store.delete name <;> rfl

theorem inspect_isLocal {work : Scope → Work σ Unit}
    (hnumber : ∀ scope id, work { scope with id } = work scope)
    (hwork : ∀ scope, (work scope).IsLocal) : (inspect work).IsLocal :=
  demand_isLocal (fun _ _ ↦ rfl) (compute_isLocal hnumber hwork fun _ ↦ done_isLocal _)

theorem resolving_isLocal {text : String} {next : String → StepRun σ}
    (hnext : ∀ resolved, (next resolved).IsLocal) : (resolving text next).IsLocal :=
  compute_isLocal (fun _ _ ↦ rfl) (fun _ ↦ .of _) hnext

end StepRun

/-! ## Calls that are local -/

theorem Table.pairsFrom_renumber (scope : Scope) (id : Nat) (done : Entries String)
    (pairs : List (String × String)) :
    pairsFrom { scope with id } done pairs = pairsFrom scope done pairs := by
  induction pairs generalizing done with
  | nil => rfl
  | cons pair rest ih =>
    obtain ⟨key, value⟩ := pair
    simp only [pairsFrom, ih]
    rfl

theorem Table.pairs_renumber (table : Table) (scope : Scope) (id : Nat) :
    table.pairs { scope with id } = table.pairs scope := by
  simp only [pairs, pairsFrom_renumber]

open StepRun

/-- **What a step looks at.** Without files, and with a clock that stands still, a step does the
same whatever the number of its scope and whatever the world. -/
theorem StepCall.run_isLocal (services : Services σ) {now : Moment}
    (hclock : services.now = pure now) {call : StepCall} (hfiles : call.usesFiles = false) :
    (call.run services).IsLocal := by
  cases call with
  | storeTypedSequence kind name table =>
    rw [StepCall.run]
    cases Kind.ofName? kind with
    | none => exact done_isLocal _
    | some kind => exact createFrom_isLocal fun _ _ ↦ rfl
  | changeVariable name value => exact replace_isLocal name _
  | emptyVariable name => exact replace_isLocal name _
  | deleteVariable name => exact remove_isLocal name
  | storeMapping name table =>
    refine createFrom_isLocal fun scope id ↦ ?_
    rw [table.pairs_renumber]
  | storeRandomElement | storeRandomValue =>
    exact create_isLocal (fun _ _ ↦ rfl) fun _ ↦ .bind (.of _) fun _ ↦ .drawChecked _
  | storeCurrentDate =>
    exact create_isLocal (fun _ _ ↦ rfl) fun _ ↦ .bind (.ask hclock) fun _ ↦ .of _
  | storeRandomDate =>
    exact create_isLocal (fun _ _ ↦ rfl) fun _ ↦ .bind (.draw _) fun _ ↦ .of _
  | storeShiftedDate shift direction start format name =>
    refine create_isLocal (fun _ _ ↦ rfl) fun scope ↦ .bind ?_ fun _ ↦ .of _
    cases start with
    | none => exact .ask hclock
    | some text => exact .of _
  | storeRandomText =>
    exact create_isLocal (fun _ _ ↦ rfl) fun _ ↦
      .bind (.draw _) fun _ ↦ .bind (.of _) fun _ ↦ .bind (.of _) fun _ ↦ .pure _
  | storeUuid | storeRandomMonth | storeRandomWeekday | storeRandomIp | storeRandomUrl =>
    exact createDrawn_isLocal _
  | storeRandomPhone | storeRandomEmail => exact resolving_isLocal fun _ ↦ createDrawn_isLocal _
  | assertText | assertNull | assertNotNull | assertEmpty | assertNotEmpty =>
    exact inspect_isLocal (fun _ _ ↦ rfl) fun _ ↦ .of _
  | createFiles files =>
    cases files with
    | nil =>
      rw [StepCall.run]
      exact demand_isLocal (fun _ _ ↦ rfl) (done_isLocal _)
    | cons file files => cases hfiles
  | assertFilesExist files =>
    cases files with
    | nil => exact done_isLocal _
    | cons file files => cases hfiles
  | storeFileContent | writeVariableToFile => cases hfiles
  | _ => exact createFrom_isLocal fun _ _ ↦ rfl

/-- A step that uses no files comes to the same end, or panics alike, wherever its scope is
moved. -/
theorem StepCall.attempt_moved (services : Services σ) {now : Moment}
    (hclock : services.now = pure now) {call : StepCall} (hfiles : call.usesFiles = false)
    (stage : Stage σ) (id : Nat) (world : σ) :
    call.attempt services (stage.moved id world) =
      (call.attempt services stage).map fun (outcome, after) ↦ (outcome, after.moved id world) := by
  have hpanics : call.panics services (stage.moved id world).scope =
      call.panics services stage.scope := by
    cases call <;> rfl
  rw [attempt, attempt, hpanics, call.run_isLocal services hclock hfiles stage id world]
  split <;> rfl

end Playbook
