import Playbook.Proofs.EntriesMap
import Playbook.Proofs.StepEffect

/-!
# Well-kinded variables

A sequence and a mapping say of what kind the values are that they hold. Steps can only make those
that keep their word, and that hold no sequence and no mapping themselves: cells are read as kinds
that a piece of text can be, pieces of a text are strings, and what is taken out of a collection and
stored by itself is no collection.

This does not follow from the checked constructors alone. Splitting a text makes its sequence
without a check, and a sequence of objects passes every check whatever it holds. So the invariant is
one of all variables at once, and it is carried by what a step computes: `Work.Yields` says that
whatever a computation comes to has a property. A form of step keeps the invariant if what it
computes from well-kinded variables is well kinded, and the calls are forms of steps.
-/

namespace Playbook

open Outcome

variable {σ : Type}

/-! ## Values that keep their word -/

/-- Whether a collection that declares a kind may hold a value: the value is of that kind, where any
value passes for an object, and it holds no values itself. -/
structure Value.IsItemOf (kind : Kind) (value : Value) : Prop where
  kind_eq : kind ≠ .object → value.kind = kind
  isCollection_eq : value.kind.isCollection = false

/-- Whether all that a value holds is what it declares. -/
def Value.WellKinded : Value → Prop
  | .sequence kind items => ∀ item ∈ items, item.IsItemOf kind
  | .mapping kind entries => ∀ entry ∈ entries, entry.2.IsItemOf kind
  | _ => True

/-- Whether all variables have names, and values that keep their word. -/
def Variables.WellKinded (values : Variables) : Prop :=
  ∀ entry ∈ values, entry.1 ≠ "" ∧ entry.2.WellKinded

/-- A step can name no kind of collection. -/
theorem Kind.isCollection_eq_of_ofName? {name : String} {kind : Kind}
    (h : Kind.ofName? name = some kind) : kind.isCollection = false := by
  have hmem : kind ∈ registry := by
    rw [ofName?] at h
    exact List.mem_of_find?_eq_some h
  have hall : ∀ known ∈ registry, known.isCollection = false := by decide
  exact hall kind hmem

namespace Value

variable {kind : Kind} {value : Value}

theorem wellKinded_of_isCollection_eq (h : value.kind.isCollection = false) :
    value.WellKinded := by
  cases value with
  | sequence | mapping => cases h
  | _ => exact trivial

theorem fits_iff : value.fits kind ↔ (kind ≠ .object → value.kind = kind) := by
  simp only [fits, Bool.or_eq_true, decide_eq_true_eq]
  tauto

theorem checkItems_eq_ok_iff {items : List Value} {place : Nat} :
    checkItems kind place items = .ok () ↔ ∀ item ∈ items, item.fits kind := by
  induction items generalizing place with
  | nil => simp [checkItems]
  | cons item rest ih =>
    rw [checkItems, List.forall_mem_cons]
    by_cases hfits : item.fits kind
    · rw [if_pos hfits, ih]
      exact (and_iff_right hfits).symm
    · rw [if_neg hfits]
      exact iff_of_false nofun fun h ↦ hfits h.1

theorem checkEntries_eq_ok_iff {entries : Entries Value} :
    checkEntries kind entries = .ok () ↔ ∀ entry ∈ entries, entry.2.fits kind := by
  induction entries with
  | nil => simp [checkEntries]
  | cons entry rest ih =>
    rw [checkEntries, List.forall_mem_cons]
    by_cases hfits : entry.2.fits kind
    · rw [if_pos hfits, ih]
      exact (and_iff_right hfits).symm
    · rw [if_neg hfits]
      exact iff_of_false nofun fun h ↦ hfits h.1

/-- The checked constructor looks at kinds only, so it makes a well-kinded sequence of whatever is
no collection. -/
theorem wellKinded_of_ofItems {items : List Value} (hok : ofItems kind items = .ok value)
    (hflat : ∀ item ∈ items, item.kind.isCollection = false) : value.WellKinded := by
  obtain ⟨hcheck, hvalue⟩ := then_eq_ok_iff.mp hok
  cases hvalue
  intro item hitem
  exact ⟨fits_iff.mp (checkItems_eq_ok_iff.mp hcheck item hitem), hflat item hitem⟩

theorem wellKinded_of_ofEntries {entries : Entries Value} (hok : ofEntries kind entries = .ok value)
    (hflat : ∀ entry ∈ entries, entry.2.kind.isCollection = false) : value.WellKinded := by
  obtain ⟨hcheck, hvalue⟩ := then_eq_ok_iff.mp hok
  cases hvalue
  intro entry hentry
  exact ⟨fits_iff.mp (checkEntries_eq_ok_iff.mp hcheck entry hentry), hflat entry hentry⟩

theorem wellKinded_split (text separators : String) : (split text separators).WellKinded := by
  intro item hitem
  obtain ⟨piece, -, rfl⟩ := List.mem_map.mp hitem
  exact ⟨fun _ ↦ rfl, rfl⟩

/-- A text that is read as a kind is of that kind. -/
theorem kind_of_parse {text : String} (h : parse text kind = .ok value) : value.kind = kind := by
  cases kind with
  | string | object =>
    cases h
    rfl
  | int | long | float | double | bool =>
    simp only [parse] at h
    split at h
    · rename_i found hfound
      cases h
      obtain ⟨a, -, rfl⟩ := Option.map_eq_some_iff.mp hfound
      rfl
    · cases h
  | dateTime =>
    obtain ⟨m, -, rfl⟩ := map_eq_ok_iff.mp h
    rfl
  | sequence =>
    obtain ⟨-, hvalue⟩ := then_eq_ok_iff.mp h
    cases hvalue
    rfl
  | mapping =>
    simp only [parse] at h
    split at h
    · obtain ⟨-, hvalue⟩ := then_eq_ok_iff.mp h
      cases hvalue
      rfl
    · cases h

theorem wellKinded_of_parseCells {cells : List String} (hok : parseCells cells kind = .ok value)
    (hkind : kind.isCollection = false) : value.WellKinded := by
  obtain ⟨items, hitems, hvalue⟩ := bind_eq_ok_iff.mp hok
  refine wellKinded_of_ofItems hvalue fun item hitem ↦ ?_
  obtain ⟨cell, -, hcell⟩ := exists_mem_of_mapM_eq_ok hitems hitem
  rw [kind_of_parse hcell]
  exact hkind

theorem wellKinded_of_parseNumber {text : String} (h : parseNumber text = .ok value) :
    value.WellKinded := by
  simp only [parseNumber] at h
  split at h <;> cases h <;> exact trivial

end Value

/-! ## Taking values from variables -/

namespace Variables

variable {values : Variables}

theorem WellKinded.put (h : values.WellKinded) {name : String} {value : Value} (hname : name ≠ "")
    (hvalue : value.WellKinded) : WellKinded (Entries.put values name value) := by
  intro entry hentry
  rcases Entries.eq_or_mem_of_mem_put hentry with rfl | hold
  · exact ⟨hname, hvalue⟩
  · exact h entry hold

theorem WellKinded.erase (h : values.WellKinded) (name : String) :
    WellKinded (Entries.erase values name) :=
  fun entry hentry ↦ h entry (Entries.mem_of_mem_erase hentry)

theorem WellKinded.of_get {store : Store} (h : WellKinded store.values) {name : String}
    {v : Variable} (hget : store.get name = .ok v) : v.value.WellKinded := by
  rw [Store.get] at hget
  split at hget
  · rename_i value hfound
    cases hget
    exact (h _ (Entries.mem_of_find?_eq_some hfound)).2
  · cases hget

end Variables

namespace Variable

variable {v : Variable} {value : Value}

/-- An item of a well-kinded sequence is no collection, so by itself it is well kinded too. -/
theorem wellKinded_of_mem_items (h : v.value.WellKinded) {items : List Value}
    (hitems : v.items = .ok items) (hmem : value ∈ items) : value.WellKinded := by
  rw [Variable.items] at hitems
  cases hvalue : v.value with
  | sequence kind held =>
    rw [hvalue] at h hitems
    cases hitems
    exact Value.wellKinded_of_isCollection_eq (h value hmem).isCollection_eq
  | _ =>
    rw [hvalue] at hitems
    cases hitems

theorem wellKinded_of_mem_entries (h : v.value.WellKinded) {entries : Entries Value}
    (hentries : v.entries = .ok entries) {key : String} (hmem : (key, value) ∈ entries) :
    value.WellKinded := by
  rw [Variable.entries] at hentries
  cases hvalue : v.value with
  | mapping kind held =>
    rw [hvalue] at h hentries
    cases hentries
    exact Value.wellKinded_of_isCollection_eq (h _ hmem).isCollection_eq
  | _ =>
    rw [hvalue] at hentries
    cases hentries

theorem wellKinded_of_atIndex (h : v.value.WellKinded) {index : Nat}
    (hok : v.atIndex index = .ok value) : value.WellKinded := by
  obtain ⟨items, hitems, hitem⟩ := bind_eq_ok_iff.mp hok
  split at hitem
  · rename_i item hfound
    cases hitem
    exact wellKinded_of_mem_items h hitems (List.mem_of_getElem? hfound)
  · cases hitem

theorem wellKinded_of_byKey (h : v.value.WellKinded) {key : String}
    (hok : v.byKey key = .ok value) : value.WellKinded := by
  obtain ⟨entries, hentries, hentry⟩ := bind_eq_ok_iff.mp hok
  split at hentry
  · rename_i item hfound
    cases hentry
    exact wellKinded_of_mem_entries h hentries (Entries.mem_of_find?_eq_some hfound)
  · cases hentry

/-- What is picked at random is one of the values there are. -/
theorem mem_of_pick {values : List Value} {random random' : Random}
    (h : v.pick values random = (.ok value, random')) : value ∈ values := by
  rw [pick] at h
  split at h
  · cases h
  · simp only at h
    split at h
    · rename_i found hfound
      cases h
      exact List.mem_of_getElem? hfound
    · cases h

theorem wellKinded_of_randomItem (h : v.value.WellKinded) {random random' : Random}
    (hok : v.randomItem random = (.ok value, random')) : value.WellKinded := by
  rw [randomItem] at hok
  split at hok
  · rename_i items hitems
    exact wellKinded_of_mem_items h hitems (mem_of_pick hok)
  · cases hok

theorem wellKinded_of_randomValue (h : v.value.WellKinded) {random random' : Random}
    (hok : v.randomValue random = (.ok value, random')) : value.WellKinded := by
  rw [randomValue] at hok
  split at hok
  · rename_i entries hentries
    obtain ⟨⟨key, held⟩, hmem, rfl⟩ := List.mem_map.mp (mem_of_pick hok)
    exact wellKinded_of_mem_entries h hentries hmem
  · cases hok

end Variable

/-! ## What steps compute -/

/-- Whatever a computation comes to has a property. -/
def Work.Yields {α : Type} (work : Work σ α) (P : α → Prop) : Prop :=
  ∀ state a state', work state = (.ok a, state') → P a

namespace Work.Yields

variable {α β : Type} {P : α → Prop} {Q : β → Prop}

theorem of {result : Except StepError α} (h : ∀ a, result = .ok a → P a) :
    (Work.of (σ := σ) result).Yields P := by
  intro state a state' hrun
  exact h a (Prod.ext_iff.mp hrun).1

theorem pure {a : α} (h : P a) : (Pure.pure a : Work σ α).Yields P := by
  intro state b state' hrun
  cases hrun
  exact h

theorem bind {work : Work σ α} {next : α → Work σ β} (hwork : work.Yields P)
    (hnext : ∀ a, P a → (next a).Yields Q) : (work >>= next).Yields Q := by
  intro state b state' hrun
  rw [Work.bind_apply] at hrun
  split at hrun
  · rename_i a after hfirst
    exact hnext a (hwork state a after hfirst) after b state' hrun
  · cases hrun

/-- What comes first need not be known. -/
theorem bind_of_forall {work : Work σ α} {next : α → Work σ β} (hnext : ∀ a, (next a).Yields Q) :
    (work >>= next).Yields Q :=
  bind (P := fun _ ↦ True) (fun _ _ _ _ ↦ trivial) fun a _ ↦ hnext a

theorem drawChecked {draw : Random → Except VariableError α × Random}
    (h : ∀ random a random', draw random = (.ok a, random') → P a) :
    (Work.drawChecked (σ := σ) draw).Yields P := by
  intro state a state' hrun
  have hresult : StepError.lift (draw state.1).1 = .ok a := (Prod.ext_iff.mp hrun).1
  exact h state.1 a (draw state.1).2 (Prod.ext (StepError.lift_eq_ok_iff.mp hresult) rfl)

theorem of_run {work : Work σ α} (h : work.Yields P) {stage after : Stage σ} {a : α}
    (hrun : stage.run work = (.ok a, after)) : P a := by
  refine h (stage.scope.random, stage.world) a _ (Prod.ext ?_ rfl)
  exact (Prod.ext_iff.mp hrun).1

end Work.Yields

/-! ## What steps leave -/

namespace StepRun

/-- Whether a step leaves well-kinded variables where it finds them, be it that it fails. -/
def KeepsKinds (run : StepRun σ) : Prop :=
  ∀ stage : Stage σ, stage.scope.store.values.WellKinded →
    (run stage).2.scope.store.values.WellKinded

variable {α : Type} {P : α → Prop} {name : String}

theorem done_keepsKinds (result : Except StepError Unit) : (done (σ := σ) result).KeepsKinds :=
  fun _ h ↦ h

/-- The store refuses an empty name, so none comes into it. -/
theorem put_keepsKinds {value : Value} (hvalue : value.WellKinded) :
    (put (σ := σ) name value).KeepsKinds := by
  intro stage h
  rcases put_cases name value stage with ⟨e, hrun⟩ | ⟨hname, after, hrun, hvalues⟩
  · rw [hrun]
    exact h
  · rw [hrun, hvalues]
    exact h.put hname hvalue

theorem demand_keepsKinds {check : Scope → Except StepError Unit} {next : StepRun σ}
    (hnext : next.KeepsKinds) : (demand check next).KeepsKinds := by
  intro stage h
  rcases demand_cases check next stage with ⟨e, -, hrun⟩ | ⟨-, hrun⟩
  · rw [hrun]
    exact h
  · rw [hrun]
    exact hnext stage h

theorem compute_keepsKinds {work : Scope → Work σ α} {next : α → StepRun σ}
    (hwork : ∀ scope : Scope, scope.store.values.WellKinded → (work scope).Yields P)
    (hnext : ∀ a, P a → (next a).KeepsKinds) : (compute work next).KeepsKinds := by
  intro stage h
  obtain ⟨after, hstore, ⟨e, -, hrun⟩ | ⟨a, hyield, hrun⟩⟩ := compute_cases work next stage
  · rw [hrun, hstore]
    exact h
  · rw [hrun]
    refine hnext a ((hwork stage.scope h).of_run hyield) after ?_
    rw [hstore]
    exact h

theorem create_keepsKinds {work : Scope → Work σ Value}
    (hwork : ∀ scope : Scope, scope.store.values.WellKinded →
      (work scope).Yields Value.WellKinded) : (create name work).KeepsKinds :=
  demand_keepsKinds (compute_keepsKinds hwork fun _ hvalue ↦ put_keepsKinds hvalue)

theorem createFrom_keepsKinds {value : Scope → Except StepError Value}
    (hvalue : ∀ scope : Scope, scope.store.values.WellKinded →
      ∀ v, value scope = .ok v → v.WellKinded) : (createFrom (σ := σ) name value).KeepsKinds :=
  create_keepsKinds fun scope h ↦ .of (hvalue scope h)

theorem createDrawn_keepsKinds (text : Draw String) :
    (createDrawn (σ := σ) name text).KeepsKinds :=
  create_keepsKinds fun _ _ ↦ .bind_of_forall fun _ ↦ .pure trivial

theorem replace_keepsKinds {value : Value} (hvalue : value.WellKinded) :
    (replace (σ := σ) name value).KeepsKinds :=
  demand_keepsKinds (put_keepsKinds hvalue)

theorem remove_keepsKinds (name : String) : (remove (σ := σ) name).KeepsKinds := by
  refine demand_keepsKinds fun stage h ↦ ?_
  cases hdelete : stage.scope.store.delete name with
  | error e => exact h
  | ok store =>
    obtain ⟨-, rfl⟩ := Store.delete_eq_ok_iff.mp hdelete
    exact h.erase name

theorem inspect_keepsKinds (work : Scope → Work σ Unit) : (inspect work).KeepsKinds :=
  demand_keepsKinds (compute_keepsKinds (P := fun _ ↦ True) (fun _ _ _ _ _ _ ↦ trivial)
    fun _ _ ↦ done_keepsKinds _)

theorem resolving_keepsKinds {text : String} {next : String → StepRun σ}
    (hnext : ∀ resolved, (next resolved).KeepsKinds) : (resolving text next).KeepsKinds :=
  compute_keepsKinds (P := fun _ ↦ True) (fun _ _ _ _ _ _ ↦ trivial) fun resolved _ ↦
    hnext resolved

/-- A row stores a path, which is a string, and under a name that is not empty. -/
theorem createFiles_keepsKinds (services : Services σ) (rows : List FileRow) :
    (createFiles services rows).KeepsKinds := by
  induction rows with
  | nil => exact done_keepsKinds _
  | cons row rest ih =>
    refine compute_keepsKinds (P := fun _ ↦ True) (fun _ _ _ _ _ _ ↦ trivial) ?_
    rintro ⟨name, path⟩ - stage h
    have hkeeps : (put (σ := σ) name (.string path)).KeepsKinds := put_keepsKinds trivial
    have hput := hkeeps stage h
    rcases hresult : put name (.string path) stage with ⟨e | ⟨⟩, after⟩ <;> rw [hresult] at hput
    · simp only [hresult]
      exact hput
    · simp only [hresult]
      exact ih after hput

end StepRun

/-! ## What calls leave -/

namespace Value

variable {ε : Type} {value : Value}

theorem wellKinded_of_string {text : Except ε String}
    (h : (do return .string (← text)) = Except.ok value) : value.WellKinded := by
  obtain ⟨s, -, hvalue⟩ := bind_eq_ok_iff.mp h
  cases hvalue
  exact trivial

theorem wellKinded_of_stored {m : Moment} {format : Option String}
    (h : m.stored format = .ok value) : value.WellKinded := by
  cases format with
  | none =>
    cases h
    exact trivial
  | some format =>
    simp only [Moment.stored] at h
    split at h
    · cases h
      exact trivial
    · cases h

end Value

open StepRun StepError

/-- **One call** leaves well-kinded variables where it finds them, whatever the services answer. -/
theorem StepCall.run_keepsKinds (services : Services σ) (call : StepCall) :
    (call.run services).KeepsKinds := by
  cases call with
  | storeText | storeMultilineText =>
    exact createFrom_keepsKinds fun _ _ _ h ↦ Value.wellKinded_of_string (lift_eq_ok_iff.mp h)
  | storeXmlText | copyText | substituteVariable =>
    exact createFrom_keepsKinds fun _ _ _ h ↦ Value.wellKinded_of_string h
  | storeNumber =>
    refine createFrom_keepsKinds fun _ _ _ h ↦ ?_
    obtain ⟨text, -, hnumber⟩ := bind_eq_ok_iff.mp (lift_eq_ok_iff.mp h)
    exact Value.wellKinded_of_parseNumber hnumber
  | changeVariable => exact replace_keepsKinds trivial
  | emptyVariable => exact replace_keepsKinds trivial
  | deleteVariable name => exact remove_keepsKinds name
  | copyValue =>
    refine createFrom_keepsKinds fun _ hkinds _ h ↦ ?_
    obtain ⟨v, hget, hvalue⟩ := bind_eq_ok_iff.mp h
    split at hvalue
    · cases hvalue
    · -- A collection may be copied as a whole; it keeps the word that it kept where it was.
      cases hvalue
      exact hkinds.of_get (lift_eq_ok_iff.mp hget)
  | storeSequence =>
    refine createFrom_keepsKinds fun _ _ _ h ↦ ?_
    obtain ⟨cells, -, hitems⟩ := bind_eq_ok_iff.mp h
    refine Value.wellKinded_of_ofItems (lift_eq_ok_iff.mp hitems) fun item hitem ↦ ?_
    obtain ⟨cell, -, rfl⟩ := List.mem_map.mp hitem
    rfl
  | storeTypedSequence kindName name table =>
    rw [StepCall.run]
    cases hkind : Kind.ofName? kindName with
    | none => exact done_keepsKinds _
    | some kind =>
      -- Only this call names a kind of items, and it cannot name one of collections.
      refine createFrom_keepsKinds fun _ _ _ h ↦ ?_
      obtain ⟨cells, -, hitems⟩ := bind_eq_ok_iff.mp h
      exact Value.wellKinded_of_parseCells (lift_eq_ok_iff.mp hitems)
        (Kind.isCollection_eq_of_ofName? hkind)
  | storeRandomElement =>
    refine create_keepsKinds fun _ hkinds ↦ ?_
    refine .bind (.of fun v hget ↦ hkinds.of_get (lift_eq_ok_iff.mp hget)) fun v hv ↦ ?_
    exact .drawChecked fun _ _ _ hdraw ↦ Variable.wellKinded_of_randomItem hv hdraw
  | storeElementAt =>
    refine createFrom_keepsKinds fun _ hkinds _ h ↦ ?_
    obtain ⟨index, -, hrest⟩ := bind_eq_ok_iff.mp h
    split at hrest
    · cases hrest
    · obtain ⟨v, hget, hitem⟩ := bind_eq_ok_iff.mp (lift_eq_ok_iff.mp hrest)
      exact Variable.wellKinded_of_atIndex (hkinds.of_get hget) hitem
  | splitIntoSequence =>
    refine createFrom_keepsKinds fun _ _ _ h ↦ ?_
    obtain ⟨text, -, hvalue⟩ := bind_eq_ok_iff.mp h
    -- The one collection that no constructor has checked.
    cases hvalue
    exact Value.wellKinded_split _ _
  | storeMapping =>
    refine createFrom_keepsKinds fun _ _ _ h ↦ ?_
    obtain ⟨pairs, -, hentries⟩ := bind_eq_ok_iff.mp h
    refine Value.wellKinded_of_ofEntries (lift_eq_ok_iff.mp hentries) fun entry hentry ↦ ?_
    obtain ⟨pair, -, rfl⟩ := List.mem_map.mp hentry
    rfl
  | storeRandomValue =>
    refine create_keepsKinds fun _ hkinds ↦ ?_
    refine .bind (.of fun v hget ↦ hkinds.of_get (lift_eq_ok_iff.mp hget)) fun v hv ↦ ?_
    exact .drawChecked fun _ _ _ hdraw ↦ Variable.wellKinded_of_randomValue hv hdraw
  | storeValueByKey =>
    refine createFrom_keepsKinds fun _ hkinds _ h ↦ ?_
    obtain ⟨key, -, hrest⟩ := bind_eq_ok_iff.mp (lift_eq_ok_iff.mp h)
    obtain ⟨v, hget, hvalue⟩ := bind_eq_ok_iff.mp hrest
    exact Variable.wellKinded_of_byKey (hkinds.of_get hget) hvalue
  | assertText | assertNull | assertNotNull | assertEmpty | assertNotEmpty | writeVariableToFile =>
    exact inspect_keepsKinds _
  | storeDate | storeTime =>
    refine createFrom_keepsKinds fun _ _ _ h ↦ ?_
    obtain ⟨part, -, hvalue⟩ := bind_eq_ok_iff.mp h
    exact Value.wellKinded_of_stored hvalue
  | storeDatetime =>
    refine createFrom_keepsKinds fun _ _ _ h ↦ ?_
    obtain ⟨date, -, hrest⟩ := bind_eq_ok_iff.mp h
    obtain ⟨time, -, hvalue⟩ := bind_eq_ok_iff.mp hrest
    exact Value.wellKinded_of_stored hvalue
  | storeCurrentDate | storeRandomDate =>
    refine create_keepsKinds fun _ _ ↦ .bind_of_forall fun _ ↦ .of fun _ hvalue ↦ ?_
    exact Value.wellKinded_of_stored hvalue
  | storeShiftedDate =>
    refine create_keepsKinds fun _ _ ↦ .bind_of_forall fun _ ↦ .of fun _ h ↦ ?_
    obtain ⟨m, -, hvalue⟩ := bind_eq_ok_iff.mp h
    exact Value.wellKinded_of_stored hvalue
  | storeRandomText =>
    refine create_keepsKinds fun _ _ ↦ ?_
    exact .bind_of_forall fun _ ↦ .bind_of_forall fun _ ↦ .bind_of_forall fun _ ↦ .pure trivial
  | storeUuid | storeRandomMonth | storeRandomWeekday | storeRandomIp | storeRandomUrl =>
    exact createDrawn_keepsKinds _
  | storeRandomPhone | storeRandomEmail =>
    exact resolving_keepsKinds fun _ ↦ createDrawn_keepsKinds _
  | createFiles files => exact demand_keepsKinds (createFiles_keepsKinds services files)
  | assertFilesExist files =>
    cases files with
    | nil => exact done_keepsKinds _
    | cons file files => exact inspect_keepsKinds _
  | storeFileContent =>
    exact create_keepsKinds fun _ _ ↦ .bind_of_forall fun _ ↦ .bind_of_forall fun _ ↦ .pure trivial

/-! ## Calls one after the other -/

/-- The scope that calls leave, whether they fail or not. Each call comes with the services, the
random words and the world that it finds. -/
def Scope.after (scope : Scope) : List (StepCall × Services σ × Random × σ) → Scope
  | [] => scope
  | (call, services, random, world) :: rest =>
    Scope.after (call.run services ⟨{ scope with random }, world⟩).2.scope rest

theorem Scope.wellKinded_after {scope : Scope} (h : scope.store.values.WellKinded)
    (calls : List (StepCall × Services σ × Random × σ)) :
    (scope.after calls).store.values.WellKinded := by
  induction calls generalizing scope with
  | nil => exact h
  | cons first rest ih =>
    obtain ⟨call, services, random, world⟩ := first
    exact ih (call.run_keepsKinds services ⟨{ scope with random }, world⟩ h)

/-- **Reachable variables are well kinded.** Once any calls have been run in a scope that had no
variables, every variable has a name, and what a sequence or a mapping holds is of the kind that it
declares and is no sequence and no mapping. -/
theorem Scope.wellKinded_after_of_empty (scope : Scope)
    (calls : List (StepCall × Services σ × Random × σ)) :
    ({ scope with store := {} }.after calls).store.values.WellKinded :=
  wellKinded_after (fun _ hentry ↦ absurd hentry List.not_mem_nil) calls

example : (({ id := 1, interpolator := .default, random := ⟨7⟩ } : Scope).after
    [(.storeTypedSequence "int" "xs" ⟨["1", "2"], []⟩, .local Draw.epoch, ⟨7⟩, {})]).store.values =
      [("xs", .sequence .int [.int 1, .int 2])] := by
  rfl

end Playbook
