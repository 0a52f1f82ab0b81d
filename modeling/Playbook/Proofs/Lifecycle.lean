import Playbook.Proofs.Operation
import Mathlib.Data.List.Nodup

/-!
# The life of a scope

A manager is used in any order one likes. Whatever the order, a scope is there from its beginning to
its end and never again: scopes are numbered from one as they are begun, those that have not ended
are the ones that are registered and found, and of those that have ended nothing is left.

## What the manager has on record

That a scope has ended is on record three times, and each use looks at one of them only: a handle at
the mark of its scope, a flow at the register, and a writer who has taken the store at the store.
`Manager.Records` says that the three agree, with each other and with the operations there have
been. Every operation keeps it (`Manager.Records.perform`). Only the beginning and the end of a
scope touch any of the three, and they change all of them; other operations change random words and
variables, and variables only in a store that is open.
-/

namespace Playbook

open Outcome

variable {α : Type}

/-! ## Agreement -/

/-- The mark of a scope and its store agree with the scopes that have ended. -/
structure Scope.Records (finished : List Nat) (scope : Scope) : Prop where
  ended_iff : scope.ended = true ↔ scope.id ∈ finished
  closed_eq : scope.store.closed = scope.ended
  values_eq_nil : scope.ended = true → scope.store.values = []

/-- What a manager has on record agrees with how many scopes have begun and which have ended. -/
structure Manager.Records (count : Nat) (finished : List Nat) (manager : Manager) : Prop where
  nextId_eq : manager.nextId = count + 1
  ids_eq : manager.scopes.map Scope.id = List.range' 1 count
  finished_subset : finished ⊆ List.range' 1 count
  nodup_registered : manager.registered.Nodup
  mem_registered_iff : ∀ id, id ∈ manager.registered ↔ id ∈ List.range' 1 count ∧ id ∉ finished
  scopes : ∀ scope ∈ manager.scopes, scope.Records finished

namespace Scope.Records

variable {finished : List Nat} {scope scope' : Scope}

theorem congr {finished' : List Nat} (h : scope.Records finished)
    (hmem : scope.id ∈ finished' ↔ scope.id ∈ finished) : scope.Records finished' :=
  ⟨h.ended_iff.trans hmem.symm, h.closed_eq, h.values_eq_nil⟩

theorem isActive_iff (h : scope.Records finished) : scope.isActive ↔ scope.id ∉ finished := by
  rw [isActive, Bool.not_eq_true', Bool.eq_false_iff, ne_eq, h.ended_iff]

/-- A use leaves the marks as they are, and the store of an ended scope is closed and empty, so that
no variable comes into it. -/
theorem use (h : scope.Records finished) {use : ScopeUse α} {yield : Yield α}
    (huse : scope.use use = .ok (yield, scope')) : scope'.Records finished := by
  obtain ⟨hid, hended, hclosed, hvalues⟩ := use_eq_ok huse
  refine ⟨?_, ?_, fun hmark ↦ ?_⟩
  · rw [hended, hid]
    exact h.ended_iff
  · rw [hclosed, hended]
    exact h.closed_eq
  · rw [hended] at hmark
    exact hvalues (h.closed_eq.trans hmark) (h.values_eq_nil hmark)

theorem finish (scope : Scope) (hmem : scope.id ∈ finished) : scope.finish.Records finished :=
  ⟨iff_of_true rfl hmem, rfl, fun _ ↦ rfl⟩

end Scope.Records

namespace Manager

/-! ## Scopes and their numbers -/

theorem id_of_scope?_eq_some {manager : Manager} {id : Nat} {scope : Scope}
    (h : manager.scope? id = some scope) : scope.id = id := by
  simpa using List.find?_some h

theorem mem_scopes_update {manager : Manager} {scope other : Scope}
    (h : other ∈ (manager.update scope).scopes) :
    other = scope ∨ other ∈ manager.scopes ∧ other.id ≠ scope.id := by
  obtain ⟨before, hmem, rfl⟩ := List.mem_map.mp h
  by_cases hid : before.id = scope.id
  · rw [if_pos hid]
    exact .inl rfl
  · rw [if_neg hid]
    exact .inr ⟨hmem, hid⟩

theorem ids_update (manager : Manager) (scope : Scope) :
    (manager.update scope).scopes.map Scope.id = manager.scopes.map Scope.id := by
  rw [update, List.map_map]
  refine List.map_congr_left fun other _ ↦ ?_
  by_cases hid : other.id = scope.id
  · rw [Function.comp_apply, if_pos hid, hid]
  · rw [Function.comp_apply, if_neg hid]

namespace Records

variable {manager manager' : Manager} {count : Nat} {finished : List Nat} {scope scope' : Scope}
  {id : Nat}

theorem scope?_eq_some_iff (h : manager.Records count finished) :
    manager.scope? id = some scope ↔ scope ∈ manager.scopes ∧ scope.id = id := by
  have hnodup : (manager.scopes.map Scope.id).Nodup := h.ids_eq ▸ List.nodup_range'
  constructor
  · intro hscope
    exact ⟨List.mem_of_find?_eq_some hscope, id_of_scope?_eq_some hscope⟩
  · rintro ⟨hmem, rfl⟩
    cases hfound : manager.scope? scope.id with
    | none => exact absurd (List.find?_eq_none.mp hfound scope hmem) (by simp)
    | some other =>
      -- Numbers are handed out once, so the scope that is found is the one there is.
      have hother : other.id = scope.id := id_of_scope?_eq_some hfound
      rw [List.inj_on_of_nodup_map hnodup (List.mem_of_find?_eq_some hfound) hmem hother]

theorem exists_scope?_iff (h : manager.Records count finished) :
    (∃ scope, manager.scope? id = some scope) ↔ id ∈ List.range' 1 count := by
  rw [← h.ids_eq, List.mem_map]
  simp only [h.scope?_eq_some_iff]

theorem scope_records (h : manager.Records count finished)
    (hscope : manager.scope? id = some scope) : scope.Records finished :=
  h.scopes scope (h.scope?_eq_some_iff.mp hscope).1

theorem isActive_iff (h : manager.Records count finished)
    (hscope : manager.scope? id = some scope) : scope.isActive ↔ id ∉ finished := by
  rw [(h.scope_records hscope).isActive_iff, (h.scope?_eq_some_iff.mp hscope).2]

theorem closed_iff (h : manager.Records count finished)
    (hscope : manager.scope? id = some scope) : scope.store.closed = true ↔ id ∈ finished := by
  have hrecords := h.scope_records hscope
  rw [hrecords.closed_eq, hrecords.ended_iff, (h.scope?_eq_some_iff.mp hscope).2]

theorem current_eq (h : manager.Records count finished)
    (hscope : manager.scope? id = some scope) :
    manager.current (some id) = if scope.isActive then .ok scope else .error .noActiveScope := by
  have hmem : id ∈ manager.registered ↔ scope.isActive := by
    rw [h.mem_registered_iff, h.isActive_iff hscope]
    exact and_iff_right (h.exists_scope?_iff.mp ⟨scope, hscope⟩)
  rw [current]
  by_cases hactive : scope.isActive
  · rw [if_pos hactive, Option.filter_some, if_pos (by simpa using hmem.mpr hactive)]
    simp [hscope]
  · rw [if_neg hactive, Option.filter_some, if_neg (by simpa using mt hmem.mp hactive)]
    simp

/-! ## What operations keep -/

theorem init (options : Options) (entropy : UInt32) :
    ({ options, entropy } : Manager).Records 0 [] where
  nextId_eq := rfl
  ids_eq := rfl
  finished_subset := List.Subset.refl _
  nodup_registered := List.nodup_nil
  mem_registered_iff := by simp
  scopes := fun _ hmem ↦ absurd hmem List.not_mem_nil

theorem congr {finished' : List Nat} (h : manager.Records count finished)
    (hmem : ∀ id, id ∈ finished' ↔ id ∈ finished) : manager.Records count finished' where
  nextId_eq := h.nextId_eq
  ids_eq := h.ids_eq
  finished_subset := fun _ hid ↦ h.finished_subset ((hmem _).mp hid)
  nodup_registered := h.nodup_registered
  mem_registered_iff := fun id ↦ by rw [h.mem_registered_iff, hmem]
  scopes := fun scope hscope ↦ (h.scopes scope hscope).congr (hmem _)

/-- The number of a new scope is next in line, so it is neither registered nor ended. -/
theorem startWith (h : manager.Records count finished) (options : Options) :
    (manager.startWith options).1 = count + 1 ∧
      (manager.startWith options).2.Records (count + 1) finished := by
  have hrange : List.range' 1 (count + 1) = List.range' 1 count ++ [count + 1] := by
    rw [List.range'_1_concat, Nat.add_comm 1 count]
  have hnew : count + 1 ∉ finished := fun hmem ↦ by
    have := List.mem_range'_1.mp (h.finished_subset hmem)
    omega
  refine ⟨h.nextId_eq, ?_⟩
  constructor
  · rw [Manager.startWith, h.nextId_eq]
  · rw [Manager.startWith, List.map_append, h.ids_eq, hrange, h.nextId_eq]
    rfl
  · rw [hrange]
    exact List.subset_append_of_subset_left _ h.finished_subset
  · exact h.nodup_registered.insert
  · intro id
    rw [Manager.startWith, List.mem_insert_iff, h.mem_registered_iff, h.nextId_eq, hrange,
      List.mem_append, List.mem_singleton]
    by_cases hid : id = count + 1
    · simp [hid, hnew]
    · simp [hid]
  · intro scope hmem
    rw [Manager.startWith, List.mem_append, List.mem_singleton] at hmem
    rcases hmem with hmem | rfl
    · exact h.scopes scope hmem
    · exact ⟨by simpa [h.nextId_eq] using hnew, rfl, nofun⟩

theorem update (h : manager.Records count finished) (hscope : scope.Records finished) :
    (manager.update scope).Records count finished where
  nextId_eq := h.nextId_eq
  ids_eq := (ids_update manager scope).trans h.ids_eq
  finished_subset := h.finished_subset
  nodup_registered := h.nodup_registered
  mem_registered_iff := h.mem_registered_iff
  scopes := fun other hmem ↦ by
    rcases mem_scopes_update hmem with rfl | ⟨hmem, -⟩
    · exact hscope
    · exact h.scopes other hmem

theorem finish_eq_self (h : manager.Records count finished) (hid : id ∈ finished) :
    manager.finish id = manager := by
  obtain ⟨scope, hscope⟩ := h.exists_scope?_iff.mpr (h.finished_subset hid)
  have hmark : scope.ended = true := by
    rw [(h.scope_records hscope).ended_iff, (h.scope?_eq_some_iff.mp hscope).2]
    exact hid
  rw [Manager.finish, hscope]
  exact if_pos hmark

theorem finish (h : manager.Records count finished) (hscope : manager.scope? id = some scope) :
    (manager.finish id).Records count (finished ++ [id]) := by
  have hmem : ∀ other, other ∈ finished ++ [id] ↔ other ∈ finished ∨ other = id := by simp
  by_cases hid : id ∈ finished
  · rw [h.finish_eq_self hid]
    refine h.congr fun other ↦ (hmem other).trans (or_iff_left_of_imp ?_)
    rintro rfl
    exact hid
  · have hidEq : scope.id = id := (h.scope?_eq_some_iff.mp hscope).2
    have hmark : ¬scope.ended = true := by
      rwa [(h.scope_records hscope).ended_iff, hidEq]
    have hfinish : manager.finish id =
        { manager.update scope.finish with registered := manager.registered.erase id } := by
      rw [Manager.finish, hscope]
      exact if_neg hmark
    rw [hfinish]
    constructor
    · exact h.nextId_eq
    · exact (ids_update manager scope.finish).trans h.ids_eq
    · intro other hother
      rcases (hmem other).mp hother with hother | rfl
      · exact h.finished_subset hother
      · exact h.exists_scope?_iff.mp ⟨scope, hscope⟩
    · exact h.nodup_registered.erase id
    · intro other
      rw [h.nodup_registered.mem_erase_iff, h.mem_registered_iff, hmem, not_or]
      tauto
    · intro other hother
      rcases mem_scopes_update hother with rfl | ⟨hother, hne⟩
      · exact .finish scope ((hmem _).mpr (.inr hidEq))
      · -- The marks of the other scopes stay, and so does their place in the list.
        refine (h.scopes other hother).congr ((hmem _).trans (or_iff_left fun heq ↦ hne ?_))
        exact heq.trans hidEq.symm

/-- **One operation.** A scope that it begins has the next number, and what is on record afterwards
agrees with it. -/
theorem perform (h : manager.Records count finished) {operation : Operation α} {reply : Reply α}
    (hperform : manager.perform? operation = some (reply, manager')) :
    reply.begun = List.range' (count + 1) operation.begins ∧
      manager'.Records (count + operation.begins) (finished ++ operation.finished) := by
  have hbegin : ∀ options, [(manager.startWith options).1] = List.range' (count + 1) 1 ∧
      (manager.startWith options).2.Records (count + 1) (finished ++ []) := by
    intro options
    obtain ⟨hnumber, hrecords⟩ := h.startWith options
    rw [hnumber, List.append_nil]
    exact ⟨rfl, hrecords⟩
  cases operation with
  | start =>
    cases hperform
    exact hbegin manager.options
  | startWith options =>
    cases hperform
    exact hbegin options
  | current flow =>
    cases hperform
    rw [Operation.finished, List.append_nil]
    cases manager.current flow <;> exact ⟨rfl, h⟩
  | finish handle =>
    obtain ⟨scope, hscope, hpair⟩ := Option.map_eq_some_iff.mp hperform
    cases hpair
    exact ⟨rfl, h.finish hscope⟩
  | use handle use =>
    obtain ⟨scope, hscope, hpair⟩ := Option.map_eq_some_iff.mp hperform
    rw [Operation.finished, List.append_nil]
    cases huse : scope.use use with
    | error e =>
      rw [huse] at hpair
      cases hpair
      exact ⟨rfl, h⟩
    | ok result =>
      rw [huse] at hpair
      cases hpair
      exact ⟨rfl, h.update ((h.scope_records hscope).use huse)⟩

end Records

/-!
## Whole runs

Which scopes have begun is told by the replies, and how many there are by the operations alone.
-/

def begun (replies : List (Reply α)) : List Nat := replies.flatMap Reply.begun

def begins : List (Operation α) → Nat
  | [] => 0
  | operation :: rest => operation.begins + begins rest

def finished (operations : List (Operation α)) : List Nat := operations.flatMap Operation.finished

theorem run?_cons_eq_some_iff {manager manager' : Manager} {operation : Operation α}
    {rest : List (Operation α)} {replies : List (Reply α)} :
    manager.run? (operation :: rest) = some (replies, manager') ↔
      ∃ reply next replies', manager.perform? operation = some (reply, next) ∧
        next.run? rest = some (replies', manager') ∧ replies = reply :: replies' := by
  rw [run?]
  constructor
  · intro h
    obtain ⟨⟨reply, next⟩, hperform, hrest⟩ := Option.bind_eq_some_iff.mp h
    obtain ⟨⟨replies', last⟩, hrun, hpair⟩ := Option.bind_eq_some_iff.mp hrest
    cases hpair
    exact ⟨reply, next, replies', hperform, hrun, rfl⟩
  · rintro ⟨reply, next, replies', hperform, hrun, rfl⟩
    exact Option.bind_eq_some_iff.mpr
      ⟨_, hperform, Option.bind_eq_some_iff.mpr ⟨_, hrun, rfl⟩⟩

/-- **A whole run**, by induction on the operations. -/
theorem Records.run {manager manager' : Manager} {count : Nat} {ended : List Nat}
    (h : manager.Records count ended) {operations : List (Operation α)}
    {replies : List (Reply α)} (hrun : manager.run? operations = some (replies, manager')) :
    begun replies = List.range' (count + 1) (begins operations) ∧
      manager'.Records (count + begins operations) (ended ++ finished operations) := by
  induction operations generalizing manager count ended replies with
  | nil =>
    cases hrun
    exact ⟨rfl, (List.append_nil ended).symm ▸ h⟩
  | cons operation rest ih =>
    obtain ⟨reply, next, replies', hperform, hrest, rfl⟩ := run?_cons_eq_some_iff.mp hrun
    obtain ⟨hreply, hnext⟩ := h.perform hperform
    obtain ⟨hreplies, hlast⟩ := ih hnext hrest
    have hbegins : begins (operation :: rest) = operation.begins + begins rest := rfl
    have hfinished : finished (operation :: rest) = operation.finished ++ finished rest :=
      List.flatMap_cons
    have hbegun : begun (reply :: replies') = reply.begun ++ begun replies' := List.flatMap_cons
    rw [hbegins, hfinished, ← Nat.add_assoc, ← List.append_assoc]
    refine ⟨?_, hlast⟩
    rw [hbegun, hreply, hreplies, Nat.add_right_comm, List.range'_append_1]

/-! ## Before and after the end -/

/-- The life of the scopes of a manager: what is true of the manager once operations have been done
and have had their replies. -/
structure Lifecycle (operations : List (Operation α)) (replies : List (Reply α))
    (manager : Manager) : Prop where
  /-- Every scope that is begun has the next number, and the first one has the number 1. -/
  begun_eq : begun replies = List.range' 1 (begins operations)
  /-- A scope can be used and ended at any time after it has begun. -/
  perform?_ne_none_iff : ∀ operation : Operation α, manager.perform? operation ≠ none ↔
    ∀ handle, operation.handle? = some handle → handle ∈ begun replies
  /-- A scope is registered from its beginning to its end. -/
  mem_registered_iff : ∀ handle, handle ∈ manager.registered ↔
    handle ∈ begun replies ∧ handle ∉ finished operations
  live_eq : manager.live =
    ((begun replies).filter fun handle ↦ handle ∉ finished operations).length
  /-- A scope is active and its store is open until it is ended, and its flow finds it as long as it
  is active. -/
  current_eq : ∀ handle ∈ begun replies, ∃ scope, manager.scope? handle = some scope ∧
    (scope.isActive ↔ handle ∉ finished operations) ∧
    (scope.store.closed = true ↔ handle ∈ finished operations) ∧
    manager.current (some handle) = if scope.isActive then .ok scope else .error .noActiveScope
  /-- A scope that has been ended has no variables, whatever is done from then on. -/
  values_eq_nil : ∀ handle ∈ finished operations, ∀ (rest : List (Operation α)) (replies' manager'),
    manager.run? rest = some (replies', manager') →
      ∃ scope, manager'.scope? handle = some scope ∧ scope.store.values = []
  /-- Nothing is put into a store that was taken before the end. An empty name is refused as
  such. -/
  set_takenStore : ∀ handle ∈ finished operations, ∀ (name : String) (value : Value),
    manager.perform? (.use handle (.takenStore (.set name value)) : Operation α) =
      some (.error (if name = "" then .emptyName else .noActiveScope), manager)
  /-- Whatever is asked of a scope that has been ended is refused, if it is asked through a
  handle. -/
  use_handle : ∀ handle ∈ finished operations, ∀ use : ScopeUse α, use.isByHandle →
    manager.perform? (.use handle use) = some (.error .noActiveScope, manager)
  /-- To end a scope again changes nothing. -/
  finish_again : ∀ handle ∈ finished operations,
    manager.perform? (.finish handle : Operation α) = some (.ok .finished, manager)

namespace Records

variable {manager : Manager} {count : Nat} {ended : List Nat} {scope : Scope} {handle : Nat}

theorem perform?_ne_none_iff (h : manager.Records count ended) (operation : Operation α) :
    manager.perform? operation ≠ none ↔
      ∀ handle, operation.handle? = some handle → handle ∈ List.range' 1 count := by
  have hgiven : ∀ handle, (∀ other, some handle = some other → other ∈ List.range' 1 count) ↔
      manager.scope? handle ≠ none := by
    intro handle
    simp only [Option.some.injEq, forall_eq']
    rw [← h.exists_scope?_iff, Option.ne_none_iff_exists']
  cases operation with
  | start | startWith | current => simp [perform?, Operation.handle?]
  | finish handle => rw [Operation.handle?, hgiven, perform?, ne_eq, Option.map_eq_none_iff]
  | use handle use => rw [Operation.handle?, hgiven, perform?, ne_eq, Option.map_eq_none_iff]

theorem length_registered (h : manager.Records count ended) :
    manager.registered.length =
      ((List.range' 1 count).filter fun id ↦ id ∉ ended).length := by
  refine List.Perm.length_eq ((List.perm_ext_iff_of_nodup h.nodup_registered
    (List.Nodup.filter _ List.nodup_range')).mpr fun id ↦ ?_)
  rw [h.mem_registered_iff, List.mem_filter, decide_eq_true_iff]

theorem exists_scope?_of_mem (h : manager.Records count ended) (hhandle : handle ∈ ended) :
    ∃ scope, manager.scope? handle = some scope ∧ ¬scope.isActive ∧
      scope.store.closed = true ∧ scope.store.values = [] := by
  obtain ⟨scope, hscope⟩ := h.exists_scope?_iff.mpr (h.finished_subset hhandle)
  have hclosed := (h.closed_iff hscope).mpr hhandle
  have hrecords := h.scope_records hscope
  refine ⟨scope, hscope, ?_, hclosed, ?_⟩
  · rw [h.isActive_iff hscope]
    exact not_not_intro hhandle
  · exact hrecords.values_eq_nil (hrecords.closed_eq.symm.trans hclosed)

theorem perform?_use_of_mem (h : manager.Records count ended) (hhandle : handle ∈ ended)
    {use : ScopeUse α} {e : VariableError}
    (huse : ∀ scope : Scope, ¬scope.isActive → scope.store.closed = true →
      scope.use use = .error e) :
    manager.perform? (.use handle use) = some (.error e, manager) := by
  obtain ⟨scope, hscope, hactive, hclosed, -⟩ := h.exists_scope?_of_mem hhandle
  rw [perform?, hscope, Option.map_some, huse scope hactive hclosed]

end Records

/-- **The life of a scope.** Scopes are numbered from one on. A scope is registered and found from
its beginning to its end. After its end it has no variables and gets none, whatever is asked through
its handle is refused, and to end it again changes nothing. -/
theorem lifecycle_of_run_eq_some (options : Options) (entropy : UInt32)
    {operations : List (Operation α)} {replies : List (Reply α)} {manager : Manager}
    (hrun : ({ options, entropy } : Manager).run? operations = some (replies, manager)) :
    manager.Lifecycle operations replies := by
  obtain ⟨hbegun, h⟩ := (Records.init options entropy).run hrun
  rw [Nat.zero_add] at hbegun h
  rw [List.nil_append] at h
  constructor
  · exact hbegun
  · rw [hbegun]
    exact h.perform?_ne_none_iff
  · rw [hbegun]
    exact h.mem_registered_iff
  · rw [hbegun]
    exact h.length_registered
  · rw [hbegun]
    intro handle hhandle
    obtain ⟨scope, hscope⟩ := h.exists_scope?_iff.mpr hhandle
    exact ⟨scope, hscope, h.isActive_iff hscope, h.closed_iff hscope, h.current_eq hscope⟩
  · intro handle hhandle rest replies' manager' hrest
    have hlater := (h.run hrest).2
    obtain ⟨scope, hscope, -, -, hvalues⟩ :=
      hlater.exists_scope?_of_mem (List.mem_append_left _ hhandle)
    exact ⟨scope, hscope, hvalues⟩
  · intro handle hhandle name value
    refine h.perform?_use_of_mem hhandle fun scope _ hclosed ↦ ?_
    rw [Scope.use, Store.use, Store.set, hclosed]
    by_cases hname : name = ""
    · rw [if_pos hname, if_pos hname]
      rfl
    · rw [if_neg hname, if_neg hname]
      rfl
  · intro handle hhandle use huse
    exact h.perform?_use_of_mem hhandle fun scope hactive _ ↦
      Scope.use_of_not_isActive hactive huse
  · intro handle hhandle
    obtain ⟨scope, hscope, -⟩ := h.exists_scope?_of_mem hhandle
    rw [perform?, hscope, h.finish_eq_self hhandle]
    rfl

/-- A scope that is filled, ended and written to through the store that was taken, then another one
that is not ended. -/
theorem lifecycle_of_run_two_scopes :
    ∃ (replies : List (Reply Unit)) (manager : Manager),
      ({} : Manager).run? [.start, .use 1 (.store (.set "x" .null)), .finish 1, .start,
        .use 1 (.takenStore (.set "y" .null)), .current (some 1), .finish 1]
          = some (replies, manager) ∧
      manager.Lifecycle [.start, .use 1 (.store (.set "x" .null)), .finish 1, .start,
        .use 1 (.takenStore (.set "y" .null)), .current (some 1), .finish 1] replies :=
  ⟨_, _, rfl, lifecycle_of_run_eq_some {} 0 rfl⟩

/-- A writer who has taken the store of a scope and ends the scope is told of a name that is empty
and not of the end. -/
theorem set_takenStore_empty_name :
    ¬∀ (options : Options) (entropy : UInt32) (operations : List (Operation Unit))
      (replies : List (Reply Unit)) (manager : Manager),
      ({ options, entropy } : Manager).run? operations = some (replies, manager) →
      ∀ handle ∈ finished operations, ∀ (name : String) (value : Value),
        manager.perform? (.use handle (.takenStore (.set name value)) : Operation Unit) =
          some (.error .noActiveScope, manager) := by
  intro h
  have hset := h {} 0 [.start, .finish 1] _ _ rfl 1 (by decide) "" .null
  cases hset

end Manager
end Playbook
