import Playbook.Proofs.StoreUpdate

/-!
# Operations on a manager

What can be done with a manager and with what it hands out, one operation after the other: scopes
are begun, looked up by their flows and ended, and their variables and random words are used.

A handle is the number of its scope, and a flow is that number or none. A store is used through a
handle, which gives it away only while its scope is active, or it has been taken from a handle
before. Every scope is active when it has just been begun, so its store may have been taken, and a
use of a taken store is an operation like any other, whether the scope has ended since or not.
-/

namespace Playbook

open Outcome

inductive StoreUse where
  | set (name : String) (value : Value)
  | get (name : String)
  | delete (name : String)
  | resolve (interpolator : Interpolator) (text : String)

inductive ScopeUse (α : Type) where
  /-- Its store is used through a handle. -/
  | store (use : StoreUse)
  /-- Its store is used, which was taken before. -/
  | takenStore (use : StoreUse)
  | resolve (text : String)
  | resolveOrLiteral (text : String)
  | draw (draw : Random → α × Random)

inductive Operation (α : Type) where
  | start
  | startWith (options : Options)
  | current (flow : Option Nat)
  | finish (handle : Nat)
  | use (handle : Nat) (use : ScopeUse α)

/-- What the use of a scope yields. -/
inductive Yield (α : Type) where
  | nothing
  | variable (v : Variable)
  | text (text : String)
  | drawn (a : α)

/-- What an operation that succeeds answers. -/
inductive Answer (α : Type) where
  /-- The handle of a scope that is begun. -/
  | begun (handle : Nat)
  /-- The handle of a scope that is found. -/
  | found (handle : Nat)
  | finished
  | used (yield : Yield α)

abbrev Reply (α : Type) := Except VariableError (Answer α)

variable {α : Type}

def ScopeUse.isByHandle : ScopeUse α → Bool
  | .takenStore _ => false
  | _ => true

namespace Operation

/-- How many scopes an operation begins. -/
def begins : Operation α → Nat
  | .start | .startWith _ => 1
  | .current _ | .finish _ | .use _ _ => 0

/-- The handle that an operation is given. -/
def handle? : Operation α → Option Nat
  | .start | .startWith _ | .current _ => none
  | .finish handle | .use handle _ => some handle

def finished : Operation α → List Nat
  | .start | .startWith _ | .current _ | .use _ _ => []
  | .finish handle => [handle]

end Operation

/-- The scope that is begun according to a reply. -/
def Reply.begun : Reply α → List Nat
  | .ok (.begun handle) => [handle]
  | _ => []

/-! ## Doing them -/

def Store.use (store : Store) : StoreUse → Except VariableError (Yield α × Store)
  | .set name value => do return (.nothing, ← store.set name value)
  | .get name => do return (.variable (← store.get name), store)
  | .delete name => do return (.nothing, ← store.delete name)
  | .resolve interpolator text => do
    return (.text (String.ofList (← interpolator.resolve store.values text.toList)), store)

def Scope.use (scope : Scope) : ScopeUse α → Except VariableError (Yield α × Scope)
  | .store use => do
    let (yield, store) ← (← scope.activeStore).use use
    return (yield, { scope with store })
  | .takenStore use => do
    let (yield, store) ← scope.store.use use
    return (yield, { scope with store })
  | .resolve text => do return (.text (← scope.resolve text), scope)
  | .resolveOrLiteral text => do return (.text (← scope.resolveOrLiteral text), scope)
  | .draw draw => do
    let (a, scope) ← scope.draw draw
    return (.drawn a, scope)

namespace Manager

/-- Does an operation, if there is a scope with the handle that it is given. A use that fails leaves
the scope as it is. -/
def perform? (manager : Manager) : Operation α → Option (Reply α × Manager)
  | .start => some (.ok (.begun manager.start.1), manager.start.2)
  | .startWith options =>
    some (.ok (.begun (manager.startWith options).1), (manager.startWith options).2)
  | .current flow => some ((manager.current flow).map fun scope ↦ .found scope.id, manager)
  | .finish handle => (manager.scope? handle).map fun _ ↦ (.ok .finished, manager.finish handle)
  | .use handle use => (manager.scope? handle).map fun scope ↦
    match scope.use use with
    | .ok (yield, scope) => (.ok (.used yield), manager.update scope)
    | .error e => (.error e, manager)

def run? (manager : Manager) : List (Operation α) → Option (List (Reply α) × Manager)
  | [] => some ([], manager)
  | operation :: rest => do
    let (reply, manager) ← manager.perform? operation
    let (replies, manager) ← manager.run? rest
    return (reply :: replies, manager)

end Manager

/-! ## What a use leaves -/

/-- A use of a store neither opens nor closes it, and puts nothing into a store that is closed. -/
theorem Store.use_eq_ok {store store' : Store} {use : StoreUse} {yield : Yield α}
    (h : store.use use = .ok (yield, store')) :
    store'.closed = store.closed ∧
      (store.closed = true → store.values = [] → store'.values = []) := by
  cases use with
  | set name value =>
    obtain ⟨set, hset, hpair⟩ := bind_eq_ok_iff.mp h
    cases hpair
    obtain ⟨-, hopen, rfl⟩ := set_eq_ok_iff.mp hset
    exact ⟨rfl, fun hclosed ↦ absurd (hopen.symm.trans hclosed) (by decide)⟩
  | get name =>
    obtain ⟨v, -, hpair⟩ := bind_eq_ok_iff.mp h
    cases hpair
    exact ⟨rfl, fun _ hnil ↦ hnil⟩
  | delete name =>
    obtain ⟨deleted, hdelete, hpair⟩ := bind_eq_ok_iff.mp h
    cases hpair
    obtain ⟨hpresent, rfl⟩ := delete_eq_ok_iff.mp hdelete
    refine ⟨rfl, fun _ hnil ↦ ?_⟩
    rw [hnil] at hpresent
    exact absurd rfl hpresent
  | resolve interpolator text =>
    obtain ⟨out, -, hpair⟩ := bind_eq_ok_iff.mp h
    cases hpair
    exact ⟨rfl, fun _ hnil ↦ hnil⟩

/-- A use of a scope changes at most its random words and its store. -/
theorem Scope.use_eq_ok {scope scope' : Scope} {use : ScopeUse α} {yield : Yield α}
    (h : scope.use use = .ok (yield, scope')) :
    scope'.id = scope.id ∧ scope'.ended = scope.ended ∧
      scope'.store.closed = scope.store.closed ∧
      (scope.store.closed = true → scope.store.values = [] → scope'.store.values = []) := by
  cases use with
  | store use =>
    obtain ⟨store, hactive, hrest⟩ := bind_eq_ok_iff.mp h
    obtain ⟨⟨yield', store'⟩, huse, hpair⟩ := bind_eq_ok_iff.mp hrest
    obtain ⟨-, hstore⟩ := then_eq_ok_iff.mp hactive
    cases hstore
    cases hpair
    exact ⟨rfl, rfl, Store.use_eq_ok huse⟩
  | takenStore use =>
    obtain ⟨⟨yield', store'⟩, huse, hpair⟩ := bind_eq_ok_iff.mp h
    cases hpair
    exact ⟨rfl, rfl, Store.use_eq_ok huse⟩
  | resolve text =>
    obtain ⟨out, -, hpair⟩ := bind_eq_ok_iff.mp h
    cases hpair
    exact ⟨rfl, rfl, rfl, fun _ hnil ↦ hnil⟩
  | resolveOrLiteral text =>
    obtain ⟨out, -, hpair⟩ := bind_eq_ok_iff.mp h
    cases hpair
    exact ⟨rfl, rfl, rfl, fun _ hnil ↦ hnil⟩
  | draw draw =>
    obtain ⟨⟨a, drawn⟩, hdraw, hpair⟩ := bind_eq_ok_iff.mp h
    obtain ⟨-, hdrawn⟩ := then_eq_ok_iff.mp hdraw
    cases hdrawn
    cases hpair
    exact ⟨rfl, rfl, rfl, fun _ hnil ↦ hnil⟩

/-- A scope that is not active refuses whatever is asked of it through a handle. -/
theorem Scope.use_of_not_isActive {scope : Scope} (h : ¬scope.isActive) {use : ScopeUse α}
    (huse : use.isByHandle) : scope.use use = .error .noActiveScope := by
  have hrequire : scope.requireActive = .error .noActiveScope := by rw [requireActive, if_neg h]
  cases use with
  | store use => rw [Scope.use, activeStore, hrequire]; rfl
  | takenStore use => cases huse
  | resolve text => rw [Scope.use, resolve, resolveBy, hrequire]; rfl
  | resolveOrLiteral text => rw [Scope.use, resolveOrLiteral, resolveBy, hrequire]; rfl
  | draw draw => rw [Scope.use, Scope.draw, hrequire]; rfl

end Playbook
