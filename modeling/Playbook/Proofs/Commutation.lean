import Playbook.Scenario.Run
import Playbook.Proofs.Growth

/-!
# Steps that commute

A step may compute the value of a new variable from the variables there are and from the clock, and
from nothing else. Two such steps with different variables can be run in either order. What the
first one adds, the second one has not looked at: had it looked for that variable, it would have
failed where the variable was not yet there, as absent variables are errors.

So the property that carries the proof is one of what a step computes, and not of the step: what is
computed once is computed alike in the scope with one more variable (`Scope.Lasts`).
-/

namespace Playbook

open Outcome

variable {σ ε α β : Type}

/-! ## Steps that derive a value -/

/-- The new variable of a call that derives its value from the variables and the clock, where all
variables that it names have to be there. -/
def StepCall.derived? : StepCall → Option String
  | .storeText _ name | .storeMultilineText name _ | .storeXmlText name _ | .storeNumber _ name
  | .copyValue _ name | .copyText _ name | .substituteVariable _ _ name
  | .storeElementAt _ _ name | .splitIntoSequence _ _ name
  | .storeDate _ _ name | .storeTime _ _ name | .storeDatetime _ _ _ name
  | .storeShiftedDate _ _ _ _ name => some name
  | _ => none

/-- The moment of a text with placeholders, or the one it is if there is no text. -/
def Scope.momentOr (now : Moment) (scope : Scope) : Option String → Except StepError Moment
  | none => .ok now
  | some text => StepError.lift do Moment.parse (← scope.resolve text) none

theorem Scope.Lasts.momentOr (now : Moment) (start : Option String) :
    Lasts fun scope ↦ scope.momentOr now start := by
  cases start with
  | none => exact .const _
  | some text => exact .lift (.bind (.resolve text) fun _ ↦ .const _)

theorem Scope.momentOrNow_eq {services : Services σ} {now : Moment}
    (hclock : services.now = pure now) (scope : Scope) (start : Option String) :
    scope.momentOrNow services start = Work.of (scope.momentOr now start) := by
  cases start with
  | none => rw [Scope.momentOrNow, hclock]; rfl
  | some text => rfl

theorem Work.of_bind (result : Except StepError α) (next : α → Except StepError β) :
    (Work.of result >>= fun a ↦ Work.of (next a) : Work σ β) = Work.of (result >>= next) := by
  funext state
  rw [Work.bind_apply]
  cases result <;> rfl

/-- Where the clock stands still, such a call creates its variable from what lasts. -/
theorem StepCall.exists_createFrom_of_derived {services : Services σ} {now : Moment}
    (hclock : services.now = pure now) {call : StepCall} {name : String}
    (h : call.derived? = some name) :
    ∃ value, Scope.Lasts value ∧ call.run services = StepRun.createFrom name value := by
  cases call <;> cases h
  case storeText text => exact ⟨_, .lift (.bind (.resolve text) fun _ ↦ .const _), rfl⟩
  case storeMultilineText lines => exact ⟨_, .lift (.bind (.resolve _) fun _ ↦ .const _), rfl⟩
  case storeXmlText xml => exact ⟨_, .bind (.xmlText xml) fun _ ↦ .const _, rfl⟩
  case storeNumber number => exact ⟨_, .lift (.bind (.resolve number) fun _ ↦ .const _), rfl⟩
  case copyValue source => exact ⟨_, .valueToCopy source, rfl⟩
  case copyText source => exact ⟨_, .bind (.textOf source _) fun _ ↦ .const _, rfl⟩
  case substituteVariable source template =>
    exact ⟨_, .bind (.substituted source template) fun _ ↦ .const _, rfl⟩
  case storeElementAt collection index => exact ⟨_, .elementAt collection index, rfl⟩
  case splitIntoSequence source separators =>
    exact ⟨_, .bind (.textOf source _) fun _ ↦ .const _, rfl⟩
  case storeDate | storeTime | storeDatetime => exact ⟨_, .const _, rfl⟩
  case storeShiftedDate shift direction start format =>
    refine ⟨fun scope ↦ scope.momentOr now start >>= fun m ↦ do
      (← shift.move direction m).stored format, .bind (.momentOr now start) fun _ ↦ .const _, ?_⟩
    rw [StepCall.run, StepRun.createFrom]
    congr 1
    funext scope
    rw [scope.momentOrNow_eq hclock, Work.of_bind]

namespace StepRun

variable {name : String} {value : Scope → Except StepError Value} {stage after : Stage σ}

/-- Where absent variables are errors, what stores a value that lasts adds a variable, and adds the
same one if another has been added before. -/
theorem createFrom_of_lasts (hlasts : Scope.Lasts value)
    (hfail : stage.scope.interpolator.missing = .fail)
    (hok : (createFrom name value stage).1 = .ok ()) :
    stage.scope.store.values.find? name = none ∧
      ∃ v, createFrom name value stage = (.ok (), stage.grown name v) ∧
        ∀ other, stage.scope.store.values.find? other = none → other ≠ name → ∀ w,
          createFrom name value (stage.grown other w) =
            (.ok (), (stage.grown other w).grown name v) := by
  obtain ⟨⟨hactive, habsent⟩, v, hv, hname, hopen, hafter⟩ :=
    createFrom_eq_ok_iff.mp (Prod.ext hok rfl)
  refine ⟨habsent, v, Prod.ext hok hafter, fun other hother hne w ↦ ?_⟩
  have hstill : (stage.scope.grown other w).store.values.find? name = none :=
    (stage.scope.find?_grown_of_ne w (Ne.symm hne)).trans habsent
  exact createFrom_eq_ok_iff.mpr
    ⟨⟨hactive, hstill⟩, v, hlasts _ hfail v hv other hother w, hname, hopen, rfl⟩

end StepRun

/-! ## Two steps in either order -/

namespace StepCall

open StepRun

variable {services : Services σ} {now : Moment} {call first second : StepCall}
  {name other : String} {stage after last : Stage σ}

theorem attempt_eq_run_of_derived (h : call.derived? = some name) :
    call.attempt services stage = some (call.run services stage) := by
  rw [attempt_eq_some_iff]
  cases call <;> cases h <;> exact ⟨rfl, rfl⟩

theorem runAll_pair (hfirst : first.derived? = some name) (hsecond : second.derived? = some other)
    (hone : first.run services stage = (.ok (), after))
    (htwo : second.run services after = (.ok (), last)) (index : Nat) :
    runAll services index [first, second] stage = (.ok (), last) := by
  simp only [runAll, attempt_eq_run_of_derived hfirst, attempt_eq_run_of_derived hsecond, hone,
    htwo]

/-- **Steps that derive values commute.** If each of two such steps with different variables
succeeds alone, then both orders succeed, and they end with the same variables, which are the same
entries in another order and the same under every name. -/
theorem runAll_comm (hclock : services.now = pure now) (hfirst : first.derived? = some name)
    (hsecond : second.derived? = some other) (hne : name ≠ other)
    (hfail : stage.scope.interpolator.missing = .fail)
    (hok : (first.run services stage).1 = .ok ()) (hok' : (second.run services stage).1 = .ok ()) :
    ∃ after after' : Stage σ,
      runAll services 0 [first, second] stage = (.ok (), after) ∧
        runAll services 0 [second, first] stage = (.ok (), after') ∧
        after.scope.store.values.Perm after'.scope.store.values ∧
        ∀ x, after.scope.store.values.find? x = after'.scope.store.values.find? x := by
  obtain ⟨value, hlasts, hrun⟩ := exists_createFrom_of_derived hclock hfirst
  obtain ⟨value', hlasts', hrun'⟩ := exists_createFrom_of_derived hclock hsecond
  rw [hrun] at hok
  rw [hrun'] at hok'
  obtain ⟨habsent, v, halone, hlater⟩ := createFrom_of_lasts hlasts hfail hok
  obtain ⟨habsent', v', halone', hlater'⟩ := createFrom_of_lasts hlasts' hfail hok'
  have hafter := hlater' name habsent hne v
  have hbefore := hlater other habsent' (Ne.symm hne) v'
  rw [← hrun] at halone hbefore
  rw [← hrun'] at halone' hafter
  exact ⟨_, _, runAll_pair hfirst hsecond halone hafter 0,
    runAll_pair hsecond hfirst halone' hbefore 0,
    Entries.put_put_perm habsent habsent' hne v v', Entries.find?_put_put_comm _ hne v v'⟩

/-- A text made of two variables and the copy of one of them can be stored in either order. -/
theorem runAll_comm_text_and_copy :
    let stage : Stage FileTree :=
      { scope :=
          { id := 1, interpolator := .ofOptions {}, random := ⟨0⟩,
            store := { values := [("key", .string "name"), ("name", .string "Ada")] } },
        world := {} }
    let text : StepCall := .storeText "{{key}}" "text"
    let copy : StepCall := .copyText "name" "copy"
    stage.scope.interpolator.missing = .fail ∧
      (text.run (.local Draw.epoch) stage).1 = .ok () ∧
      (copy.run (.local Draw.epoch) stage).1 = .ok () ∧
      ∃ after after' : Stage FileTree,
        runAll (.local Draw.epoch) 0 [text, copy] stage = (.ok (), after) ∧
          runAll (.local Draw.epoch) 0 [copy, text] stage = (.ok (), after') ∧
          after.scope.store.values.Perm after'.scope.store.values ∧
          ∀ x, after.scope.store.values.find? x = after'.scope.store.values.find? x := by
  intro stage text copy
  have htext : (text.run (.local Draw.epoch) stage).1 = .ok () := by rfl
  have hcopy : (copy.run (.local Draw.epoch) stage).1 = .ok () := by rfl
  exact ⟨rfl, htext, hcopy, runAll_comm rfl rfl rfl (by decide) rfl htext hcopy⟩

end StepCall

end Playbook
