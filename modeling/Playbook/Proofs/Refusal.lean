import Playbook.File.Local
import Playbook.Proofs.StepEffect

/-!
# Work for a scope that has ended

A scope that has ended takes no more work. Every form of a step comes to the mark of its scope
before anything else: by its first demand, or because it resolves a text first, which only an active
scope does. So it is refused where it stands, before it looks at a variable, draws a random word or
asks for the clock or a file.

Two calls do not come to the mark. One looks up a kind first and is refused for that if there is
none, and one demands that no files at all be there, which they are.
-/

namespace Playbook

variable {σ : Type} {scope : Scope}

theorem Scope.requireActive_of_not_isActive (h : ¬scope.isActive) :
    scope.requireActive = .error .noActiveScope := if_neg h

namespace StepRun

/-- Whether a step is refused in a scope that is not active, and leaves everything as it is. -/
def Refuses (run : StepRun σ) : Prop :=
  ∀ stage : Stage σ, ¬stage.scope.isActive →
    run stage = (.error (.ofVariable .noActiveScope), stage)

variable {name : String}

theorem demand_refuses {check : Scope → Except StepError Unit} {next : StepRun σ}
    (h : ∀ scope : Scope, ¬scope.isActive → check scope = .error (.ofVariable .noActiveScope)) :
    (demand check next).Refuses := by
  intro stage hended
  unfold demand
  rw [h stage.scope hended]

theorem absent_of_not_isActive (h : ¬scope.isActive) :
    absent name scope = .error (.ofVariable .noActiveScope) := by
  rw [absent, Scope.requireActive_of_not_isActive h]
  rfl

theorem present_of_not_isActive (h : ¬scope.isActive) :
    present name scope = .error (.ofVariable .noActiveScope) := by
  rw [present, Scope.requireActive_of_not_isActive h]
  rfl

theorem create_refuses (name : String) (work : Scope → Work σ Value) : (create name work).Refuses :=
  demand_refuses fun _ h ↦ absent_of_not_isActive h

theorem replace_refuses (name : String) (value : Value) : (replace (σ := σ) name value).Refuses :=
  demand_refuses fun _ h ↦ present_of_not_isActive h

theorem remove_refuses (name : String) : (remove (σ := σ) name).Refuses :=
  demand_refuses fun _ h ↦ present_of_not_isActive h

/-- A demand that the scope be active and nothing else. -/
theorem demand_active_refuses (next : StepRun σ) :
    (demand (fun scope ↦ StepError.lift scope.requireActive) next).Refuses :=
  demand_refuses fun _ h ↦ by rw [Scope.requireActive_of_not_isActive h]; rfl

theorem resolving_refuses (text : String) (next : String → StepRun σ) :
    (resolving text next).Refuses := by
  intro stage hended
  have htext : stage.scope.resolve text = .error .noActiveScope := by
    rw [Scope.resolve, Scope.resolveBy, Scope.requireActive_of_not_isActive hended]
    rfl
  exact resolving_of_error next htext

end StepRun

open StepRun

/-- What is answered to a call in a scope that has ended. -/
def StepCall.answerEnded : StepCall → Except StepError Unit
  | .storeTypedSequence kind _ _ =>
    match Kind.ofName? kind with
    | none => .error (.ofVariable (.unknownKind kind))
    | some _ => .error (.ofVariable .noActiveScope)
  | .assertFilesExist [] => .ok ()
  | _ => .error (.ofVariable .noActiveScope)

/-- **No work after the end.** A call in a scope that has ended gets its answer whatever the
services would do, and leaves the variables, the random words and the world as they are. As services
may leave a mark in the world whenever they are asked, no file has been read or written. -/
theorem StepCall.run_of_ended (services : Services σ) (call : StepCall) {stage : Stage σ}
    (h : stage.scope.ended = true) : call.run services stage = (call.answerEnded, stage) := by
  have hended : ¬stage.scope.isActive := by simp [Scope.isActive, h]
  cases call with
  | storeTypedSequence kind name table =>
    rw [StepCall.run, StepCall.answerEnded]
    cases Kind.ofName? kind with
    | none => rfl
    | some kind => exact create_refuses name _ stage hended
  | changeVariable name value => exact replace_refuses name _ stage hended
  | emptyVariable name => exact replace_refuses name _ stage hended
  | deleteVariable name => exact remove_refuses name stage hended
  | storeRandomPhone mask name => exact resolving_refuses mask _ stage hended
  | storeRandomEmail provider name => exact resolving_refuses provider _ stage hended
  | assertFilesExist files =>
    cases files with
    | nil => rfl
    | cons file files => exact demand_active_refuses _ stage hended
  | createFiles | assertText | assertNull | assertNotNull | assertEmpty | assertNotEmpty
  | writeVariableToFile => exact demand_active_refuses _ stage hended
  | _ => exact create_refuses _ _ stage hended

/-- The text of a variable of a scope that has ended is written to no file. -/
theorem StepCall.run_of_ended_writeVariableToFile :
    let begun : Scope := { id := 1, interpolator := .default, random := ⟨7⟩,
                           store := { values := [("x", .string "text")] } }
    begun.finish.ended = true ∧
      (StepCall.writeVariableToFile "x" "out.txt").run (.local Draw.epoch) ⟨begun.finish, {}⟩ =
        (.error (.ofVariable .noActiveScope), ⟨begun.finish, {}⟩) := by
  intro begun
  exact ⟨rfl, StepCall.run_of_ended (.local Draw.epoch) (.writeVariableToFile "x" "out.txt") rfl⟩

end Playbook
