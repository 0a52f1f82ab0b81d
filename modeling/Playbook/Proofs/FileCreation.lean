import Playbook.Proofs.StepEffect
import Mathlib.Data.List.Induction

/-!
# Creating several files

The call that writes several files stores the path of each file under its name, one after the other,
and does not look whether there is a variable with that name already. So it never loses a variable,
but it may give one another value. What it stores is a list of names and paths (`storedFiles`), and
the variables after the call are those before it with the paths put under the names, whether the
call fails or not.
-/

namespace Playbook

variable {σ : Type}

/-! ## Writing names one after the other -/

/-- The path that stored files leave under a name, if one of them has it: that of the last one. -/
def lastPath? (files : List (String × String)) (name : String) : Option String :=
  Entries.find? files.reverse name

/-- The variables after the paths of files are stored under their names. -/
def Variables.putPaths (values : Variables) (files : List (String × String)) : Variables :=
  files.foldl (fun values file ↦ values.put file.1 (.string file.2)) values

theorem Variables.find?_putPaths (values : Variables) (files : List (String × String))
    (name : String) :
    (values.putPaths files).find? name =
      ((lastPath? files name).map Value.string).or (values.find? name) := by
  rw [putPaths, lastPath?]
  -- The last file hides those before it, so the induction takes it off first.
  induction files using List.reverseRecOn with
  | nil => rfl
  | append_singleton files file ih =>
    rw [List.foldl_append, List.foldl_cons, List.foldl_nil, List.reverse_concat, Entries.find?]
    by_cases hname : file.1 = name
    · rw [if_pos hname, hname, Entries.find?_put_self]
      rfl
    · rw [if_neg hname, Entries.find?_put_of_ne _ _ (Ne.symm hname), ih]

/-! ## What the call stores -/

namespace StepRun

/-- The names and paths of the files whose paths a call stores, in order: those of the rows up to
the first one that fails. -/
def storedFiles (services : Services σ) : List FileRow → Stage σ → List (String × String)
  | [], _ => []
  | row :: rest, stage =>
    match stage.run (stage.scope.createFile services row) with
    | (.ok (name, path), stage) =>
      match put name (.string path) stage with
      | (.ok (), stage) => (name, path) :: storedFiles services rest stage
      | (.error _, _) => []
    | (.error _, _) => []

/-- Whether it fails or not, the call changes the variables by what it stores and no further. -/
theorem values_createFiles (services : Services σ) (rows : List FileRow) (stage : Stage σ) :
    (createFiles services rows stage).2.scope.store.values =
      stage.scope.store.values.putPaths (storedFiles services rows stage) := by
  induction rows generalizing stage with
  | nil => rfl
  | cons row rest ih =>
    unfold createFiles storedFiles
    obtain ⟨after, hstore, ⟨e, hwork, hrun⟩ | ⟨⟨name, path⟩, hwork, hrun⟩⟩ :=
      compute_cases (fun scope ↦ scope.createFile services row) _ stage
    · -- A row that fails stores nothing and ends the call.
      rw [hrun, hwork, hstore]
      rfl
    · rw [hrun, hwork]
      rcases put_cases name (.string path) after with ⟨e, hput⟩ | ⟨-, last, hput, hvalues⟩
      · simp only [hput, hstore]
        rfl
      · simp only [hput, ih, hvalues, hstore]
        rfl

/-- An ended scope stores nothing. -/
theorem storedFiles_of_not_isActive (services : Services σ) (rows : List FileRow)
    {stage : Stage σ} (h : ¬stage.scope.isActive) : storedFiles services rows stage = [] := by
  cases rows with
  | nil => rfl
  | cons row rest =>
    have hlocation : stage.scope.location row = .error .noActiveScope := by
      rw [Scope.location, Scope.resolve, Scope.resolveBy, Scope.requireActive, if_neg h]
      rfl
    have hwork : stage.run (stage.scope.createFile services row) =
        (.error (.ofVariable .noActiveScope), stage) := by
      rw [Scope.createFile, hlocation]
      rfl
    rw [storedFiles, hwork]

end StepRun

open StepRun

theorem StepCall.values_run_createFiles (services : Services σ) (rows : List FileRow)
    (stage : Stage σ) :
    ((StepCall.createFiles rows).run services stage).2.scope.store.values =
      stage.scope.store.values.putPaths (storedFiles services rows stage) := by
  rw [StepCall.run]
  rcases demand_cases (fun scope ↦ StepError.lift scope.requireActive)
    (StepRun.createFiles services rows) stage with ⟨e, hcheck, hrun⟩ | ⟨-, hrun⟩
  · have hactive : ¬stage.scope.isActive := fun hactive ↦ by
      rw [StepError.lift_eq_ok_iff.mpr (Scope.requireActive_eq_ok_iff.mpr hactive)] at hcheck
      cases hcheck
    rw [hrun, storedFiles_of_not_isActive services rows hactive]
    rfl
  · rw [hrun, values_createFiles]

/-- **What is overwritten.** The call that writes several files changes the variables by the paths
it stores. It loses no variable, and one that was there keeps its value exactly if no path is stored
under its name or the last of them is the value it has. -/
theorem StepCall.run_createFiles_keeps_iff (services : Services σ) (rows : List FileRow)
    (stage : Stage σ) :
    ((StepCall.createFiles rows).run services stage).2.scope.store.values =
      stage.scope.store.values.putPaths (storedFiles services rows stage) ∧
    ∀ name value, stage.scope.store.values.find? name = some value →
      ((StepCall.createFiles rows).run services stage).2.scope.store.values.find? name ≠ none ∧
      (((StepCall.createFiles rows).run services stage).2.scope.store.values.find? name
          = some value ↔
        ∀ path, lastPath? (storedFiles services rows stage) name = some path →
          value = .string path) := by
  refine ⟨values_run_createFiles services rows stage, fun name value hvalue ↦ ?_⟩
  rw [values_run_createFiles, Variables.find?_putPaths, hvalue]
  cases lastPath? (storedFiles services rows stage) name with
  | none => simp
  | some path => simp [eq_comm]

/-- A file named as a variable takes its place, and the call succeeds. -/
theorem StepCall.run_createFiles_overwrites :
    ¬∀ (services : Services FileTree) (rows : List FileRow) (stage : Stage FileTree),
      stage.scope.isActive → ∀ name value, stage.scope.store.values.find? name = some value →
        ((StepCall.createFiles rows).run services stage).2.scope.store.values.find? name
          = some value := by
  intro h
  have hkept := h (.local Draw.epoch) [⟨"a", none, ""⟩]
    ⟨⟨1, .default, ⟨0⟩, { values := [("a", .string "old")] }, false⟩, {}⟩ rfl "a" (.string "old") rfl
  have hpath : ((StepCall.createFiles [⟨"a", none, ""⟩]).run (.local Draw.epoch)
      ⟨⟨1, .default, ⟨0⟩, { values := [("a", .string "old")] }, false⟩, {}⟩).2.scope.store.values.find? "a"
        = some (.string "./a") := by rfl
  rw [hpath] at hkept
  simp at hkept

end Playbook
