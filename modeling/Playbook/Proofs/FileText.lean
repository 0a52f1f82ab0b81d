import Playbook.Proofs.Growth
import Playbook.Proofs.SavedFiles
import Playbook.Proofs.Substitution

/-!
# Texts that go through a file

The text of a variable can be written to a file and read from there into a new variable. Each of the
two steps resolves the path for itself. Writing changes no variable, so both resolve it alike,
whatever it names: a placeholder with the name of the new variable has no variable for either of
them, since that one is stored after the file is read.
-/

namespace Playbook

open Outcome StepRun

variable {σ : Type} {services : Services σ} {name path : String}

/-! ## Writing and reading -/

namespace Scope

variable {scope : Scope} {random random' : Random} {world world' : σ}

/-- The text of a variable is written where its path leads, and nothing is drawn for that. -/
theorem writeVariable_eq_ok {value : Value} (hvalue : scope.store.values.find? name = some value)
    (h : scope.writeVariable services name path (random, world) = (.ok (), random', world')) :
    random' = random ∧ ∃ resolved, scope.resolve path = .ok resolved ∧
      services.files.write resolved value.render world = (.ok (), world') := by
  have htext : (scope.store.text? name).getD "" = value.render := by
    rw [Value.render, ← Store.getD_text? hvalue, String.ofList_toList]
  obtain ⟨⟨⟩, _, hexists, hrest⟩ := Work.bind_eq_ok_iff.mp h
  obtain ⟨-, rfl⟩ := Work.ofVariables_eq_ok_iff.mp hexists
  obtain ⟨resolved, _, hresolved, hrest⟩ := Work.bind_eq_ok_iff.mp hrest
  obtain ⟨hresolve, rfl⟩ := Work.ofVariables_eq_ok_iff.mp hresolved
  obtain ⟨hwrite, hrandom⟩ := Work.askChecked_eq_iff.mp hrest
  rw [htext] at hwrite
  exact ⟨hrandom, resolved, hresolve, hwrite⟩

theorem fileContent_eq_ok {resolved text : String} (hresolve : scope.resolve path = .ok resolved)
    (hread : services.files.read resolved world = (.ok text, world')) :
    scope.fileContent services path (random, world) = (.ok (.string text), random, world') :=
  Work.bind_eq_ok_iff.mpr ⟨resolved, _, Work.ofVariables_eq_ok_iff.mpr ⟨hresolve, rfl⟩,
    Work.bind_eq_ok_iff.mpr ⟨text, _, Work.askChecked_eq_iff.mpr ⟨hread, rfl⟩, rfl⟩⟩

end Scope

/-- Where a variable is taken, what is computed for it without draws is stored. -/
theorem StepRun.create_of_takes {work : Scope → Work σ Value} {stage : Stage σ} {value : Value}
    {world : σ} (htakes : stage.scope.Takes name)
    (hwork : work stage.scope (stage.scope.random, stage.world) =
      (.ok value, stage.scope.random, world)) :
    create name work stage = (.ok (), ({ stage with world } : Stage σ).grown name value) := by
  have hcheck := absent_eq_ok_iff.mpr ⟨htakes.isActive, htakes.absent⟩
  simp only [create, demand, hcheck, compute, Stage.run_eq_of_work_eq hwork]
  exact put_eq_ok_iff.mpr ⟨htakes.name_ne, htakes.isOpen, rfl⟩

/-- Writing a variable changes the world and nothing else. -/
theorem StepCall.run_writeVariableToFile_eq_ok {stage written : Stage σ} {value : Value}
    (hactive : stage.scope.isActive) (hvalue : stage.scope.store.values.find? name = some value)
    (h : (StepCall.writeVariableToFile name path).run services stage = (.ok (), written)) :
    ∃ resolved world, stage.scope.resolve path = .ok resolved ∧
      services.files.write resolved value.render stage.world = (.ok (), world) ∧
      written = { stage with world } := by
  rw [StepCall.run, inspect_of_isActive hactive] at h
  have hwork := Stage.work_eq_of_run_eq h
  obtain ⟨hrandom, resolved, hresolve, hwrite⟩ := Scope.writeVariable_eq_ok hvalue hwork
  rw [hrandom] at hwork
  refine ⟨resolved, written.world, hresolve, hwrite, ?_⟩
  exact congrArg Prod.snd (h.symm.trans (Stage.run_eq_of_work_eq hwork))

/-! ## Through a file -/

/-- **A text survives a file.** If the file system reads what has been written, and a variable is
written to a path in a scope that takes a new variable, then no variable has changed, and reading
the same path into the new variable succeeds: it is a string then, the text of the written variable,
which is empty for null, and nothing else of the scope has changed. -/
theorem StepCall.run_storeFileContent_of_written (hfiles : services.files.ReadsWritten)
    {target : String} {stage written : Stage σ} {value : Value}
    (htakes : stage.scope.Takes target)
    (hvalue : stage.scope.store.values.find? name = some value)
    (hwrite : (StepCall.writeVariableToFile name path).run services stage = (.ok (), written)) :
    written.scope = stage.scope ∧
      ∃ last, (StepCall.storeFileContent path target).run services written = (.ok (), last) ∧
        last.scope.store.values.find? target = some (.string value.render) ∧
        stage.scope.store.values.AgreeExcept target last.scope.store.values ∧
        last.scope = stage.scope.grown target (.string value.render) := by
  obtain ⟨resolved, world, hresolve, hwritten, rfl⟩ :=
    run_writeVariableToFile_eq_ok htakes.isActive hvalue hwrite
  obtain ⟨left, hread⟩ : ∃ left, services.files.read resolved world = (.ok value.render, left) :=
    ⟨_, Prod.ext (hfiles hwritten) rfl⟩
  refine ⟨rfl, _, create_of_takes htakes (Scope.fileContent_eq_ok hresolve hread), ?_, ?_, rfl⟩
  · exact Entries.find?_put_self _ _ _
  · exact fun other hne ↦ Entries.find?_put_of_ne _ _ hne

/-- A sequence goes through a file whose path names the new variable, which stays in the path as
there is no such variable yet. A null goes through it as the empty text. -/
theorem StepCall.run_storeFileContent_of_written_named :
    let stage : Stage FileTree :=
      { scope :=
          { id := 1, interpolator := Interpolator.default.lenient, random := ⟨7⟩,
            store := { values := [("none", .null), ("dir", .string "out"),
              ("list", .sequence .int [.int 1, .int (-2)])] } },
        world := {} }
    let path := "\x7bdir\x7d/\x7bcopy\x7d.txt"
    (Services.local Draw.epoch).files.ReadsWritten ∧ stage.scope.Takes "copy" ∧
      ∀ name value, (name, value) ∈ [("none", ""), ("list", "1,-2")] →
        ∃ written last,
          (StepCall.writeVariableToFile name path).run (.local Draw.epoch) stage =
            (.ok (), written) ∧
          (StepCall.storeFileContent path "copy").run (.local Draw.epoch) written =
            (.ok (), last) ∧
          last.scope.store.values.find? "copy" = some (.string value) := by
  intro stage path
  have htakes : stage.scope.Takes "copy" := ⟨rfl, rfl, rfl, by decide⟩
  have hfiles : (Services.local Draw.epoch).files.ReadsWritten := FileService.local_readsWritten
  have hcopy : ∀ name value, stage.scope.store.values.find? name = some value →
      ((StepCall.writeVariableToFile name path).run (.local Draw.epoch) stage).1 = .ok () →
      ∃ written last,
        (StepCall.writeVariableToFile name path).run (.local Draw.epoch) stage =
          (.ok (), written) ∧
        (StepCall.storeFileContent path "copy").run (.local Draw.epoch) written =
          (.ok (), last) ∧
        last.scope.store.values.find? "copy" = some (.string value.render) := by
    intro name value hvalue hok
    obtain ⟨written, hwrite⟩ : ∃ written,
        (StepCall.writeVariableToFile name path).run (.local Draw.epoch) stage =
          (.ok (), written) := ⟨_, Prod.ext hok rfl⟩
    obtain ⟨-, last, hread, hfound, -⟩ :=
      StepCall.run_storeFileContent_of_written hfiles htakes hvalue hwrite
    exact ⟨written, last, hwrite, hread, hfound⟩
  refine ⟨hfiles, htakes, ?_⟩
  rintro name value hmem
  rcases List.mem_cons.mp hmem with h | hmem
  · cases h
    exact hcopy "none" .null rfl (by decide +kernel +zetaReduce)
  · cases List.mem_singleton.mp hmem
    exact hcopy "list" (.sequence .int [.int 1, .int (-2)]) rfl
      (by decide +kernel +zetaReduce)

end Playbook
