import Playbook.Proofs.Composition
import Playbook.Proofs.FileCreation
import Playbook.Proofs.Growth
import Playbook.Proofs.SavedFiles

/-!
# Files that are found again

The rows of a table of files are located twice: when the files are written, each row in the scope
that the rows before it have left, and when the files are looked for, all rows in the scope that the
last one has left. The two agree if every row adds a new variable and none of them is the variable
with the directory for files without one: where absent variables are errors, what a row has looked
for was there already, so that the variables of later rows make no difference.

So `StepRun.Creates` tells what has been written and stored row by row, and of each row two things
are carried over the rows after it: where it is located, and that there is a file. For the second
one the file system has to be one that does not lose files when it writes others
(`FileService.KeepsFiles`).
-/

namespace Playbook

open Outcome StepRun

variable {σ : Type}

/-- Whether files can be stored as new variables: their names are different, no variable has one of
them, and none is that of the variable with the user's directory. -/
structure Scope.HasRoomFor (scope : Scope) (files : List (String × String)) : Prop where
  nodup : (Entries.names files).Nodup
  absent : ∀ name ∈ Entries.names files, scope.store.values.find? name = none
  ne_userDirectory : ∀ name ∈ Entries.names files, name ≠ userDirectory

/-! ## Rows that are written -/

/-- Whether the files of rows are written one after the other and stored under their names, where
each row is located in the scope that those before it have left. -/
inductive StepRun.Creates (services : Services σ) :
    List FileRow → Stage σ → List (String × String) → Stage σ → Prop
  | nil (stage : Stage σ) : Creates services [] stage [] stage
  | cons {row : FileRow} {rest : List FileRow} {name path text : String}
      {files : List (String × String)} {stage last : Stage σ} {world : σ}
      (located : stage.scope.location row = .ok (name, path))
      (resolved : stage.scope.resolve row.content = .ok text)
      (written : services.files.write path text stage.world = (.ok (), world))
      (later : Creates services rest ({ stage with world }.grown name (.string path)) files last) :
      Creates services (row :: rest) stage ((name, path) :: files) last

/-- A file is written where its row is located, and that changes the world only. -/
theorem Scope.createFile_eq_ok {services : Services σ} {scope : Scope} {row : FileRow}
    {file : String × String} {random random' : Random} {world world' : σ}
    (h : scope.createFile services row (random, world) = (.ok file, random', world')) :
    scope.location row = .ok file ∧ random' = random ∧ ∃ text,
      scope.resolve row.content = .ok text ∧
        services.files.write file.2 text world = (.ok (), world') := by
  obtain ⟨⟨name, path⟩, _, hlocate, hrest⟩ := Work.bind_eq_ok_iff.mp h
  obtain ⟨hlocation, rfl⟩ := Work.ofVariables_eq_ok_iff.mp hlocate
  obtain ⟨text, _, hcontent, hrest⟩ := Work.bind_eq_ok_iff.mp hrest
  obtain ⟨hresolve, rfl⟩ := Work.ofVariables_eq_ok_iff.mp hcontent
  obtain ⟨⟨⟩, _, hwrite, hdone⟩ := Work.bind_eq_ok_iff.mp hrest
  cases hdone
  obtain ⟨hwritten, hrandom⟩ := Work.askChecked_eq_iff.mp hwrite
  exact ⟨hlocation, hrandom, text, hresolve, hwritten⟩

namespace StepRun

variable {services : Services σ} {rows : List FileRow} {files : List (String × String)}
  {stage last : Stage σ}

/-- What the call stores, if it succeeds, has been written row by row. -/
theorem creates_of_createFiles (h : createFiles services rows stage = (.ok (), last)) :
    Creates services rows stage (storedFiles services rows stage) last := by
  induction rows generalizing stage with
  | nil =>
    cases h
    exact .nil _
  | cons row rest ih =>
    rw [createFiles_cons] at h
    obtain ⟨after, -, ⟨e, -, hrun⟩ | ⟨⟨name, path⟩, hwork, hrun⟩⟩ :=
      compute_cases (fun scope ↦ scope.createFile services row) _ stage <;> rw [hrun] at h
    · cases h
    have hfile := Stage.work_eq_of_run_eq hwork
    obtain ⟨hlocation, hrandom, text, hresolve, hwrite⟩ := Scope.createFile_eq_ok hfile
    -- Nothing is drawn for a file, so the scope is what it was before.
    obtain ⟨world, rfl⟩ : ∃ world, after = { stage with world } := by
      rw [hrandom] at hfile
      exact ⟨after.world, congrArg Prod.snd (hwork.symm.trans (Stage.run_eq_of_work_eq hfile))⟩
    obtain ⟨between, hput, hrest⟩ := andThen_eq_ok_iff.mp h
    rw [storedFiles, hwork]
    simp only [hput]
    obtain ⟨-, -, rfl⟩ := put_eq_ok_iff.mp hput
    exact .cons hlocation hresolve hwrite (ih hrest)

end StepRun

/-! ## What lasts over later rows -/

/-- A row is located alike in the scope with a new variable, unless it is the variable with the
user's directory. -/
theorem Scope.location_grown {scope : Scope} {row : FileRow} {file : String × String}
    {name : String} (hfail : scope.interpolator.missing = .fail) (h : scope.location row = .ok file)
    (habsent : scope.store.values.find? name = none) (hname : name ≠ userDirectory)
    (value : Value) : (scope.grown name value).location row = .ok file := by
  have hresolve : ∀ text out, scope.resolve text = .ok out →
      (scope.grown name value).resolve text = .ok out :=
    fun text out hout ↦ Lasts.resolve text scope hfail out hout name habsent value
  obtain ⟨own, hown, hrest⟩ := bind_eq_ok_iff.mp h
  refine bind_eq_ok_iff.mpr ⟨own, hresolve _ _ hown, ?_⟩
  cases hpath : row.path with
  | none =>
    have hdirectory : (scope.grown name value).store.text? userDirectory =
        scope.store.text? userDirectory :=
      Store.text?_congr (scope.find?_grown_of_ne value (Ne.symm hname))
    simp only [hpath] at hrest ⊢
    rw [hdirectory]
    exact hrest
  | some path =>
    simp only [hpath] at hrest ⊢
    obtain ⟨directory, hdirectory, hjoin⟩ := bind_eq_ok_iff.mp hrest
    exact bind_eq_ok_iff.mpr ⟨directory, hresolve _ _ hdirectory, hjoin⟩

namespace Scope.HasRoomFor

variable {scope : Scope} {name path : String} {files : List (String × String)}

theorem head (h : scope.HasRoomFor ((name, path) :: files)) :
    scope.store.values.find? name = none ∧ name ≠ userDirectory :=
  ⟨h.absent name List.mem_cons_self, h.ne_userDirectory name List.mem_cons_self⟩

/-- Once a file is stored there is still room for the others, as they have other names. -/
theorem tail (h : scope.HasRoomFor ((name, path) :: files)) (value : Value) :
    (scope.grown name value).HasRoomFor files := by
  obtain ⟨hname, hnodup⟩ := List.nodup_cons.mp h.nodup
  refine ⟨hnodup, fun other hother ↦ ?_, fun other hother ↦
    h.ne_userDirectory other (List.mem_cons_of_mem _ hother)⟩
  have hne : other ≠ name := fun heq ↦ hname (heq ▸ hother)
  rw [scope.find?_grown_of_ne value hne]
  exact h.absent other (List.mem_cons_of_mem _ hother)

end Scope.HasRoomFor

namespace StepRun.Creates

variable {services : Services σ} {rows : List FileRow} {files : List (String × String)}
  {stage last : Stage σ}

/-- All that changes of the scope are the variables of the files. -/
theorem scope_eq (h : Creates services rows stage files last) :
    last.scope = { stage.scope with store := { stage.scope.store with
      values := stage.scope.store.values.putPaths files } } := by
  induction h with
  | nil => rfl
  | cons _ _ _ _ ih => exact ih

/-- New variables come after those there were. -/
theorem values_eq_append (h : Creates services rows stage files last)
    (hroom : stage.scope.HasRoomFor files) :
    last.scope.store.values =
      stage.scope.store.values ++ files.map fun (name, path) ↦ (name, .string path) := by
  induction h with
  | nil => exact (List.append_nil _).symm
  | @cons row rest name path text files stage last world _ _ _ _ ih =>
    have hput : stage.scope.store.values.put name (.string path) =
        stage.scope.store.values ++ [(name, .string path)] :=
      Entries.put_of_notMem (Entries.find?_eq_none_iff.mp hroom.head.1)
    calc last.scope.store.values
        = stage.scope.store.values.put name (.string path) ++
            files.map fun (name, path) ↦ (name, .string path) := ih (hroom.tail _)
      _ = stage.scope.store.values ++
            ((name, path) :: files).map fun (name, path) ↦ (name, .string path) := by
        rw [hput, List.append_assoc]
        rfl

/-- A row that has been located stays there, whatever rows come later. -/
theorem location_eq (h : Creates services rows stage files last)
    (hfail : stage.scope.interpolator.missing = .fail) (hroom : stage.scope.HasRoomFor files)
    {row : FileRow} {file : String × String} (hrow : stage.scope.location row = .ok file) :
    last.scope.location row = .ok file := by
  induction h with
  | nil => exact hrow
  | cons _ _ _ _ ih =>
    obtain ⟨habsent, hname⟩ := hroom.head
    exact ih hfail (hroom.tail _) (Scope.location_grown hfail hrow habsent hname _)

theorem isFile_of_isFile (hfiles : services.files.KeepsFiles)
    (h : Creates services rows stage files last) {path : String}
    (hpath : (services.files.isFile path stage.world).1 = true) :
    (services.files.isFile path last.world).1 = true := by
  induction h with
  | nil => exact hpath
  | cons _ _ hwritten _ ih => exact ih (hfiles.isFile_write hwritten hpath)

/-- In the end each row is located where its file has been written, and the file is there. -/
theorem forall₂_found (hfiles : services.files.KeepsFiles)
    (h : Creates services rows stage files last)
    (hfail : stage.scope.interpolator.missing = .fail) (hroom : stage.scope.HasRoomFor files) :
    List.Forall₂ (fun row file ↦ last.scope.location row = .ok file ∧
      (services.files.isFile file.2 last.world).1 = true) rows files := by
  induction h with
  | nil => exact .nil
  | cons hlocated _ hwritten hlater ih =>
    obtain ⟨habsent, hname⟩ := hroom.head
    have hgrown := Scope.location_grown hfail hlocated habsent hname
    exact .cons ⟨hlater.location_eq hfail (hroom.tail _) (hgrown _),
      hlater.isFile_of_isFile hfiles (hfiles.isFile_write_self hwritten)⟩ (ih hfail (hroom.tail _))

end StepRun.Creates

/-! ## Looking for files -/

/-- Files that are there are found, and nothing but the world may change meanwhile. -/
theorem Scope.exists_demandFiles_eq_ok {services : Services σ} (hfiles : services.files.KeepsFiles)
    {scope : Scope} {rows : List FileRow} {files : List (String × String)} (random : Random)
    {world : σ} (h : List.Forall₂ (fun row file ↦ scope.location row = .ok file ∧
      (services.files.isFile file.2 world).1 = true) rows files) :
    ∃ left, scope.demandFiles services rows (random, world) = (.ok (), random, left) := by
  induction rows generalizing files world with
  | nil => exact ⟨world, rfl⟩
  | cons row rest ih =>
    obtain ⟨⟨name, path⟩, others, ⟨hlocation, hfile⟩, hrest, rfl⟩ :=
      List.forall₂_cons_left_iff.mp h
    obtain ⟨left, hleft⟩ := ih (hrest.imp fun _ _ hother ↦
      ⟨hother.1, hfiles.isFile_isFile hother.2⟩)
    refine ⟨left, Work.bind_eq_ok_iff.mpr ⟨(name, path), (random, world),
      Work.ofVariables_eq_ok_iff.mpr ⟨hlocation, rfl⟩, ?_⟩⟩
    have hasked : Work.ask (services.files.isFile path) (random, world) =
        (.ok true, random, (services.files.isFile path world).2) :=
      Prod.ext (congrArg Except.ok hfile) rfl
    exact Work.bind_eq_ok_iff.mpr ⟨true, _, hasked, hleft⟩

/-- An active scope finds files that are there. -/
theorem StepCall.exists_run_assertFilesExist_eq_ok {services : Services σ}
    (hfiles : services.files.KeepsFiles) {stage : Stage σ} (hactive : stage.scope.isActive)
    {rows : List FileRow} {files : List (String × String)}
    (h : List.Forall₂ (fun row file ↦ stage.scope.location row = .ok file ∧
      (services.files.isFile file.2 stage.world).1 = true) rows files) :
    ∃ world,
      (StepCall.assertFilesExist rows).run services stage = (.ok (), { stage with world }) := by
  cases rows with
  | nil => exact ⟨stage.world, rfl⟩
  | cons row rest =>
    obtain ⟨left, hleft⟩ := Scope.exists_demandFiles_eq_ok hfiles stage.scope.random h
    exact ⟨left, (inspect_of_isActive hactive).trans (Stage.run_eq_of_work_eq hleft)⟩

/-! ## Files that are found again -/

/-- Where no name comes twice, each name has the path that was put under it. -/
theorem Variables.find?_putPaths_of_mem {files : List (String × String)}
    (hnodup : (Entries.names files).Nodup) (values : Variables) {name path : String}
    (hmem : (name, path) ∈ files) : (values.putPaths files).find? name = some (.string path) := by
  have hreverse : (Entries.names files.reverse).Nodup := by
    rw [Entries.names, List.map_reverse]
    exact List.nodup_reverse.mpr hnodup
  have hlast : lastPath? files name = some path :=
    (Entries.find?_eq_some_iff hreverse).mpr (List.mem_reverse.mpr hmem)
  rw [find?_putPaths, hlast]
  rfl

/-- **Created files are found again.** If the call that writes several files succeeds, and their
names are new and different from each other and from that of the variable with the user's
directory, then each row has been written where `StepRun.Creates` tells, the name of each file has
the path it was written to, nothing else of the scope has changed, and the same rows are found where
they were written. -/
theorem StepCall.run_createFiles_found {services : Services σ} (hfiles : services.files.KeepsFiles)
    {rows : List FileRow} {stage last : Stage σ}
    (hfail : stage.scope.interpolator.missing = .fail)
    (hroom : stage.scope.HasRoomFor (storedFiles services rows stage))
    (h : (StepCall.createFiles rows).run services stage = (.ok (), last)) :
    Creates services rows stage (storedFiles services rows stage) last ∧
      (∃ world,
        (StepCall.assertFilesExist rows).run services last = (.ok (), { last with world })) ∧
      (∀ name path, (name, path) ∈ storedFiles services rows stage →
        last.scope.store.values.find? name = some (.string path)) ∧
      last.scope = { stage.scope with store := { stage.scope.store with
        values := stage.scope.store.values ++
          (storedFiles services rows stage).map fun (name, path) ↦ (name, .string path) } } := by
  rw [StepCall.run] at h
  rcases demand_cases (fun scope ↦ StepError.lift scope.requireActive)
    (StepRun.createFiles services rows) stage with ⟨e, -, hrun⟩ | ⟨hcheck, hrun⟩ <;> rw [hrun] at h
  · cases h
  have hactive : stage.scope.isActive :=
    Scope.requireActive_eq_ok_iff.mp (StepError.lift_eq_ok_iff.mp hcheck)
  have hcreates := creates_of_createFiles h
  have hscope := hcreates.scope_eq
  have hlast : last.scope.isActive := by
    rw [hscope]
    exact hactive
  refine ⟨hcreates, exists_run_assertFilesExist_eq_ok hfiles hlast
    (hcreates.forall₂_found hfiles hfail hroom), fun name path hmem ↦ ?_, ?_⟩
  · rw [hscope]
    exact Variables.find?_putPaths_of_mem hroom.nodup _ hmem
  · rw [← hcreates.values_eq_append hroom, hscope]

/-- Two files in a tree without any. The content of the second one is the path of the first, and
both are found again. -/
theorem StepCall.run_createFiles_found_two :
    let rows : List FileRow := [⟨"a", none, "text"⟩, ⟨"b", some "dir", "{a}"⟩]
    let stage : Stage FileTree := ⟨{ id := 1, interpolator := .default, random := ⟨7⟩ }, {}⟩
    stage.scope.interpolator.missing = .fail ∧
      stage.scope.HasRoomFor (storedFiles (.local Draw.epoch) rows stage) ∧
      ∃ last, (StepCall.createFiles rows).run (.local Draw.epoch) stage = (.ok (), last) ∧
        (∃ world, (StepCall.assertFilesExist rows).run (.local Draw.epoch) last =
          (.ok (), { last with world })) ∧
        last.scope.store.values = [("a", .string "./a"), ("b", .string "dir/b")] := by
  intro rows stage
  have hstored : storedFiles (.local Draw.epoch) rows stage = [("a", "./a"), ("b", "dir/b")] := by
    decide +kernel +zetaReduce
  have hroom : stage.scope.HasRoomFor (storedFiles (.local Draw.epoch) rows stage) := by
    rw [hstored]
    exact ⟨by decide, fun _ _ ↦ rfl, by decide⟩
  have hok : ((StepCall.createFiles rows).run (.local Draw.epoch) stage).1 = .ok () := by
    decide +kernel +zetaReduce
  -- The stage that is left is named without being computed.
  have hpair : ∀ outcome : Except StepError Unit × Stage FileTree, outcome.1 = .ok () →
      ∃ last, outcome = (.ok (), last) := by
    rintro ⟨-, last⟩ rfl
    exact ⟨last, rfl⟩
  obtain ⟨last, hlast⟩ := hpair _ hok
  obtain ⟨-, hfound, -, hscope⟩ :=
    StepCall.run_createFiles_found FileService.local_keepsFiles rfl hroom hlast
  refine ⟨rfl, hroom, last, hlast, hfound, ?_⟩
  rw [hscope, hstored]
  rfl

end Playbook
