import Playbook.File.Local
import Playbook.Proofs.Location

/-!
# Saved files

Files that have been written can be found as long as the file system does not lose them when it
writes others (`FileService.KeepsFiles`), and hold what has been written
(`FileService.ReadsWritten`). The files of a tree are not lost (`FileService.local_keepsFiles`) and
are read as they were written (`FileService.local_readsWritten`).

A tree only grows when files are saved (`FileTree.Grows`): a directory is made where there is
nothing, and a file is written where there is no directory. So each path goes on leading where it
has led.

A file that has been written is there because the walk to its place goes by directories, and none
of them is in the place itself: had there been one, the file would not have been written.
-/

namespace Playbook

namespace FileTree

open Outcome

variable {tree after : FileTree} {place other : Place} {node : FileNode} {path : String}
  {bytes : ByteArray}

/-! ## Growing -/

/-- Whether all directories of a tree are directories of another one, and all files files there.
What the files hold may change. -/
structure Grows (tree after : FileTree) : Prop where
  directory : ∀ {place}, tree.node? place = some .directory → after.node? place = some .directory
  file : ∀ {place bytes}, tree.node? place = some (.file bytes) →
    ∃ bytes', after.node? place = some (.file bytes')

namespace Grows

theorem refl (tree : FileTree) : tree.Grows tree := ⟨id, fun h ↦ ⟨_, h⟩⟩

theorem trans {between : FileTree} (h : tree.Grows between) (h' : between.Grows after) :
    tree.Grows after where
  directory := fun hnode ↦ h'.directory (h.directory hnode)
  file := fun hnode ↦ by
    obtain ⟨bytes, hbytes⟩ := h.file hnode
    exact h'.file hbytes

end Grows

theorem node?_put_self (h : isStart place = false) :
    (tree.put place node).node? place = some node := by
  rw [node?, h, if_neg Bool.false_ne_true, put, List.find?_cons_of_pos (by simp)]
  rfl

theorem node?_put_of_ne (h : other ≠ place) :
    (tree.put place node).node? other = tree.node? other := by
  rw [node?, node?, put, List.find?_cons_of_neg (by simpa using Ne.symm h), List.find?_filter]
  congr 3
  funext entry
  by_cases hentry : entry.1 = other <;> simp [hentry, h]

theorem isStart_of_node?_ne_directory (h : tree.node? place ≠ some .directory) :
    isStart place = false := by
  rw [node?] at h
  cases hstart : isStart place with
  | false => rfl
  | true => exact absurd (if_pos hstart) h

/-- A directory is made where there is nothing. -/
theorem grows_put_directory (h : tree.node? place = none) :
    tree.Grows (tree.put place .directory) := by
  have hne : ∀ {other node}, tree.node? other = some node → other ≠ place := by
    rintro other node hnode rfl
    rw [h] at hnode
    cases hnode
  constructor
  · intro other hnode
    rw [node?_put_of_ne (hne hnode), hnode]
  · intro other bytes hnode
    rw [node?_put_of_ne (hne hnode)]
    exact ⟨bytes, hnode⟩

/-- A file is written where there is no directory. -/
theorem grows_put_file (h : tree.node? place ≠ some .directory) (bytes : ByteArray) :
    tree.Grows (tree.put place (.file bytes)) := by
  constructor
  · intro other hnode
    have hne : other ≠ place := by
      rintro rfl
      exact h hnode
    rw [node?_put_of_ne hne, hnode]
  · intro other old hnode
    by_cases hplace : other = place
    · rw [hplace, node?_put_self (isStart_of_node?_ne_directory h)]
      exact ⟨bytes, rfl⟩
    · rw [node?_put_of_ne hplace]
      exact ⟨old, hnode⟩

/-! ## Where paths lead in a tree that has grown -/

theorem requireDirectory_eq_ok_iff :
    tree.requireDirectory place = .ok () ↔ tree.node? place = some .directory := by
  rw [requireDirectory]
  rcases tree.node? place with _ | ⟨_ | _⟩ <;> simp

/-- Names that lead somewhere still lead there. -/
theorem Grows.walk_eq (h : tree.Grows after) {names : List String}
    (hwalk : tree.walk place names = .ok other) : after.walk place names = .ok other := by
  induction names generalizing place with
  | nil => exact hwalk
  | cons name rest ih =>
    obtain ⟨hdirectory, hrest⟩ := then_eq_ok_iff.mp hwalk
    refine then_eq_ok_iff.mpr ⟨requireDirectory_eq_ok_iff.mpr
      (h.directory (requireDirectory_eq_ok_iff.mp hdirectory)), ?_⟩
    split_ifs at hrest ⊢
    · exact ih hrest
    · exact ih hrest
    · exact ih hrest

theorem Grows.locate_eq (h : tree.Grows after) (hlocate : tree.locate path = .ok place) :
    after.locate path = .ok place := by
  obtain ⟨⟨start, names⟩, hroute, hwalk⟩ := bind_eq_ok_iff.mp hlocate
  exact bind_eq_ok_iff.mpr ⟨(start, names), hroute, h.walk_eq hwalk⟩

theorem isFile_iff :
    tree.isFile path ↔ Path.endsWithSlash path = false ∧
      ∃ place bytes, tree.locate path = .ok place ∧ tree.node? place = some (.file bytes) := by
  rw [isFile, find]
  cases hlocate : tree.locate path with
  | error problem => simp [bind, Except.bind]
  | ok place =>
    rcases hnode : tree.node? place with _ | ⟨_ | _⟩ <;> cases Path.endsWithSlash path <;>
      simp [bind, Except.bind, hnode]

theorem Grows.isFile (h : tree.Grows after) (hfile : tree.isFile path) : after.isFile path := by
  obtain ⟨hslash, place, bytes, hlocate, hnode⟩ := isFile_iff.mp hfile
  obtain ⟨bytes', hnode'⟩ := h.file hnode
  exact isFile_iff.mpr ⟨hslash, place, bytes', h.locate_eq hlocate, hnode'⟩

/-! ## Saving -/

theorem grows_of_makeDirectory (h : tree.makeDirectory path = .ok after) : tree.Grows after := by
  obtain ⟨place, -, hmake⟩ := bind_eq_ok_iff.mp h
  cases hnode : tree.node? place with
  | none =>
    rw [hnode] at hmake
    cases hmake
    exact grows_put_directory hnode
  | some node =>
    rw [hnode] at hmake
    cases hmake

/-- Making the way to a file, the tree grows from directory to directory, whether they are all made
or not. -/
theorem grows_makeWay (start : String) (parts : List String) (tree : FileTree) :
    tree.Grows (makeWay start parts tree).2 := by
  induction parts generalizing tree with
  | nil => exact .refl tree
  | cons part rest ih =>
    rw [makeWay]
    split_ifs
    · exact ih tree
    · have habove := ih tree
      dsimp only
      split
      next made hmake => exact grows_of_makeDirectory hmake
      next =>
        -- Directories above are missing, and are made first.
        rcases hrest : makeWay start rest tree with ⟨problem | ⟨⟩, between⟩ <;> rw [hrest] at habove
        · exact habove
        · dsimp only
          split
          next made hmake => exact habove.trans (grows_of_makeDirectory hmake)
          next => exact habove
      next => exact .refl tree

/-- Bytes are written where a path leads, unless there is a directory. A path with a slash at its
end is never written to. -/
theorem exists_place_of_writeBytes (h : tree.writeBytes path bytes = .ok after) :
    Path.endsWithSlash path = false ∧ ∃ place, tree.locate path = .ok place ∧
      tree.node? place ≠ some .directory ∧ after = tree.put place (.file bytes) := by
  obtain ⟨⟨start, names⟩, hroute, hwrite⟩ := bind_eq_ok_iff.mp h
  cases hslash : Path.endsWithSlash path with
  | true =>
    simp only [hslash, if_true] at hwrite
    obtain ⟨between, -, hrest⟩ := bind_eq_ok_iff.mp hwrite
    obtain ⟨⟨⟩, -, herror⟩ := bind_eq_ok_iff.mp hrest
    cases herror
  | false =>
    simp only [hslash, Bool.false_eq_true, if_false] at hwrite
    obtain ⟨place, hwalk, hput⟩ := bind_eq_ok_iff.mp hwrite
    refine ⟨rfl, place, bind_eq_ok_iff.mpr ⟨(start, names), hroute, hwalk⟩, ?_⟩
    rcases hnode : tree.node? place with _ | ⟨_ | _⟩ <;> simp only [hnode] at hput
    · exact ⟨nofun, (Except.ok.inj hput).symm⟩
    · exact ⟨nofun, (Except.ok.inj hput).symm⟩
    · cases hput

/-- Where bytes are written there is a file with them afterwards. -/
theorem grows_and_find_of_writeBytes (h : tree.writeBytes path bytes = .ok after) :
    tree.Grows after ∧ after.find path = .ok (.file bytes) := by
  obtain ⟨hslash, place, hlocate, hne, rfl⟩ := exists_place_of_writeBytes h
  have hgrows := grows_put_file hne bytes
  have hnode : (tree.put place (.file bytes)).node? place = some (.file bytes) :=
    node?_put_self (isStart_of_node?_ne_directory hne)
  refine ⟨hgrows, bind_eq_ok_iff.mpr ⟨place, hgrows.locate_eq hlocate, ?_⟩⟩
  simp only [hnode, hslash, Bool.false_eq_true, if_false]

/-- **Saving.** A tree grows when a file is saved, and the file is there afterwards. -/
theorem grows_and_find_of_save (h : tree.save path bytes = (.ok (), after)) :
    tree.Grows after ∧ after.find path = .ok (.file bytes) := by
  have hway := grows_makeWay (Path.start path) (Path.above path) tree
  unfold save at h
  rcases hmake : makeWay (Path.start path) (Path.above path) tree with ⟨problem | ⟨⟩, between⟩ <;>
    rw [hmake] at h hway
  · cases h
  · dsimp only at h
    cases hwrite : between.writeBytes path bytes with
    | error problem =>
      rw [hwrite] at h
      cases h
    | ok written =>
      rw [hwrite] at h
      cases h
      obtain ⟨hgrows, hfind⟩ := grows_and_find_of_writeBytes hwrite
      exact ⟨hway.trans hgrows, hfind⟩

theorem isFile_of_find (h : tree.find path = .ok (.file bytes)) : tree.isFile path := by
  rw [isFile, h]

/-- The bytes of a text are read as that text. -/
theorem read_of_find {text : String} (h : tree.find path = .ok (.file text.toUTF8)) :
    tree.read path = .ok text := by
  have htext : String.fromUTF8? text.toUTF8 = some text := by
    rw [String.fromUTF8?, String.toUTF8_eq_toByteArray, dif_pos text.isValidUTF8]
    rfl
  refine bind_eq_ok_iff.mpr ⟨_, h, ?_⟩
  simp only [htext]

end FileTree

/-! ## The file service -/

/-- Whether a file that has been written is there, and files that are there stay when others are
written or looked for. -/
structure FileService.KeepsFiles {σ : Type} (files : FileService σ) : Prop where
  isFile_write_self : ∀ {path text world after},
    files.write path text world = (.ok (), after) → (files.isFile path after).1 = true
  isFile_write : ∀ {path text world after other},
    files.write path text world = (.ok (), after) → (files.isFile other world).1 = true →
      (files.isFile other after).1 = true
  isFile_isFile : ∀ {path world other}, (files.isFile other world).1 = true →
    (files.isFile other (files.isFile path world).2).1 = true

theorem FileService.save_of_write_local {path text : String} {tree after : FileTree}
    (h : FileService.local.write path text tree = (.ok (), after)) :
    tree.save path text.toUTF8 = (.ok (), after) := by
  rcases hsave : tree.save path text.toUTF8 with ⟨problem | ⟨⟩, left⟩ <;>
    simp only [FileService.local, hsave] at h <;> cases h
  rfl

/-- Files of a tree that have been written are there, and they stay. -/
theorem FileService.local_keepsFiles : FileService.local.KeepsFiles where
  isFile_write_self := fun h ↦
    FileTree.isFile_of_find (FileTree.grows_and_find_of_save (save_of_write_local h)).2
  isFile_write := fun h hother ↦
    (FileTree.grows_and_find_of_save (save_of_write_local h)).1.isFile hother
  isFile_isFile := fun h ↦ h

/-- Whether what is read at a path is what has been written there, as long as nothing else is done
in between. -/
def FileService.ReadsWritten {σ : Type} (files : FileService σ) : Prop :=
  ∀ ⦃path text world after⦄, files.write path text world = (.ok (), after) →
    (files.read path after).1 = .ok text

/-- What has been written to a tree is read there. -/
theorem FileService.local_readsWritten : FileService.local.ReadsWritten := by
  intro path text tree after h
  have hread := FileTree.read_of_find (FileTree.grows_and_find_of_save (save_of_write_local h)).2
  change FileProblem.lift path (after.read path) = .ok text
  rw [hread]
  rfl

end Playbook
