import Playbook.Scenario.Source
import Playbook.Proofs.EntriesMap
import Playbook.Proofs.Location
import Mathlib.Data.List.Perm.Subperm

/-!
# What is loaded from a directory

Scenarios go by their paths, with slashes for backslashes. A name may have a backslash, so two files
can go by the same path, and then one of them takes the place of the other. That is all that can be
lost (`Scenario.readDirectory_keepsAll_iff`): every scenario that is loaded is that of a file, every
file has its path among the loaded ones, and if no two paths are the same but for their backslashes,
the scenarios that are loaded are those of the files, one each.
-/

namespace Playbook

open Outcome

/-- A file with the suffix of scenarios. -/
structure ScenarioFile where
  /-- The names that lead to it, its own one the last. -/
  names : List String
  /-- Its own name without the suffix. -/
  stem : String
  bytes : ByteArray

namespace ScenarioFile

/-- Whether a file is in a tree, at any depth under a place. -/
structure IsUnder (tree : FileTree) (place : Place) (file : ScenarioFile) : Prop where
  mem_nodes : (place ++ file.names, .file file.bytes) ∈ tree.nodes
  isName : ∀ name ∈ file.names, FileTree.IsName name
  getLast?_eq : file.names.getLast? = some (file.stem ++ Scenario.fileSuffix)

/-- Whether a scenario is the one that is written in a file. Without a name it takes that of the
file. -/
def Holds (file : ScenarioFile) (scenario : Scenario) : Prop :=
  ∃ text written, String.fromUTF8? file.bytes = some text ∧
    Scenario.ofJsonText? text = some written ∧
    written.schemaVersion = Scenario.currentVersion ∧
    scenario = if written.name = "" then { written with name := file.stem } else written

variable {tree : FileTree} {place : Place} {file file' : ScenarioFile}

theorem IsUnder.names_ne_nil (h : file.IsUnder tree place) : file.names ≠ [] := by
  intro hnil
  have hlast := h.getLast?_eq
  rw [hnil] at hlast
  cases hlast

theorem IsUnder.eq_of_names_eq (h : file.IsUnder tree place) (h' : file'.IsUnder tree place)
    (htree : tree.Proper) (hnames : file.names = file'.names) : file = file' := by
  have hnode := List.inj_on_of_nodup_map htree.nodup h.mem_nodes h'.mem_nodes
    (congrArg (place ++ ·) hnames)
  have hstem : file.stem ++ Scenario.fileSuffix = file'.stem ++ Scenario.fileSuffix :=
    Option.some.inj (h.getLast?_eq.symm.trans ((congrArg _ hnames).trans h'.getLast?_eq))
  obtain ⟨names, stem, bytes⟩ := file
  obtain ⟨names', stem', bytes'⟩ := file'
  simp only [Prod.mk.injEq, FileNode.file.injEq] at hnode
  cases hnames
  cases hnode.2
  simpa using hstem

end ScenarioFile

namespace Scenario

variable {tree : FileTree} {place : Place} {directory : String} {names names' : List String}
  {stem : String} {scenarios : Entries Scenario} {file file' : ScenarioFile}

/-! ## Finding and reading the files -/

theorem stem?_eq_some_iff {name : String} : stem? name = some stem ↔ name = stem ++ fileSuffix := by
  have htext : name = stem ++ fileSuffix ↔ name.toList = stem.toList ++ fileSuffix.toList := by
    rw [← String.toList_append]
    exact ⟨congrArg _, fun h ↦ String.toList_injective h⟩
  unfold stem?
  rw [htext]
  by_cases hsuffix : fileSuffix.toList.isSuffixOf name.toList
  · obtain ⟨before, hbefore⟩ := List.isSuffixOf_iff_suffix.mp hsuffix
    rw [if_pos hsuffix, ← hbefore, Option.some.injEq, List.append_cancel_right_eq]
    simp only [List.length_append, Nat.add_sub_cancel, List.take_left']
    rw [← String.toList_inj, String.toList_ofList]
  · rw [if_neg hsuffix]
    refine iff_of_false nofun fun h ↦ hsuffix ?_
    exact List.isSuffixOf_iff_suffix.mpr ⟨stem.toList, h.symm⟩

theorem mem_files_iff {nodes : List (Place × FileNode)} :
    (names, stem) ∈ files nodes ↔ ∃ bytes, (names, .file bytes) ∈ nodes ∧
      names.getLast? = some (stem ++ fileSuffix) := by
  unfold files
  rw [List.mem_filterMap]
  constructor
  · rintro ⟨⟨names', node⟩, hmem, hfile⟩
    cases node with
    | directory => cases hfile
    | file bytes =>
      cases hstem : names'.getLast?.bind stem? with
      | none => simp [hstem] at hfile
      | some stem' =>
        simp only [hstem, Option.some.injEq, Prod.mk.injEq] at hfile
        obtain ⟨rfl, rfl⟩ := hfile
        obtain ⟨name, hlast, hname⟩ := Option.bind_eq_some_iff.mp hstem
        exact ⟨bytes, hmem, hlast.trans (congrArg some (stem?_eq_some_iff.mp hname))⟩
  · rintro ⟨bytes, hmem, hlast⟩
    have hstem : names.getLast?.bind stem? = some stem := by
      rw [hlast, Option.bind_some]
      exact stem?_eq_some_iff.mpr rfl
    exact ⟨_, hmem, by simp only [hstem]⟩

/-- The files that are found under a place of a proper tree. -/
theorem mem_files_under_iff (htree : tree.Proper) :
    (names, stem) ∈ files (tree.under place) ↔
      ∃ bytes, ScenarioFile.IsUnder tree place ⟨names, stem, bytes⟩ := by
  rw [mem_files_iff]
  refine exists_congr fun bytes ↦ ?_
  rw [FileTree.mem_under]
  constructor
  · rintro ⟨⟨hmem, hlead⟩, hlast⟩
    exact ⟨hmem, htree.isName_of_mem hmem hlead, hlast⟩
  · intro h
    exact ⟨⟨h.mem_nodes, FileTree.leadInside_of_isName h.isName h.names_ne_nil⟩, h.getLast?_eq⟩

/-- A file is read through its path from the directory, and what is read is what it holds. -/
theorem holds_of_readNamed (htree : tree.Proper) (hplace : tree.locate directory = .ok place)
    (hfile : file.IsUnder tree place) {scenario : Scenario}
    (h : readNamed tree directory file.names file.stem = .ok scenario) : file.Holds scenario := by
  obtain ⟨written, hread, hnamed⟩ := bind_eq_ok_iff.mp h
  obtain ⟨text, htext, hwritten⟩ := bind_eq_ok_iff.mp hread
  have hbytes := htree.read_join hfile.mem_nodes hfile.isName hfile.names_ne_nil hplace
    (mapError_eq_ok_iff.mp htext)
  cases hjson : ofJsonText? text with
  | none =>
    rw [hjson] at hwritten
    cases hwritten
  | some parsed =>
    simp only [hjson] at hwritten
    by_cases hversion : parsed.schemaVersion = currentVersion
    · rw [if_pos hversion] at hwritten
      cases hwritten
      exact ⟨text, _, hbytes, hjson, hversion, (Except.ok.inj hnamed).symm⟩
    · rw [if_neg hversion] at hwritten
      cases hwritten

/-- The path that a file goes by, with its scenario. -/
def readEntry (tree : FileTree) (directory : String) (file : List String × String) :
    Except ReadError (String × Scenario) := do
  return (key file.1, ← readNamed tree directory file.1 file.2)

theorem readDirectory_eq_ok (h : readDirectory tree directory = .ok scenarios) :
    ∃ place pairs, tree.locate directory = .ok place ∧
      (files (tree.under place)).mapM (readEntry tree directory) = .ok pairs ∧
      scenarios = (Entries.ofPairs pairs).sorted := by
  obtain ⟨node, -, hnode⟩ := bind_eq_ok_iff.mp h
  cases node with
  | file bytes => cases hnode
  | directory =>
    cases hplace : tree.locate directory with
    | error e =>
      rw [hplace] at hnode
      cases hnode
    | ok place =>
      simp only [hplace] at hnode
      obtain ⟨pairs, hpairs, hsorted⟩ := bind_eq_ok_iff.mp hnode
      refine ⟨place, pairs, rfl, hpairs, ?_⟩
      by_cases hempty : pairs.isEmpty
      · rw [if_pos hempty] at hsorted
        cases hsorted
      · rw [if_neg hempty] at hsorted
        exact (Except.ok.inj hsorted).symm

theorem pairwise_names_of_readDirectory (h : readDirectory tree directory = .ok scenarios) :
    scenarios.names.Pairwise (· < ·) := by
  obtain ⟨place, pairs, -, -, rfl⟩ := readDirectory_eq_ok h
  exact Entries.pairwise_names_sorted (Entries.nodup_names_ofPairs pairs)

/-- **Nothing is made up.** Every scenario that is loaded is that of a file, under its path. -/
theorem exists_file_of_mem (htree : tree.Proper) (hplace : tree.locate directory = .ok place)
    (h : readDirectory tree directory = .ok scenarios) {entry : String × Scenario}
    (hentry : entry ∈ scenarios) :
    ∃ file : ScenarioFile, file.IsUnder tree place ∧ entry.1 = key file.names ∧
      file.Holds entry.2 := by
  obtain ⟨place', pairs, hplace', hpairs, rfl⟩ := readDirectory_eq_ok h
  cases hplace.symm.trans hplace'
  have hpair := Entries.mem_of_mem_ofPairs ((Entries.sorted_perm _).mem_iff.mp hentry)
  obtain ⟨⟨names, stem⟩, hfile, hread⟩ := exists_mem_of_mapM_eq_ok hpairs hpair
  obtain ⟨scenario, hscenario, hpure⟩ := bind_eq_ok_iff.mp hread
  obtain ⟨bytes, hunder⟩ := (mem_files_under_iff htree).mp hfile
  cases hpure
  exact ⟨_, hunder, rfl, holds_of_readNamed htree hplace hunder hscenario⟩

/-- **No path is lost.** Every file has its path among the loaded ones. -/
theorem key_mem_names (htree : tree.Proper) (hplace : tree.locate directory = .ok place)
    (h : readDirectory tree directory = .ok scenarios) (hfile : file.IsUnder tree place) :
    key file.names ∈ scenarios.names := by
  obtain ⟨place', pairs, hplace', hpairs, rfl⟩ := readDirectory_eq_ok h
  cases hplace.symm.trans hplace'
  obtain ⟨pair, hpair, hread⟩ := exists_result_of_mapM_eq_ok hpairs
    ((mem_files_under_iff htree).mpr ⟨_, hfile⟩)
  obtain ⟨scenario, -, hpure⟩ := bind_eq_ok_iff.mp hread
  cases hpure
  rw [Entries.names, ((Entries.sorted_perm _).map Prod.fst).mem_iff]
  exact Entries.mem_names_ofPairs.mpr (List.mem_map_of_mem hpair)

/-! ## One scenario for each file -/

/-- Whether the scenarios that are loaded from a place are those of the files under it, one each. -/
def KeepsAll (tree : FileTree) (place : Place) (scenarios : Entries Scenario) : Prop :=
  ∃ found : List ScenarioFile, found.Nodup ∧ (∀ file, file ∈ found ↔ file.IsUnder tree place) ∧
    List.Forall₂ (fun file entry ↦ file.Holds entry.2) found scenarios

/-- Whether no two files under a place go by the same path. -/
def KeysDiffer (tree : FileTree) (place : Place) : Prop :=
  ∀ file file' : ScenarioFile, file.IsUnder tree place → file'.IsUnder tree place →
    key file.names = key file'.names → file = file'

theorem exists_files (htree : tree.Proper) (hplace : tree.locate directory = .ok place)
    (h : readDirectory tree directory = .ok scenarios) {entries : Entries Scenario}
    (hentries : entries ⊆ scenarios) :
    ∃ found : List ScenarioFile, found.map (fun file ↦ key file.names) = entries.names ∧
      (∀ file ∈ found, file.IsUnder tree place) ∧
      List.Forall₂ (fun file entry ↦ file.Holds entry.2) found entries := by
  induction entries with
  | nil => exact ⟨[], rfl, nofun, .nil⟩
  | cons entry rest ih =>
    obtain ⟨hentry, hrest⟩ := List.cons_subset.mp hentries
    obtain ⟨file, hfile, hkey, hholds⟩ := exists_file_of_mem htree hplace h hentry
    obtain ⟨found, hkeys, hfound, hall⟩ := ih hrest
    refine ⟨file :: found, ?_, List.forall_mem_cons.mpr ⟨hfile, hfound⟩, .cons hholds hall⟩
    rw [List.map_cons, hkeys, ← hkey]
    rfl

/-- There is one scenario for each file exactly if no two files go by the same path. -/
theorem keepsAll_iff_keysDiffer (htree : tree.Proper) (hplace : tree.locate directory = .ok place)
    (h : readDirectory tree directory = .ok scenarios) :
    KeepsAll tree place scenarios ↔ KeysDiffer tree place := by
  have hnodup : scenarios.names.Nodup := by
    refine (pairwise_names_of_readDirectory h).imp fun hlt ↦ ?_
    rintro rfl
    exact String.lt_irrefl _ hlt
  constructor
  · rintro ⟨found, -, hmem, hall⟩ file file' hfile hfile' hkey
    -- As many files as paths: a path that two files go by would leave too few paths.
    have hsubset : scenarios.names ⊆ found.map fun file ↦ key file.names := by
      intro name hname
      obtain ⟨entry, hentry, rfl⟩ := List.mem_map.mp hname
      obtain ⟨file, hunder, hkey, -⟩ := exists_file_of_mem htree hplace h hentry
      exact List.mem_map.mpr ⟨file, (hmem file).mpr hunder, hkey.symm⟩
    have hlength : (found.map fun file ↦ key file.names).length = scenarios.names.length := by
      rw [List.length_map, hall.length_eq, Entries.names, List.length_map]
    have hperm := (hnodup.subperm hsubset).perm_of_length_le (Nat.le_of_eq hlength)
    exact List.inj_on_of_nodup_map (hperm.nodup_iff.mp hnodup) ((hmem file).mpr hfile)
      ((hmem file').mpr hfile') hkey
  · intro hdiffer
    obtain ⟨found, hkeys, hunder, hall⟩ := exists_files htree hplace h (List.Subset.refl scenarios)
    refine ⟨found, List.Nodup.of_map _ (hkeys ▸ hnodup), fun file ↦ ⟨hunder file, fun hfile ↦ ?_⟩,
      hall⟩
    have hkey := key_mem_names htree hplace h hfile
    rw [← hkeys] at hkey
    obtain ⟨other, hother, hsame⟩ := List.mem_map.mp hkey
    exact hdiffer other file (hunder other hother) hfile hsame ▸ hother

/-! ## Paths that are the same but for their backslashes -/

/-- What stands between the slashes and backslashes of a path. -/
def pieces (names : List String) : List (List Char) :=
  ("/".intercalate names).toList.splitOnP fun c ↦ c = '/' || c = '\\'

theorem splitOn_slash_map (text : List Char) :
    (text.map fun c ↦ if c = '\\' then '/' else c).splitOn '/' =
      text.splitOnP fun c ↦ c = '/' || c = '\\' := by
  induction text with
  | nil => rfl
  | cons c rest ih =>
    rw [List.splitOn_eq_splitOnP] at ih ⊢
    rw [List.map_cons, List.splitOnP_cons_eq_if_modifyHead, List.splitOnP_cons_eq_if_modifyHead, ih]
    by_cases hback : c = '\\'
    · simp [hback]
    · simp [hback]

theorem key_eq_iff : key names = key names' ↔ pieces names = pieces names' := by
  unfold pieces
  rw [← splitOn_slash_map, ← splitOn_slash_map, key, key, String.ofList_inj]
  refine ⟨fun h ↦ congrArg _ h, fun h ↦ ?_⟩
  have hjoined := congrArg (['/'].intercalate ·) h
  simpa only [List.intercalate_splitOn] using hjoined

/-- **Loading.** The scenarios that are loaded come in the order of their paths, every one is that
of a file, and every file has its path among theirs. They are those of the files, one each, exactly
if no two files have paths that are the same once backslashes are taken for slashes. -/
theorem readDirectory_keepsAll_iff (htree : tree.Proper)
    (hplace : tree.locate directory = .ok place)
    (h : readDirectory tree directory = .ok scenarios) :
    scenarios.names.Pairwise (· < ·) ∧
      (∀ entry ∈ scenarios, ∃ file : ScenarioFile, file.IsUnder tree place ∧
        entry.1 = key file.names ∧ file.Holds entry.2) ∧
      (∀ file : ScenarioFile, file.IsUnder tree place → key file.names ∈ scenarios.names) ∧
      (KeepsAll tree place scenarios ↔ ∀ file file' : ScenarioFile, file.IsUnder tree place →
        file'.IsUnder tree place → pieces file.names = pieces file'.names → file = file') := by
  refine ⟨pairwise_names_of_readDirectory h, fun entry ↦ exists_file_of_mem htree hplace h,
    fun file ↦ key_mem_names htree hplace h, ?_⟩
  rw [keepsAll_iff_keysDiffer htree hplace h]
  simp only [KeysDiffer, key_eq_iff]

/-- Where no name has a backslash, nothing is lost. -/
theorem keepsAll_of_backslash_notMem (htree : tree.Proper)
    (hplace : tree.locate directory = .ok place)
    (h : readDirectory tree directory = .ok scenarios)
    (hnames : ∀ file : ScenarioFile, file.IsUnder tree place →
      '\\' ∉ ("/".intercalate file.names).toList) :
    KeepsAll tree place scenarios := by
  refine (keepsAll_iff_keysDiffer htree hplace h).mpr fun file file' hfile hfile' hkey ↦ ?_
  have hplain : ∀ file : ScenarioFile, file.IsUnder tree place →
      key file.names = "/".intercalate file.names := by
    intro file hfile
    have hsame : (("/".intercalate file.names).toList.map fun c ↦ if c = '\\' then '/' else c) =
        ("/".intercalate file.names).toList := by
      refine (List.map_congr_left fun c hc ↦ if_neg ?_).trans (List.map_id _)
      rintro rfl
      exact hnames file hfile hc
    rw [key, hsame, String.ofList_toList]
  rw [hplain file hfile, hplain file' hfile'] at hkey
  refine hfile.eq_of_names_eq hfile' htree ?_
  rw [← Path.names_intercalate hfile.isName, hkey, Path.names_intercalate hfile'.isName]

/-! ## Two files that go by one path -/

def plainBytes : ByteArray := "\x7b\"schemaVersion\":\"sv-scenario.v1\"\x7d".toUTF8

/-- A directory with a file in a directory `a`, and one whose name has a backslash after the `a`. -/
def slashTree : FileTree where
  nodes := [(["d"], .directory), (["d", "a"], .directory),
    (["d", "a", "b.scenario.json"], .file plainBytes),
    (["d", "a\\b.scenario.json"], .file plainBytes)]

theorem proper_slashTree : slashTree.Proper where
  nodup := by decide
  place_eq place hplace := by
    have hnames : ∀ place ∈ slashTree.nodes.map Prod.fst, ∀ name ∈ place, FileTree.IsName name := by
      decide
    exact ⟨[], place, rfl, rfl, hnames place hplace⟩

theorem locate_slashTree : slashTree.locate "d" = .ok ["d"] := by decide +kernel

/-- Both files are read, and the second one takes the place of the first. -/
theorem readDirectory_slashTree : readDirectory slashTree "d" =
    .ok [("a/b.scenario.json", ⟨currentVersion, "a\\b", none, [], []⟩)] := by
  have hfind : slashTree.find "d" = .ok .directory := by decide +kernel
  have hunder : slashTree.under ["d"] = [(["a"], .directory),
      (["a", "b.scenario.json"], .file plainBytes), (["a\\b.scenario.json"], .file plainBytes)] :=
    List.mergeSort_of_pairwise (by decide)
  have hread : (files (slashTree.under ["d"])).mapM (readEntry slashTree "d") = .ok
      [("a/b.scenario.json", ⟨currentVersion, "b", none, [], []⟩),
        ("a/b.scenario.json", ⟨currentVersion, "a\\b", none, [], []⟩)] := by
    rw [hunder]
    decide +kernel
  unfold readDirectory
  rw [hfind, locate_slashTree]
  change ((files (slashTree.under ["d"])).mapM (readEntry slashTree "d") >>= _) = _
  rw [hread]
  change Except.ok (Entries.ofPairs _).sorted = _
  simp [Entries.ofPairs, Entries.put, Entries.sorted]

/-- Both files of the tree go by the one path that is loaded. -/
theorem key_mem_names_slashTree :
    (slashTree.Proper ∧ slashTree.locate "d" = .ok ["d"] ∧ readDirectory slashTree "d" =
        .ok [("a/b.scenario.json", ⟨currentVersion, "a\\b", none, [], []⟩)]) ∧
      ∀ file : ScenarioFile, file.IsUnder slashTree ["d"] →
        key file.names ∈ ["a/b.scenario.json"] :=
  ⟨⟨proper_slashTree, locate_slashTree, readDirectory_slashTree⟩, (readDirectory_keepsAll_iff
    proper_slashTree locate_slashTree readDirectory_slashTree).2.2.1⟩

/-- A file can be lost. -/
theorem readDirectory_loses_file :
    ¬∀ (tree : FileTree) (directory : String) (place : Place) (scenarios : Entries Scenario),
      tree.Proper → tree.locate directory = .ok place →
        readDirectory tree directory = .ok scenarios → KeepsAll tree place scenarios := by
  intro hkeeps
  have hkept := hkeeps slashTree "d" _ _ proper_slashTree locate_slashTree readDirectory_slashTree
  have hdiffer := (keepsAll_iff_keysDiffer proper_slashTree locate_slashTree
    readDirectory_slashTree).mp hkept
  have hsame := hdiffer ⟨["a", "b.scenario.json"], "b", plainBytes⟩
    ⟨["a\\b.scenario.json"], "a\\b", plainBytes⟩ ⟨by decide, by decide, by decide⟩
    ⟨by decide, by decide, by decide⟩ (by decide)
  exact absurd (congrArg ScenarioFile.stem hsame) (by decide)

end Scenario
end Playbook
