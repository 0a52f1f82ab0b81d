import Playbook.File.Tree
import Playbook.Proofs.Outcome
import Mathlib.Data.List.Nodup
import Mathlib.Tactic.SplitIfs

/-!
# Where a path inside a directory leads

A path is walked name by name, so the path to a file inside a directory leads on from the place of
the directory (`FileTree.eq_append_of_locate_join`). There is one node in each place of a proper
tree, and what is read through such a path is that file and no other (`FileTree.read_join`).
-/

namespace Playbook

/-! ## The names in a path -/

namespace Path

theorem names_append_slash (path rest : String) :
    names (path ++ "/" ++ rest) = names path ++ names rest := by
  have htext : (path ++ "/" ++ rest).toList = path.toList ++ '/' :: rest.toList := by
    simp only [String.toList_append, List.append_assoc]
    rfl
  rw [names, htext, List.splitOnP_append_cons _ _ (by decide), List.map_append, List.filter_append]
  rfl

theorem names_of_endsWithSlash {directory : String} (h : endsWithSlash directory) (rest : String) :
    names (directory ++ rest) = names directory ++ names rest := by
  obtain ⟨before, hbefore⟩ := List.getLast?_eq_some_iff.mp (of_decide_eq_true h)
  have hdirectory : directory = String.ofList before ++ "/" ++ "" := by
    apply String.toList_injective
    simp [hbefore]
  have hempty : names "" = [] := rfl
  have hdirectory' : directory ++ rest = String.ofList before ++ "/" ++ rest := by
    rw [hdirectory, String.append_empty]
  rw [hdirectory', names_append_slash, hdirectory, names_append_slash, hempty, List.append_nil]

/-- The path to something in a directory has the names of the directory first. -/
theorem names_join {directory path : String} (h : isAbsolute path = false) :
    names (join directory path) = names directory ++ names path := by
  unfold join
  simp only [h, Bool.false_eq_true, if_false]
  by_cases hempty : directory = ""
  · rw [if_pos (.inl hempty), hempty, String.empty_append]
    rfl
  · by_cases hslash : endsWithSlash directory
    · rw [if_pos (.inr hslash), names_of_endsWithSlash hslash]
    · rw [if_neg (not_or.mpr ⟨hempty, hslash⟩), names_append_slash]

theorem isAbsolute_join {directory path : String} (h : isAbsolute path = false)
    (hne : directory ≠ "") : isAbsolute (join directory path) = isAbsolute directory := by
  have htext : directory.toList ≠ [] := fun hnil ↦ hne (String.toList_injective hnil)
  have hhead : ∀ rest : List Char, (directory.toList ++ rest).head? = directory.toList.head? :=
    fun rest ↦ List.head?_append_of_ne_nil _ htext
  unfold join
  simp only [h, Bool.false_eq_true, if_false]
  split
  · rw [isAbsolute, String.toList_append, hhead, isAbsolute]
  · rw [isAbsolute, String.append_assoc, String.toList_append, hhead, isAbsolute]

end Path

/-! ## Proper trees -/

/-- Whether a name can be that of a file or directory. -/
structure FileTree.IsName (name : String) : Prop where
  ne_empty : name ≠ ""
  slash_notMem : '/' ∉ name.toList
  ne_dot : name ≠ "."
  ne_dots : name ≠ ".."

instance (name : String) : Decidable (FileTree.IsName name) :=
  decidable_of_iff (name ≠ "" ∧ '/' ∉ name.toList ∧ name ≠ "." ∧ name ≠ "..")
    ⟨fun ⟨hempty, hslash, hdot, hdots⟩ ↦ ⟨hempty, hslash, hdot, hdots⟩,
      fun h ↦ ⟨h.ne_empty, h.slash_notMem, h.ne_dot, h.ne_dots⟩⟩

/-- Whether a tree has a node at most in each place, and only in places that names lead to from the
root, the working directory or one above it. -/
structure FileTree.Proper (tree : FileTree) : Prop where
  nodup : (tree.nodes.map Prod.fst).Nodup
  place_eq : ∀ place ∈ tree.nodes.map Prod.fst, ∃ start names,
    place = start ++ names ∧ isStart start ∧ ∀ name ∈ names, IsName name

namespace Path

open FileTree

theorem names_intercalate {names : List String} (h : ∀ name ∈ names, IsName name) :
    Path.names ("/".intercalate names) = names := by
  induction names with
  | nil => rfl
  | cons name rest ih =>
    obtain ⟨hname, hrest⟩ := List.forall_mem_cons.mp h
    have hself : Path.names name = [name] := by
      have hsplit : name.toList.splitOnP (· = '/') = [name.toList] := by
        refine List.splitOnP_eq_singleton fun c hc ↦ decide_eq_false ?_
        rintro rfl
        exact hname.slash_notMem hc
      rw [Path.names, hsplit, List.map_singleton, String.ofList_toList]
      simp [hname.ne_empty]
    cases rest with
    | nil => exact hself
    | cons next rest =>
      have htext : "/".intercalate (name :: next :: rest) =
          name ++ "/" ++ "/".intercalate (next :: rest) := by
        apply String.toList_injective
        simp [String.toList_intercalate]
      rw [htext, names_append_slash, hself, ih hrest]
      rfl

theorem isAbsolute_intercalate {names : List String} (h : ∀ name ∈ names, IsName name) :
    isAbsolute ("/".intercalate names) = false := by
  cases names with
  | nil => rfl
  | cons name rest =>
    obtain ⟨hname, -⟩ := List.forall_mem_cons.mp h
    have hne : name.toList ≠ [] := fun hnil ↦ hname.ne_empty (String.toList_injective hnil)
    obtain ⟨first, others, hchars⟩ := List.exists_cons_of_ne_nil hne
    have hfirst : first ≠ '/' := by
      rintro rfl
      exact hname.slash_notMem (hchars ▸ List.mem_cons_self)
    rw [isAbsolute, String.toList_intercalate, List.map_cons, hchars]
    cases rest <;> simp [hfirst]

end Path

/-! ## Places -/

namespace FileTree

open Outcome

variable {tree : FileTree} {place other : Place} {names : List String} {directory : String}

theorem walk_append (tree : FileTree) (place : Place) (names rest : List String) :
    tree.walk place (names ++ rest) =
      (tree.walk place names >>= fun between ↦ tree.walk between rest) := by
  induction names generalizing place with
  | nil => rfl
  | cons name names ih =>
    simp only [List.cons_append, walk, bind_assoc]
    refine bind_congr fun _ ↦ ?_
    split_ifs
    · exact ih place
    · exact ih (above place)
    · rfl
    · exact ih (place ++ [name])

/-- Names lead on from a place, if they lead anywhere. -/
theorem eq_append_of_walk (hnames : ∀ name ∈ names, IsName name)
    (h : tree.walk place names = .ok other) : other = place ++ names := by
  induction names generalizing place with
  | nil =>
    cases h
    exact (List.append_nil _).symm
  | cons name rest ih =>
    obtain ⟨hname, hrest⟩ := List.forall_mem_cons.mp hnames
    obtain ⟨-, hwalk⟩ := then_eq_ok_iff.mp h
    rw [if_neg hname.ne_dot, if_neg hname.ne_dots] at hwalk
    by_cases hlong : maxName < name.utf8ByteSize
    · rw [if_pos hlong] at hwalk
      cases hwalk
    · rw [if_neg hlong] at hwalk
      rw [ih hrest hwalk, List.append_assoc]
      rfl

theorem of_locate_eq_ok (h : tree.locate directory = .ok place) :
    directory ≠ "" ∧ tree.walk (if Path.isAbsolute directory then root else [])
      (Path.names directory) = .ok place := by
  obtain ⟨⟨start, names⟩, hroute, hwalk⟩ := bind_eq_ok_iff.mp h
  unfold route at hroute
  by_cases hnul : directory.toList.contains '\x00'
  · rw [if_pos hnul] at hroute
    cases hroute
  rw [if_neg hnul] at hroute
  by_cases hempty : directory = ""
  · rw [if_pos hempty] at hroute
    cases hroute
  rw [if_neg hempty] at hroute
  by_cases hlong : maxPath ≤ directory.utf8ByteSize
  · rw [if_pos hlong] at hroute
    cases hroute
  rw [if_neg hlong] at hroute
  cases hroute
  exact ⟨hempty, hwalk⟩

/-- **Inside a directory.** The path to something in a directory leads on from the place of the
directory. -/
theorem eq_append_of_locate_join (hnames : ∀ name ∈ names, IsName name)
    (hplace : tree.locate directory = .ok place)
    (h : tree.locate (Path.join directory ("/".intercalate names)) = .ok other) :
    other = place ++ names := by
  obtain ⟨hne, hwalk⟩ := of_locate_eq_ok hplace
  obtain ⟨-, hwalk'⟩ := of_locate_eq_ok h
  have hrelative := Path.isAbsolute_intercalate hnames
  rw [Path.isAbsolute_join hrelative hne, Path.names_join hrelative, Path.names_intercalate hnames,
    walk_append] at hwalk'
  obtain ⟨middle, hmiddle, hrest⟩ := bind_eq_ok_iff.mp hwalk'
  rw [hwalk] at hmiddle
  cases hmiddle
  exact eq_append_of_walk hnames hrest

/-- In a proper tree the node of a place is found there. -/
theorem Proper.node?_eq_some (htree : tree.Proper) {node : FileNode}
    (hmem : (place ++ names, node) ∈ tree.nodes) (hnames : ∀ name ∈ names, IsName name)
    (hne : names ≠ []) : tree.node? (place ++ names) = some node := by
  obtain ⟨name, hname⟩ := List.exists_mem_of_ne_nil names hne
  have hmemName : name ∈ place ++ names := List.mem_append_right place hname
  have hstart : isStart (place ++ names) = false := by
    rw [isStart, Bool.or_eq_false_iff, decide_eq_false_iff_not, List.all_eq_false]
    refine ⟨fun hroot ↦ ?_, name, hmemName, ?_⟩
    · rw [hroot, root, List.mem_singleton] at hmemName
      exact (hnames name hname).slash_notMem (by simp [hmemName])
    · simpa using (hnames name hname).ne_dots
  rw [node?, hstart, if_neg Bool.false_ne_true]
  generalize hfind : tree.nodes.find? _ = found
  cases found with
  | none => simpa using List.find?_eq_none.mp hfind _ hmem
  | some found =>
    have hplace : found.1 = place ++ names := by simpa using List.find?_some hfind
    have hfound :=
      List.inj_on_of_nodup_map htree.nodup (List.mem_of_find?_eq_some hfind) hmem hplace
    rw [hfound, Option.map_some]

/-- **Reading inside a directory.** What is read through the path to a file in a directory is the
text of that file. -/
theorem Proper.read_join (htree : tree.Proper) {bytes : ByteArray}
    (hmem : (place ++ names, .file bytes) ∈ tree.nodes) (hnames : ∀ name ∈ names, IsName name)
    (hne : names ≠ []) (hplace : tree.locate directory = .ok place) {text : String}
    (h : tree.read (Path.join directory ("/".intercalate names)) = .ok text) :
    String.fromUTF8? bytes = some text := by
  obtain ⟨node, hfind, hread⟩ := bind_eq_ok_iff.mp h
  obtain ⟨other, hlocate, hnode⟩ := bind_eq_ok_iff.mp hfind
  rw [eq_append_of_locate_join hnames hplace hlocate, htree.node?_eq_some hmem hnames hne] at hnode
  simp only at hnode
  split_ifs at hnode
  cases hnode
  cases htext : String.fromUTF8? bytes with
  | none => simp [htext] at hread
  | some found =>
    simp only [htext, Except.ok.injEq] at hread
    rw [hread]

/-! ## What is under a place -/

theorem mem_under {node : FileNode} :
    (names, node) ∈ tree.under place ↔
      (place ++ names, node) ∈ tree.nodes ∧ leadInside names := by
  rw [under, List.mem_mergeSort, List.mem_filterMap]
  constructor
  · rintro ⟨⟨other, node'⟩, hmem, hother⟩
    simp only [Option.ite_none_right_eq_some, Bool.and_eq_true, List.isPrefixOf_iff_prefix,
      Option.some.injEq, Prod.mk.injEq] at hother
    obtain ⟨⟨⟨rest, rfl⟩, hlead⟩, hnames, rfl⟩ := hother
    rw [List.drop_left] at hlead hnames
    subst hnames
    exact ⟨hmem, hlead⟩
  · rintro ⟨hmem, hlead⟩
    refine ⟨_, hmem, ?_⟩
    simp only [List.drop_left, hlead, Bool.and_true]
    exact if_pos (List.isPrefixOf_iff_prefix.mpr (List.prefix_append place names))

/-- What is under a place in a proper tree is reached from there by names. -/
theorem Proper.isName_of_mem (htree : tree.Proper) {node : FileNode}
    (hmem : (place ++ names, node) ∈ tree.nodes) (hlead : leadInside names) :
    ∀ name ∈ names, IsName name := by
  obtain ⟨start, rest, hplace, hstart, hrest⟩ := htree.place_eq _ (List.mem_map_of_mem hmem)
  rcases List.append_eq_append_iff.mp hplace with ⟨before, hbefore, hnames⟩ | ⟨after, -, hafter⟩
  · cases before with
    | nil => exact hnames ▸ hrest
    | cons first before =>
      -- The names would start at the root or lead above the working directory.
      rw [hnames, List.cons_append, leadInside, Bool.and_eq_true, decide_eq_true_eq,
        decide_eq_true_eq] at hlead
      have hfirst : first ∈ start := hbefore ▸ List.mem_append_right place List.mem_cons_self
      rw [isStart, Bool.or_eq_true, decide_eq_true_eq, List.all_eq_true] at hstart
      rcases hstart with rfl | hdots
      · exact absurd (List.mem_singleton.mp hfirst) hlead.1
      · exact absurd (by simpa using hdots first hfirst) hlead.2
  · exact fun name hname ↦ hrest name (hafter ▸ List.mem_append_right after hname)

theorem leadInside_of_isName (hnames : ∀ name ∈ names, IsName name) (hne : names ≠ []) :
    leadInside names := by
  cases names with
  | nil => exact absurd rfl hne
  | cons name rest =>
    obtain ⟨hname, -⟩ := List.forall_mem_cons.mp hnames
    rw [leadInside, Bool.and_eq_true, decide_eq_true_eq, decide_eq_true_eq]
    refine ⟨?_, hname.ne_dots⟩
    rintro rfl
    exact hname.slash_notMem (by decide)

end FileTree
end Playbook
