import Playbook.Entries
import Mathlib.Data.List.Induction
import Mathlib.Data.List.Nodup

/-!
# Entries as maps

What is in a list of entries after a name has been written or erased, what a look-up finds in it,
and what is left of pairs that are written one after the other.
-/

namespace Playbook.Entries

variable {α : Type} {entries : Entries α} {name : String} {value : α}

theorem mem_of_find?_eq_some (h : entries.find? name = some value) : (name, value) ∈ entries := by
  induction entries with
  | nil => cases h
  | cons entry rest ih =>
    obtain ⟨key, old⟩ := entry
    rw [find?] at h
    by_cases hkey : key = name
    · rw [if_pos hkey] at h
      cases h
      rw [hkey]
      exact List.mem_cons_self
    · rw [if_neg hkey] at h
      exact List.mem_cons_of_mem _ (ih h)

theorem eq_or_mem_of_mem_put {entry : String × α} (h : entry ∈ entries.put name value) :
    entry = (name, value) ∨ entry ∈ entries := by
  induction entries with
  | nil => exact .inl (List.mem_singleton.mp h)
  | cons first rest ih =>
    obtain ⟨key, old⟩ := first
    rw [put] at h
    by_cases hkey : key = name
    · rw [if_pos hkey] at h
      exact (List.mem_cons.mp h).imp_right (List.mem_cons_of_mem _)
    · rw [if_neg hkey] at h
      rcases List.mem_cons.mp h with rfl | hrest
      · exact .inr List.mem_cons_self
      · exact (ih hrest).imp_right (List.mem_cons_of_mem _)

theorem erase_sublist (entries : Entries α) (name : String) :
    (entries.erase name).Sublist entries := by
  induction entries with
  | nil => exact .slnil
  | cons first rest ih =>
    obtain ⟨key, old⟩ := first
    rw [erase]
    by_cases hkey : key = name
    · rw [if_pos hkey]
      exact .cons _ ih
    · rw [if_neg hkey]
      exact .cons_cons _ ih

theorem mem_of_mem_erase {entry : String × α} (h : entry ∈ entries.erase name) :
    entry ∈ entries := (erase_sublist entries name).subset h

theorem nodup_names_erase (h : entries.names.Nodup) : (entries.erase name).names.Nodup :=
  ((erase_sublist entries name).map Prod.fst).nodup h

theorem find?_eq_some_iff (h : entries.names.Nodup) :
    entries.find? name = some value ↔ (name, value) ∈ entries := by
  refine ⟨mem_of_find?_eq_some, fun hmem ↦ ?_⟩
  induction entries with
  | nil => cases hmem
  | cons first rest ih =>
    obtain ⟨key, old⟩ := first
    obtain ⟨hkey, hrest⟩ := List.nodup_cons.mp h
    rw [find?]
    rcases List.mem_cons.mp hmem with heq | hmem
    · cases heq
      exact if_pos rfl
    · have hne : key ≠ name := fun heq ↦ hkey (List.mem_map.mpr ⟨_, hmem, heq.symm⟩)
      rw [if_neg hne]
      exact ih hrest hmem

theorem find?_eq_none_iff : entries.find? name = none ↔ name ∉ entries.names := by
  induction entries with
  | nil => exact iff_of_true rfl List.not_mem_nil
  | cons entry rest ih =>
    obtain ⟨key, old⟩ := entry
    rw [find?, names, List.map_cons, List.mem_cons, not_or]
    by_cases hkey : key = name
    · rw [if_pos hkey]
      exact iff_of_false (Option.some_ne_none old) fun h ↦ h.1 hkey.symm
    · rw [if_neg hkey, ih]
      exact ⟨fun h ↦ ⟨Ne.symm hkey, h⟩, And.right⟩

/-! ## Pairs written one after the other -/

theorem mem_names_put {other : String} :
    other ∈ (entries.put name value).names ↔ other = name ∨ other ∈ entries.names := by
  induction entries with
  | nil => simp [put, names]
  | cons first rest ih =>
    obtain ⟨key, old⟩ := first
    rw [put]
    by_cases hkey : key = name
    · rw [if_pos hkey, names, names, List.map_cons, List.map_cons, hkey]
      simp
    · rw [if_neg hkey, names, names, List.map_cons, List.map_cons, List.mem_cons, List.mem_cons]
      exact (or_congr_right ih).trans or_left_comm

theorem nodup_names_put (h : entries.names.Nodup) : (entries.put name value).names.Nodup := by
  induction entries with
  | nil => exact List.pairwise_singleton _ _
  | cons first rest ih =>
    obtain ⟨key, old⟩ := first
    obtain ⟨hkey, hrest⟩ := List.nodup_cons.mp h
    rw [put]
    by_cases hsame : key = name
    · rw [if_pos hsame, ← hsame]
      exact h
    · rw [if_neg hsame]
      refine List.nodup_cons.mpr ⟨fun hmem ↦ ?_, ih hrest⟩
      exact (mem_names_put.mp hmem).elim hsame hkey

variable {pairs : List (String × α)}

theorem ofPairs_append_singleton (pairs : List (String × α)) (pair : String × α) :
    ofPairs (pairs ++ [pair]) = (ofPairs pairs).put pair.1 pair.2 := by
  rw [ofPairs, List.foldl_append]
  rfl

theorem mem_names_ofPairs : name ∈ (ofPairs pairs).names ↔ name ∈ pairs.map Prod.fst := by
  induction pairs using List.reverseRecOn with
  | nil => rfl
  | append_singleton pairs pair ih =>
    rw [ofPairs_append_singleton, mem_names_put, ih, List.map_append, List.mem_append,
      List.map_singleton, List.mem_singleton, or_comm]

theorem nodup_names_ofPairs (pairs : List (String × α)) : (ofPairs pairs).names.Nodup := by
  induction pairs using List.reverseRecOn with
  | nil => exact List.nodup_nil
  | append_singleton pairs pair ih =>
    rw [ofPairs_append_singleton]
    exact nodup_names_put ih

/-- Of the pairs with a name the last one is kept. -/
theorem find?_ofPairs (pairs : List (String × α)) (name : String) :
    (ofPairs pairs).find? name = find? pairs.reverse name := by
  induction pairs using List.reverseRecOn with
  | nil => rfl
  | append_singleton pairs pair ih =>
    rw [ofPairs_append_singleton, List.reverse_append, List.reverse_singleton,
      List.singleton_append, find?]
    by_cases hname : pair.1 = name
    · rw [if_pos hname, ← hname, find?_put_self]
    · rw [if_neg hname, find?_put_of_ne _ _ (Ne.symm hname), ih]

theorem mem_of_mem_ofPairs {entry : String × α} (h : entry ∈ ofPairs pairs) : entry ∈ pairs := by
  have hfind := (find?_eq_some_iff (nodup_names_ofPairs pairs)).mpr h
  rw [find?_ofPairs] at hfind
  exact List.mem_reverse.mp (mem_of_find?_eq_some hfind)

theorem put_of_notMem (h : name ∉ entries.names) :
    entries.put name value = entries ++ [(name, value)] := by
  induction entries with
  | nil => rfl
  | cons first rest ih =>
    obtain ⟨key, old⟩ := first
    rw [names, List.map_cons, List.mem_cons, not_or] at h
    rw [put, if_neg (Ne.symm h.1), ih h.2, List.cons_append]

/-- Pairs with different names are entries as they are. -/
theorem ofPairs_eq_self (h : (pairs.map Prod.fst).Nodup) : ofPairs pairs = pairs := by
  induction pairs using List.reverseRecOn with
  | nil => rfl
  | append_singleton pairs pair ih =>
    rw [List.map_append, List.map_singleton, List.nodup_append] at h
    obtain ⟨hpairs, -, hdisjoint⟩ := h
    have hnew : pair.1 ∉ names pairs :=
      fun hmem ↦ hdisjoint _ hmem _ (List.mem_singleton_self _) rfl
    rw [ofPairs_append_singleton, ih hpairs, put_of_notMem hnew]

/-! ## Two names written -/

variable {other : String}

/-- Two new names both come at the end, whichever is written first. -/
theorem put_put_perm (h : entries.find? name = none) (h' : entries.find? other = none)
    (hne : name ≠ other) (value value' : α) :
    ((entries.put name value).put other value').Perm
      ((entries.put other value').put name value) := by
  have hput : entries.put name value = entries ++ [(name, value)] :=
    put_of_notMem (find?_eq_none_iff.mp h)
  have hput' : entries.put other value' = entries ++ [(other, value')] :=
    put_of_notMem (find?_eq_none_iff.mp h')
  have hlater : (entries.put name value).find? other = none :=
    (find?_put_of_ne _ _ (Ne.symm hne)).trans h'
  have hlater' : (entries.put other value').find? name = none :=
    (find?_put_of_ne _ _ hne).trans h
  rw [put_of_notMem (find?_eq_none_iff.mp hlater), put_of_notMem (find?_eq_none_iff.mp hlater'),
    hput, hput', List.append_assoc, List.append_assoc]
  exact (List.Perm.swap _ _ _).append_left entries

theorem find?_put_put_comm (entries : Entries α) (hne : name ≠ other) (value value' : α)
    (x : String) :
    ((entries.put name value).put other value').find? x =
      ((entries.put other value').put name value).find? x := by
  by_cases hother : x = other
  · rw [hother, find?_put_self, find?_put_of_ne _ _ (Ne.symm hne), find?_put_self]
  · rw [find?_put_of_ne _ _ hother]
    by_cases hname : x = name
    · rw [hname, find?_put_self, find?_put_self]
    · rw [find?_put_of_ne _ _ hname, find?_put_of_ne _ _ hname, find?_put_of_ne _ _ hother]

/-! ## Other values under the same names -/

theorem names_map {β : Type} (f : α → β) (entries : Entries α) :
    names (entries.map fun (name, value) ↦ (name, f value)) = entries.names := by
  rw [names, List.map_map]
  rfl

theorem find?_map {β : Type} (f : α → β) (entries : Entries α) (name : String) :
    find? (entries.map fun (name, value) ↦ (name, f value)) name =
      (entries.find? name).map f := by
  induction entries with
  | nil => rfl
  | cons entry rest ih =>
    obtain ⟨key, value⟩ := entry
    rw [List.map_cons, find?, find?]
    by_cases hkey : key = name
    · rw [if_pos hkey, if_pos hkey, Option.map_some]
    · rw [if_neg hkey, if_neg hkey, ih]

/-! ## Order -/

theorem sorted_perm (entries : Entries α) : entries.sorted.Perm entries :=
  List.mergeSort_perm _ _

theorem nodup_names_sorted (h : entries.names.Nodup) : entries.sorted.names.Nodup :=
  ((sorted_perm entries).map Prod.fst).nodup_iff.mpr h

/-- A look-up finds the same in any order, if no name comes twice. -/
theorem find?_sorted (h : entries.names.Nodup) (name : String) :
    entries.sorted.find? name = entries.find? name := by
  ext value
  rw [find?_eq_some_iff (nodup_names_sorted h), find?_eq_some_iff h,
    (sorted_perm entries).mem_iff]

theorem pairwise_names_sorted (h : entries.names.Nodup) :
    entries.sorted.names.Pairwise (· < ·) := by
  have hle : entries.sorted.Pairwise fun a b ↦ decide (a.1 ≤ b.1) := by
    refine List.pairwise_mergeSort (fun a b c hab hbc ↦ ?_) (fun a b ↦ ?_) entries
    · simp only [decide_eq_true_eq] at hab hbc ⊢
      exact String.le_trans hab hbc
    · simp only [Bool.or_eq_true, decide_eq_true_eq]
      exact String.le_total a.1 b.1
  have hne : entries.sorted.names.Nodup := nodup_names_sorted h
  rw [names, List.pairwise_map]
  refine hle.imp₂ (fun a b hab hne ↦ ?_) (List.pairwise_map.mp hne)
  exact Std.lt_of_le_of_ne (of_decide_eq_true hab) hne

/-- Entries in the order of their names are sorted already. -/
theorem sorted_eq_self (h : entries.names.Pairwise (· < ·)) : entries.sorted = entries := by
  apply List.mergeSort_of_pairwise
  refine (List.pairwise_map.mp h).imp fun hlt ↦ ?_
  exact decide_eq_true (Std.le_of_lt hlt)

end Playbook.Entries
