import Playbook.Placeholder
import Mathlib.Data.List.Basic

/-!
# The segments of a text

Scanning cuts a text into segments and loses nothing: the texts of the segments, one after the
other, are the text again. The placeholders among them are exactly well-formed names in braces, and
such a name in braces, taken alone, is scanned as that one placeholder.

The scanner passes a placeholder by counting characters (`scanFrom`), so the facts below are proved
for every count and read off at zero.
-/

namespace Playbook

namespace Placeholder

/-- A text starts with a placeholder exactly when it starts with a name in braces. -/
theorem nameAt?_eq_some_iff {text name : List Char} :
    nameAt? text = some name ↔ isName name ∧ ∃ rest, text = '{' :: (name ++ '}' :: rest) := by
  constructor
  · intro h
    unfold nameAt? at h
    split at h
    next cs =>
      simp only [Option.ite_none_right_eq_some, Option.some.injEq] at h
      obtain ⟨⟨hname, hclose⟩, rfl⟩ := h
      refine ⟨hname, (cs.dropWhile isNameChar).tail, ?_⟩
      have hdrop : cs.drop (cs.takeWhile isNameChar).length = cs.dropWhile isNameChar := by
        nth_rewrite 2 [← List.takeWhile_append_dropWhile (p := isNameChar) (l := cs)]
        rw [List.drop_left]
      rw [hdrop] at hclose
      rw [List.cons_inj_right, ← List.eq_cons_of_mem_head? (Option.mem_def.mpr hclose),
        List.takeWhile_append_dropWhile]
    next => cases h
  · rintro ⟨hname, rest, rfl⟩
    have hall : name.all isNameChar := by
      rw [isName, Bool.and_eq_true, Bool.and_eq_true] at hname
      exact hname.1.1
    -- A closing brace is no character of a name, so the name ends where it should.
    have htake : (name ++ '}' :: rest).takeWhile isNameChar = name := by
      rw [List.takeWhile_append_of_pos (List.all_eq_true.mp hall),
        List.takeWhile_cons_of_neg (by decide), List.append_nil]
    simp only [nameAt?, htake, List.drop_left, List.head?_cons, hname, and_self, if_true]

end Placeholder

namespace Segment

open Placeholder

/-! ## Nothing is lost -/

theorem flatMap_text_scanFrom (skip : Nat) (cs : List Char) :
    (scanFrom skip cs).flatMap text = cs.drop skip := by
  induction cs generalizing skip with
  | nil => simp [scanFrom]
  | cons c cs ih =>
    cases skip with
    | succ skip => rw [scanFrom, ih, List.drop_succ_cons]
    | zero =>
      rw [scanFrom, List.drop_zero]
      cases h : nameAt? (c :: cs) with
      | none => simp [ih, text]
      | some name =>
        obtain ⟨-, rest, hrest⟩ := nameAt?_eq_some_iff.mp h
        obtain ⟨rfl, rfl⟩ := List.cons_eq_cons.mp hrest
        simp [ih, text, written]

/-- The texts of the segments of a text, one after the other, are the text. -/
theorem flatMap_text_scan (cs : List Char) : (scan cs).flatMap text = cs := by
  rw [scan, flatMap_text_scanFrom, List.drop_zero]

/-! ## What is a placeholder -/

theorem isName_of_mem_scanFrom {skip : Nat} {cs : List Char} {name : String}
    (h : .placeholder name ∈ scanFrom skip cs) : isName name.toList := by
  induction cs generalizing skip with
  | nil => simp [scanFrom] at h
  | cons c cs ih =>
    cases skip with
    | succ skip => exact ih h
    | zero =>
      rw [scanFrom] at h
      cases hat : nameAt? (c :: cs) with
      | none => exact ih (by simpa [hat] using h)
      | some found =>
        rw [hat, List.mem_cons] at h
        rcases h with h | h
        · rw [Segment.placeholder.injEq] at h
          rw [h, String.toList_ofList]
          exact (nameAt?_eq_some_iff.mp hat).1
        · exact ih h

/-- A name in braces is scanned as one placeholder. -/
theorem scan_written {name : String} (h : isName name.toList) :
    scan (written name) = [.placeholder name] := by
  have hat : nameAt? (written name) = some name.toList :=
    nameAt?_eq_some_iff.mpr ⟨h, [], rfl⟩
  -- All that is left is counted away, so its segments have no text; but every segment has one.
  have hrest : scanFrom (name.toList.length + 1) (name.toList ++ ['}']) = [] := by
    have hpassed := flatMap_text_scanFrom (name.toList.length + 1) (name.toList ++ ['}'])
    rw [List.drop_eq_nil_of_le (by simp), List.flatMap_eq_nil_iff] at hpassed
    refine List.eq_nil_iff_forall_not_mem.mpr fun segment hmem ↦ ?_
    cases segment <;> simpa [text, written] using hpassed _ hmem
  rw [scan, written, scanFrom, ← written, hat]
  simp [hrest, String.ofList_toList]

end Segment

namespace Placeholder

open Segment

theorem mem_names {name : String} {text : List Char} :
    name ∈ names text ↔ .placeholder name ∈ scan text := by
  rw [names, List.mem_filterMap]
  constructor
  · rintro ⟨segment, hmem, hname⟩
    cases segment with
    | literal c => cases hname
    | placeholder other => cases hname; exact hmem
  · exact fun h ↦ ⟨_, h, rfl⟩

theorem isName_of_mem_names {name : String} {text : List Char} (h : name ∈ names text) :
    isName name.toList := isName_of_mem_scanFrom (mem_names.mp h)

theorem occursIn_iff {text : List Char} : occursIn text ↔ names text ≠ [] := by
  rw [occursIn, first?, List.isSome_head?]

theorem first?_eq_none_iff {text : List Char} : first? text = none ↔ names text = [] := by
  rw [first?, List.head?_eq_none_iff]

/-- A text without opening braces has no placeholder. -/
theorem names_eq_nil_of_notMem {text : List Char} (h : '{' ∉ text) : names text = [] := by
  refine List.eq_nil_iff_forall_not_mem.mpr fun name hname ↦ h ?_
  rw [← flatMap_text_scan text]
  exact List.mem_flatMap.mpr ⟨_, mem_names.mp hname, List.mem_cons_self⟩

end Placeholder
end Playbook
