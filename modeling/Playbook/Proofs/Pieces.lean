import Playbook.Text.Search

/-!
# Cutting texts and joining them

A text that is cut at a character and joined with it again is the text, and pieces without that
character that are joined and cut again are the pieces. A text that is cut at several characters is
made up of its pieces and of the characters it was cut at, in their order. Cutting once, at the
first of the characters, is the same as finding what stands before it, and what follows a word at
the start is found if the text starts with the word.
-/

namespace Playbook.Text

variable {separator : Char} {text piece : List Char} {pieces : List (List Char)}

theorem joinWith_eq_intercalate (separator : Char) (pieces : List (List Char)) :
    joinWith separator pieces = [separator].intercalate pieces := by
  induction pieces with
  | nil => rfl
  | cons piece rest ih =>
    cases rest with
    | nil => simp [joinWith]
    | cons next rest => rw [joinWith, ih, List.intercalate_cons_cons, List.append_assoc,
        List.singleton_append]

/-- Pieces are joined to nothing if there are none, or a single one with nothing in it. -/
theorem joinWith_eq_nil_iff : joinWith separator pieces = [] ↔ pieces = [] ∨ pieces = [[]] := by
  cases pieces with
  | nil => simp [joinWith]
  | cons piece rest =>
    cases rest with
    | nil => simp [joinWith]
    | cons next rest => simp [joinWith]

theorem joinWith_splitOn (separator : Char) (text : List Char) :
    joinWith separator (text.splitOn separator) = text := by
  rw [joinWith_eq_intercalate, List.intercalate_splitOn]

theorem splitOn_joinWith (h : ∀ piece ∈ pieces, separator ∉ piece) (hne : pieces ≠ []) :
    (joinWith separator pieces).splitOn separator = pieces := by
  rw [joinWith_eq_intercalate, List.splitOn_intercalate separator h hne]

/-- What a text is cut at is in none of its pieces. -/
theorem of_mem_splitOnP {p : Char → Bool} (h : piece ∈ text.splitOnP p) : ∀ c ∈ piece, ¬p c := by
  induction text generalizing piece with
  | nil =>
    rw [List.splitOnP_nil, List.mem_singleton] at h
    rw [h]
    exact nofun
  | cons c text ih =>
    obtain ⟨first, rest, hpieces⟩ := List.exists_cons_of_ne_nil (List.splitOnP_ne_nil p text)
    rw [hpieces] at ih
    rw [List.splitOnP_cons_eq_if_modifyHead, hpieces] at h
    split at h
    · rcases List.mem_cons.mp h with rfl | h
      · exact nofun
      · exact ih h
    next hc =>
      rcases List.mem_cons.mp h with rfl | h
      · exact List.forall_mem_cons.mpr ⟨hc, ih List.mem_cons_self⟩
      · exact ih (List.mem_cons_of_mem _ h)

theorem separator_notMem_of_mem_splitOn (h : piece ∈ text.splitOn separator) :
    separator ∉ piece := by
  rw [List.splitOn_eq_splitOnP] at h
  exact fun hmem ↦ of_mem_splitOnP h separator hmem (beq_self_eq_true separator)

theorem length_splitOnP (p : Char → Bool) (text : List Char) :
    (text.splitOnP p).length = text.countP p + 1 := by
  induction text with
  | nil => rw [List.splitOnP_nil, List.countP_nil, List.length_singleton]
  | cons c text ih =>
    rw [List.splitOnP_cons_eq_if_modifyHead, List.countP_cons]
    split
    next => rw [List.length_cons, ih]
    next => rw [List.length_modifyHead, ih]

/-- The pieces one after the other, with a character between any two of them. -/
def interleave (pieces : List (List Char)) (between : List Char) : List Char :=
  (List.zipWith (· ++ ·) pieces (between.map (fun c ↦ [c]) ++ [[]])).flatten

/-- The pieces of a text and the characters it was cut at make up the text. -/
theorem interleave_splitOnP (p : Char → Bool) (text : List Char) :
    interleave (text.splitOnP p) (text.filter p) = text :=
  List.splitOnP_spec text

theorem splitAny_singleton (separator : Char) (text : String) :
    splitAny [separator] text = (text.toList.splitOn separator).map String.ofList := by
  have hpredicate : (fun c ↦ [separator].contains c) = (· == separator) := by
    funext c
    rw [List.contains_cons, List.contains_nil, Bool.or_false]
  rw [splitAny, hpredicate, List.splitOn_eq_splitOnP]

theorem cutAt?_eq_some_iff {before after : List Char} :
    cutAt? separator text = some (before, after) ↔
      separator ∉ before ∧ text = before ++ separator :: after := by
  induction text generalizing before with
  | nil => simp [cutAt?]
  | cons c text ih =>
    rw [cutAt?]
    by_cases hc : c = separator
    · rw [if_pos hc, Option.some_inj, Prod.mk.injEq]
      constructor
      · rintro ⟨rfl, rfl⟩
        exact ⟨List.not_mem_nil, by rw [hc, List.nil_append]⟩
      · rintro ⟨hnotMem, heq⟩
        cases before with
        | nil => exact ⟨rfl, (List.cons.inj heq).2⟩
        | cons first before =>
          exact absurd ((List.cons.inj heq).1 ▸ hc ▸ List.mem_cons_self) hnotMem
    · rw [if_neg hc, Option.map_eq_some_iff]
      constructor
      · rintro ⟨⟨head, tail⟩, hcut, heq⟩
        cases heq
        obtain ⟨hnotMem, rfl⟩ := ih.mp hcut
        exact ⟨List.not_mem_cons_of_ne_of_not_mem (Ne.symm hc) hnotMem, rfl⟩
      · rintro ⟨hnotMem, heq⟩
        cases before with
        | nil => exact absurd (List.cons.inj heq).1 hc
        | cons first before =>
          obtain ⟨rfl, rfl⟩ := List.cons.inj heq
          exact ⟨(before, after), ih.mpr ⟨fun h ↦ hnotMem (List.mem_cons_of_mem _ h), rfl⟩, rfl⟩

theorem after?_append (head text : List Char) : after? head (head ++ text) = some text := by
  induction head with
  | nil => rfl
  | cons c head ih => rw [List.cons_append, after?, if_pos rfl, ih]

/-- A text does not start with two words of which neither is the start of the other. -/
theorem after?_append_eq_none {head other : List Char} (hhead : ¬head <+: other)
    (hother : ¬other <+: head) (text : List Char) : after? head (other ++ text) = none := by
  induction head generalizing other with
  | nil => exact absurd (List.nil_prefix) hhead
  | cons c head ih =>
    cases other with
    | nil => exact absurd (List.nil_prefix) hother
    | cons c' other =>
      rw [List.cons_append, after?]
      split
      next heq =>
        rw [heq, List.prefix_cons_inj] at hhead hother
        exact ih hhead hother
      · rfl

end Playbook.Text
