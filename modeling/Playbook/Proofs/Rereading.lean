import Playbook.Coercion
import Playbook.Proofs.Decimals
import Playbook.Proofs.Pieces
import Playbook.Proofs.WellKinded

/-!
# Texts of values are read back

What a text is read as is written as a text that is read as the same again. The new text need not be
the old one: blanks, signs and leading zeros go, and of entries with the same key only one is left.

Sequences and mappings are written without any escape, so a comma in an item or a colon in a key
would be read as the end of it. There is none in what a text is read as: pieces between commas have
no comma, and what stands before the first colon has no colon.
-/

namespace Playbook.Value

open Outcome

variable {text : String} {value : Value}

/-! ## Sequences -/

theorem cells_ofList {pieces : List (List Char)} (h : ∀ piece ∈ pieces, ',' ∉ piece)
    (hne : Text.joinWith ',' pieces ≠ []) :
    cells (String.ofList (Text.joinWith ',' pieces)) = pieces.map String.ofList := by
  have hpieces : pieces ≠ [] := by
    rintro rfl
    exact hne rfl
  have htext : String.ofList (Text.joinWith ',' pieces) ≠ "" := by
    intro heq
    have hnil := congrArg String.toList heq
    rw [String.toList_ofList] at hnil
    exact hne hnil
  rw [cells, if_neg htext, Text.splitAny_singleton, String.toList_ofList,
    Text.splitOn_joinWith h hpieces]

theorem itemTexts_map_string (cells : List String) :
    itemTexts (cells.map .string) = cells.map String.toList := by
  induction cells with
  | nil => rfl
  | cons cell rest ih => rw [List.map_cons, itemTexts, ih, text, List.map_cons]

/-- The pieces of a text with commas between them are the text. -/
theorem joinWith_cells (text : String) :
    Text.joinWith ',' ((cells text).map String.toList) = text.toList := by
  rw [cells]
  split
  next hempty =>
    rw [hempty]
    rfl
  next =>
    have hid : String.toList ∘ String.ofList = id := by
      funext cs
      exact String.toList_ofList
    rw [Text.splitAny_singleton, List.map_map, hid, List.map_id, Text.joinWith_splitOn]

/-- A sequence that is read is written as the text it is read from. -/
theorem render_of_parse_sequence (h : parse text .sequence = .ok value) : value.render = text := by
  obtain ⟨-, hvalue⟩ := then_eq_ok_iff.mp h
  cases hvalue
  rw [render, Value.text, itemTexts_map_string, joinWith_cells, String.ofList_toList]

/-! ## Mappings -/

/-- The entry of a cell: neither the key nor the text has a comma, and the key has no colon. -/
def IsCellEntry (entry : String × Value) : Prop :=
  ∃ piece : String, entry.2 = .string piece ∧
    ':' ∉ entry.1.toList ∧ ',' ∉ entry.1.toList ++ ':' :: piece.toList

/-- What is written for the entry of a cell. -/
def entryText (entry : String × Value) : List Char := entry.1.toList ++ ':' :: entry.2.text

theorem entryTexts_eq_map (entries : Entries Value) :
    entryTexts entries = entries.map entryText := by
  induction entries with
  | nil => rfl
  | cons entry rest ih => rw [entryTexts, ih, List.map_cons, entryText]

theorem comma_notMem_of_mem_cells {cell : String} (h : cell ∈ cells text) : ',' ∉ cell.toList := by
  rw [cells] at h
  split at h
  · cases h
  · rw [Text.splitAny_singleton] at h
    obtain ⟨piece, hpiece, rfl⟩ := List.mem_map.mp h
    rw [String.toList_ofList]
    exact Text.separator_notMem_of_mem_splitOn hpiece

theorem isCellEntry_of_entry? {cell : String} {entry : String × Value}
    (hcell : ',' ∉ cell.toList) (h : entry? cell = some entry) : IsCellEntry entry := by
  obtain ⟨⟨key, piece⟩, hcut, rfl⟩ := Option.map_eq_some_iff.mp h
  obtain ⟨hcolon, htext⟩ := Text.cutAt?_eq_some_iff.mp hcut
  refine ⟨String.ofList piece, rfl, ?_, ?_⟩
  · rw [String.toList_ofList]
    exact hcolon
  · rw [String.toList_ofList, String.toList_ofList, ← htext]
    exact hcell

theorem entry?_entryText {entry : String × Value} (h : IsCellEntry entry) :
    entry? (String.ofList (entryText entry)) = some entry := by
  obtain ⟨key, value⟩ := entry
  obtain ⟨piece, rfl, hcolon, -⟩ := h
  have hcut : Text.cutAt? ':' (key.toList ++ ':' :: piece.toList) =
      some (key.toList, piece.toList) := Text.cutAt?_eq_some_iff.mpr ⟨hcolon, rfl⟩
  unfold entry?
  rw [String.toList_ofList, entryText, Value.text, hcut, Option.map_some]
  dsimp only
  rw [String.ofList_toList, String.ofList_toList]

theorem cells_of_entryTexts {entries : Entries Value} (h : ∀ entry ∈ entries, IsCellEntry entry) :
    cells (String.ofList (Text.joinWith ',' (entryTexts entries))) =
      entries.map (String.ofList ∘ entryText) := by
  rw [entryTexts_eq_map]
  cases entries with
  | nil => rfl
  | cons first rest =>
    rw [← List.map_map]
    apply cells_ofList
    · intro piece hpiece
      obtain ⟨entry, hentry, rfl⟩ := List.mem_map.mp hpiece
      obtain ⟨value, hvalue, -, hcomma⟩ := h entry hentry
      rw [entryText, hvalue, Value.text]
      exact hcomma
    · -- There is a colon in every entry, so entries are never written as the empty text.
      rw [List.map_cons, entryText]
      cases rest with
      | nil => simp [Text.joinWith]
      | cons next rest => simp [Text.joinWith]

/-- Entries without separators inside are read back from the text they are written as, if they have
a key each. -/
theorem parse_render_of_isCellEntry {entries : Entries Value} (hkeys : entries.names.Nodup)
    (h : ∀ entry ∈ entries, IsCellEntry entry) :
    parse (render (.mapping .string entries)) .mapping = .ok (.mapping .string entries) := by
  have hread : (cells (render (.mapping .string entries))).mapM entry? = some entries := by
    rw [render, Value.text, cells_of_entryTexts h]
    exact mapM_map_eq_some fun entry hentry ↦ entry?_entryText (h entry hentry)
  have hfits : checkEntries .string entries = .ok () := by
    refine checkEntries_eq_ok_iff.mpr fun entry hentry ↦ ?_
    obtain ⟨piece, hvalue, -⟩ := h entry hentry
    rw [hvalue]
    rfl
  simp only [parse, hread, Entries.ofPairs_eq_self hkeys]
  exact then_eq_ok_iff.mpr ⟨hfits, rfl⟩

/-- What is kept of the entries of a text was read from a cell, so no comma or colon in it can
mislead, and of entries with one key the last is kept. -/
theorem exists_entries_of_parse_mapping (h : parse text .mapping = .ok value) :
    ∃ entries : Entries Value, value = .mapping .string entries ∧ entries.names.Nodup ∧
      ∀ entry ∈ entries, IsCellEntry entry := by
  simp only [parse] at h
  split at h
  next pairs hpairs =>
    obtain ⟨-, hvalue⟩ := then_eq_ok_iff.mp h
    cases hvalue
    refine ⟨_, rfl, Entries.nodup_names_ofPairs pairs, fun entry hentry ↦ ?_⟩
    obtain ⟨cell, hcell, hread⟩ :=
      exists_mem_of_mapM_eq_some hpairs (Entries.mem_of_mem_ofPairs hentry)
    exact isCellEntry_of_entry? (comma_notMem_of_mem_cells hcell) hread
  · cases h

/-- The entries that a text is read as are read again from the text they are written as. -/
theorem parse_render_mapping (h : parse text .mapping = .ok value) :
    parse value.render .mapping = .ok value := by
  obtain ⟨entries, rfl, hkeys, hentries⟩ := exists_entries_of_parse_mapping h
  exact parse_render_of_isCellEntry hkeys hentries

/-! ## Numbers and truth values -/

/-- A text is read as a value made of what is found in it, if anything is. -/
theorem cast_eq_ok_iff {α : Type} {found : Option α} {make : α → Value} {e : VariableError} :
    (match found.map make with
      | some value => Except.ok value
      | none => .error e) = .ok value ↔ ∃ a, found = some a ∧ make a = value := by
  cases found with
  | none => simp
  | some a => simp

theorem parse_render_int (h : parse text .int = .ok value) :
    parse value.render .int = .ok value := by
  obtain ⟨n, -, rfl⟩ := cast_eq_ok_iff.mp h
  apply cast_eq_ok_iff.mpr
  rw [render, Value.text, String.toList_ofList, Text.trim_decimal]
  exact ⟨n, Number.int32?_decimal n, rfl⟩

theorem parse_render_long (h : parse text .long = .ok value) :
    parse value.render .long = .ok value := by
  obtain ⟨n, -, rfl⟩ := cast_eq_ok_iff.mp h
  apply cast_eq_ok_iff.mpr
  rw [render, Value.text, String.toList_ofList, Text.trim_decimal]
  exact ⟨n, Number.int64?_decimal n, rfl⟩

theorem parse_render_bool (h : parse text .bool = .ok value) :
    parse value.render .bool = .ok value := by
  obtain ⟨b, -, rfl⟩ := cast_eq_ok_iff.mp h
  cases b with
  | false => rfl
  | true => rfl

/-! ## Every kind -/

/-- The kinds whose texts are read back; numbers with a point and dates are not among them. -/
def rereadKinds : List Kind := [.string, .object, .int, .long, .bool, .sequence, .mapping]

/-- **Reading is stable.** A value that a text is read as is read again from the text that is
written for it. -/
theorem parse_render_of_parse_eq_ok {kind : Kind} (hkind : kind ∈ rereadKinds)
    (h : parse text kind = .ok value) : parse value.render kind = .ok value := by
  cases kind with
  | string =>
    cases h
    rw [render, Value.text, String.ofList_toList, parse]
  | object =>
    cases h
    rw [render, Value.text, String.ofList_toList, parse]
  | int => exact parse_render_int h
  | long => exact parse_render_long h
  | bool => exact parse_render_bool h
  | sequence =>
    rw [render_of_parse_sequence h]
    exact h
  | mapping => exact parse_render_mapping h
  | float => exact absurd hkind (by decide)
  | double => exact absurd hkind (by decide)
  | dateTime => exact absurd hkind (by decide)

/-- Of the entries with one key only the last is left, and a second colon belongs to the text. -/
theorem parse_render_mapping_repeated_key :
    parse "a:1,b:2:3,a:" .mapping =
        .ok (.mapping .string [("a", .string ""), ("b", .string "2:3")]) ∧
      parse "a:,b:2:3" .mapping =
        .ok (.mapping .string [("a", .string ""), ("b", .string "2:3")]) :=
  have hread : parse "a:1,b:2:3,a:" .mapping =
      .ok (.mapping .string [("a", .string ""), ("b", .string "2:3")]) := rfl
  ⟨hread, parse_render_of_parse_eq_ok (by decide) hread⟩

end Playbook.Value
