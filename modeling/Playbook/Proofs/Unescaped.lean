import Playbook.Proofs.Rereading

/-!
# Collections without escapes

A collection of texts is written with separators between what it holds and with no escapes, so that
its text may mean another collection. A sequence is read back as itself unless a text in it has a
comma, which ends it too soon, or the sequence is one empty text, which is written as no texts are.
A mapping is read back as itself unless a comma ends a key or a text too soon, or a colon a key.

That these conditions are needed has one reason: no text at all is read as a collection with a
separator inside, whatever it was written for.
-/

namespace Playbook.Value

open Outcome

/-- The sequence of texts. -/
def ofTexts (texts : List String) : Value := .sequence .string (texts.map .string)

/-- The mapping of keys to texts. -/
def ofTextEntries (entries : Entries String) : Value :=
  .mapping .string (entries.map fun (key, text) ↦ (key, .string text))

/-! ## Sequences -/

theorem parse_sequence (text : String) : parse text .sequence = .ok (ofTexts (cells text)) := by
  have hfits : checkItems .string 0 ((cells text).map .string) = .ok () := by
    refine checkItems_eq_ok_iff.mpr fun item hitem ↦ ?_
    obtain ⟨cell, -, rfl⟩ := List.mem_map.mp hitem
    rfl
  exact then_eq_ok_iff.mpr ⟨hfits, rfl⟩

theorem ofTexts_injective : Function.Injective ofTexts := by
  intro texts texts' h
  have hitems : texts.map Value.string = texts'.map Value.string := by
    rw [ofTexts, ofTexts, Value.sequence.injEq] at h
    exact h.2
  exact List.map_injective_iff.mpr (fun _ _ heq ↦ Value.string.inj heq) hitems

theorem render_ofTexts (texts : List String) :
    (ofTexts texts).render = String.ofList (Text.joinWith ',' (texts.map String.toList)) := by
  rw [render, ofTexts, text, itemTexts_map_string]

theorem cells_render_ofTexts {texts : List String} (hcomma : ∀ text ∈ texts, ',' ∉ text.toList)
    (hne : texts ≠ [""]) : cells (ofTexts texts).render = texts := by
  by_cases hempty : texts = []
  · rw [hempty]
    rfl
  have hpieces : ∀ piece ∈ texts.map String.toList, ',' ∉ piece := by
    intro piece hpiece
    obtain ⟨text, htext, rfl⟩ := List.mem_map.mp hpiece
    exact hcomma text htext
  have hjoined : Text.joinWith ',' (texts.map String.toList) ≠ [] := by
    intro hnil
    rcases Text.joinWith_eq_nil_iff.mp hnil with hnone | hone
    · exact hempty (List.map_eq_nil_iff.mp hnone)
    · obtain ⟨text, rfl, htext⟩ := List.map_eq_singleton_iff.mp hone
      exact hne (by rw [String.toList_eq_nil_iff.mp htext])
  rw [render_ofTexts, cells_ofList hpieces hjoined, List.map_map]
  simp

/-- A sequence of texts is read back if and only if no comma is in a text and the sequence is not
the one empty text. -/
theorem parse_render_ofTexts_iff (texts : List String) :
    parse (ofTexts texts).render .sequence = .ok (ofTexts texts) ↔
      (∀ text ∈ texts, ',' ∉ text.toList) ∧ texts ≠ [""] := by
  rw [parse_sequence, Except.ok.injEq, ofTexts_injective.eq_iff]
  constructor
  · intro hcells
    constructor
    · intro text htext
      rw [← hcells] at htext
      exact comma_notMem_of_mem_cells htext
    · rintro rfl
      cases hcells
  · intro h
    exact cells_render_ofTexts h.1 h.2

/-! ## Mappings -/

theorem isCellEntry_string_iff {key text : String} :
    IsCellEntry (key, .string text) ↔
      ',' ∉ key.toList ∧ ':' ∉ key.toList ∧ ',' ∉ text.toList := by
  have hcomma : ',' ∉ key.toList ++ ':' :: text.toList ↔
      ',' ∉ key.toList ∧ ',' ∉ text.toList := by
    have hne : ',' ≠ ':' := by decide
    rw [List.mem_append, List.mem_cons, not_or, not_or, and_iff_right hne]
  constructor
  · rintro ⟨piece, hpiece, hcolon, htext⟩
    cases hpiece
    exact ⟨(hcomma.mp htext).1, hcolon, (hcomma.mp htext).2⟩
  · intro h
    exact ⟨text, rfl, h.2.1, hcomma.mpr ⟨h.1, h.2.2⟩⟩

theorem forall_isCellEntry_iff {entries : Entries String} :
    (∀ entry ∈ entries.map fun (key, text) ↦ (key, Value.string text), IsCellEntry entry) ↔
      ∀ entry ∈ entries,
        ',' ∉ entry.1.toList ∧ ':' ∉ entry.1.toList ∧ ',' ∉ entry.2.toList := by
  rw [List.forall_mem_map]
  exact forall₂_congr fun _ _ ↦ isCellEntry_string_iff

/-- A mapping of keys to texts is read back if and only if no comma is in a key or a text, and no
colon in a key. -/
theorem parse_render_ofTextEntries_iff {entries : Entries String} (hkeys : entries.names.Nodup) :
    parse (ofTextEntries entries).render .mapping = .ok (ofTextEntries entries) ↔
      ∀ entry ∈ entries,
        ',' ∉ entry.1.toList ∧ ':' ∉ entry.1.toList ∧ ',' ∉ entry.2.toList := by
  rw [← forall_isCellEntry_iff]
  constructor
  · intro hread
    obtain ⟨read, hvalue, -, hcell⟩ := exists_entries_of_parse_mapping hread
    rw [ofTextEntries, Value.mapping.injEq] at hvalue
    rw [hvalue.2]
    exact hcell
  · intro hcell
    refine parse_render_of_isCellEntry ?_ hcell
    rw [Entries.names, List.map_map]
    exact hkeys

/-- **Texts of collections.** A collection of texts is read back from its text exactly when no
separator inside it can be taken for one between its members, and it is not the sequence of one
empty text. -/
theorem parse_render_collection_iff :
    (∀ texts : List String,
      parse (ofTexts texts).render .sequence = .ok (ofTexts texts) ↔
        (∀ text ∈ texts, ',' ∉ text.toList) ∧ texts ≠ [""]) ∧
    ∀ entries : Entries String, entries.names.Nodup →
      (parse (ofTextEntries entries).render .mapping = .ok (ofTextEntries entries) ↔
        ∀ entry ∈ entries,
          ',' ∉ entry.1.toList ∧ ':' ∉ entry.1.toList ∧ ',' ∉ entry.2.toList) :=
  ⟨parse_render_ofTexts_iff, fun _ hkeys ↦ parse_render_ofTextEntries_iff hkeys⟩

/-- A key may be empty and a text may have a colon, but a colon in a key goes to the text. -/
theorem parse_render_collection_iff_colon :
    let kept : Entries String := [("", ":"), ("b", "")]
    let cut : Entries String := [("a:b", "")]
    kept.names.Nodup ∧ cut.names.Nodup ∧
      parse (ofTextEntries kept).render .mapping = .ok (ofTextEntries kept) ∧
      parse (ofTextEntries cut).render .mapping ≠ .ok (ofTextEntries cut) := by
  intro kept cut
  have hkept : kept.names.Nodup := by decide
  have hcut : cut.names.Nodup := by decide
  refine ⟨hkept, hcut, (parse_render_collection_iff.2 kept hkept).mpr (by decide), ?_⟩
  rw [ne_eq, parse_render_collection_iff.2 cut hcut]
  decide

end Playbook.Value
