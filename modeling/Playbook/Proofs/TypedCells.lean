import Playbook.Proofs.WellKinded

/-!
# Cells that are read as a kind

A list of cells becomes a sequence in two passes: every cell is read by itself, and the values are
put into a sequence that checks their kinds. The check finds nothing. What a text is read as is of
the kind that it is read as, so a sequence is refused for a cell that cannot be read and for nothing
else.
-/

namespace Playbook.Value

open Outcome

variable {kind : Kind} {cells : List String} {value : Value}

/-- A text that cannot be read as a kind is reported with the name of that kind. -/
theorem parse_eq_error {text : String} {e : VariableError} (h : parse text kind = .error e) :
    e = .invalidCast text kind.name := by
  cases kind with
  | string | object => cases h
  | int | long | float | double | bool =>
    simp only [parse] at h
    split at h <;> cases h
    rfl
  | dateTime =>
    rw [parse, map_eq_error_iff, Moment.parse] at h
    split at h <;> cases h
    rfl
  | sequence =>
    -- The pieces of a text are strings, so they are of the kind that their sequence declares.
    have hfit : ∀ item ∈ (Value.cells text).map Value.string, item.fits .string := by
      intro item hitem
      obtain ⟨piece, -, rfl⟩ := List.mem_map.mp hitem
      rfl
    rw [parse, ofItems, checkItems_eq_ok_iff.mpr hfit] at h
    cases h
  | mapping =>
    simp only [parse] at h
    split at h
    next pairs hpairs =>
      have hfit : ∀ entry ∈ Entries.ofPairs pairs, entry.2.fits .string := by
        intro entry hentry
        obtain ⟨cell, -, hcell⟩ :=
          exists_mem_of_mapM_eq_some hpairs (Entries.mem_of_mem_ofPairs hentry)
        obtain ⟨_, -, rfl⟩ := Option.map_eq_some_iff.mp hcell
        rfl
      rw [ofEntries, checkEntries_eq_ok_iff.mpr hfit] at h
      cases h
    next =>
      cases h
      rfl

/-- Values that cells are read as pass the check of their sequence. -/
theorem ofItems_of_forall₂_parse {items : List Value}
    (h : List.Forall₂ (fun cell item ↦ parse cell kind = .ok item) cells items) :
    ofItems kind items = .ok (.sequence kind items) := by
  have hfit : ∀ item ∈ items, item.fits kind := by
    intro item hitem
    obtain ⟨cell, -, hcell⟩ := exists_mem_of_mapM_eq_ok (mapM_eq_ok_iff.mpr h) hitem
    exact fits_iff.mpr fun _ ↦ kind_of_parse hcell
  rw [ofItems, checkItems_eq_ok_iff.mpr hfit]
  rfl

theorem parseCells_eq_ok_iff :
    parseCells cells kind = .ok value ↔
      ∃ items, List.Forall₂ (fun cell item ↦ parse cell kind = .ok item) cells items ∧
        value = .sequence kind items := by
  rw [parseCells, bind_eq_ok_iff]
  refine exists_congr fun items ↦ ?_
  rw [mapM_eq_ok_iff]
  refine and_congr_right fun hitems ↦ ?_
  rw [ofItems_of_forall₂_parse hitems, Except.ok.injEq, eq_comm]

theorem parseCells_eq_error_iff {e : VariableError} :
    parseCells cells kind = .error e ↔
      ∃ before cell after, cells = before ++ cell :: after ∧
        (∀ earlier ∈ before, ∃ item, parse earlier kind = .ok item) ∧
        parse cell kind = .error e := by
  rw [parseCells, bind_eq_error_iff, ← mapM_eq_error_iff]
  refine or_iff_left ?_
  rintro ⟨items, hitems, herror⟩
  rw [ofItems_of_forall₂_parse (mapM_eq_ok_iff.mp hitems)] at herror
  cases herror

/-- **Cells are read one by one.** What a cell is read as is of the kind that it is read as. The
cells make a sequence exactly if each of them can be read, the sequence of what they are read as,
and otherwise the first of them that cannot be read is reported; a value of a wrong kind never
is. -/
theorem parseCells_reads_each (cells : List String) (kind : Kind) :
    (∀ cell item, parse cell kind = .ok item → item.kind = kind) ∧
      (∀ value, parseCells cells kind = .ok value ↔
        ∃ items, List.Forall₂ (fun cell item ↦ parse cell kind = .ok item) cells items ∧
          value = .sequence kind items) ∧
      (∀ e, parseCells cells kind = .error e ↔
        ∃ before cell after, cells = before ++ cell :: after ∧
          (∀ earlier ∈ before, ∃ item, parse earlier kind = .ok item) ∧
          parse cell kind = .error e) ∧
      ∀ collection position expected found,
        parseCells cells kind ≠ .error (.kindMismatch collection position expected found) := by
  refine ⟨fun _ _ ↦ kind_of_parse, fun _ ↦ parseCells_eq_ok_iff, fun _ ↦ parseCells_eq_error_iff,
    fun _ _ _ _ h ↦ ?_⟩
  obtain ⟨_, cell, _, -, -, hcell⟩ := parseCells_eq_error_iff.mp h
  cases parse_eq_error hcell

/-- Of three cells the second and the third are no whole numbers; the second is reported. -/
theorem parseCells_reads_each_second :
    parse " 7 " .int = .ok (.int 7) ∧ (Value.int 7).kind = .int ∧
      parseCells [" 7 ", "x", "y"] .int = .error (.invalidCast "x" "int") := by
  have hfirst : parse " 7 " .int = .ok (.int 7) := by rfl
  have hsecond : parse "x" .int = .error (.invalidCast "x" "int") := by rfl
  obtain ⟨hkind, -, herror, -⟩ := parseCells_reads_each [" 7 ", "x", "y"] .int
  refine ⟨hfirst, hkind _ _ hfirst, (herror _).mpr ⟨[" 7 "], "x", ["y"], rfl, ?_, hsecond⟩⟩
  exact List.forall_mem_singleton.mpr ⟨_, hfirst⟩

end Playbook.Value
