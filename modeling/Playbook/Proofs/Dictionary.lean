import Playbook.Proofs.Growth
import Playbook.Proofs.WellKinded

/-!
# Dictionaries

A table with a header and one row is stored as a dictionary: the cells of the header are its keys,
those of the row its values, and all of them are resolved first. Keys that differ as they are
written may coincide once they are resolved, and cells are resolved key by key, each followed by its
value, so that a key that cannot be resolved hides a later one that comes up twice.

What is looked up in the dictionary afterwards is resolved again, among variables that the
dictionary now is one of. A key without placeholders is the same before and after. The dictionary
answers it with the cell below.
-/

namespace Playbook

open Outcome

variable {σ : Type}

/-! ## Resolved tables -/

/-- What a cell says once it is resolved. -/
def Scope.Says (scope : Scope) (cell text : String) : Prop := scope.resolveOrLiteral cell = .ok text

/-- What the two cells of a pair say. -/
def Scope.SaysPair (scope : Scope) (cells texts : String × String) : Prop :=
  scope.Says cells.1 texts.1 ∧ scope.Says cells.2 texts.2

theorem Scope.Says.unique {scope : Scope} {cell text text' : String} (h : scope.Says cell text)
    (h' : scope.Says cell text') : text = text' := Except.ok.inj (h.symm.trans h')

namespace Table

variable {scope : Scope} {table : Table} {done entries : Entries String}
  {pairs : List (String × String)}

/-- What a table with keys and values is resolved to: a single row stands below the header, keys and
values are what the cells say in the order of the cells, and no key comes twice. -/
structure Resolves (table : Table) (scope : Scope) (row : List String) (entries : Entries String) :
    Prop where
  rows_eq : table.rows = [row]
  keys : List.Forall₂ scope.Says table.header entries.names
  values : List.Forall₂ scope.Says row (entries.map Prod.snd)
  nodup : entries.names.Nodup

/-- Whether a key comes up that is there already, where all cells before it can be resolved. -/
def Repeats (scope : Scope) (done : Entries String) (pairs : List (String × String)) : Prop :=
  ∃ before key value after resolved, pairs = before ++ (key, value) :: after ∧
    List.Forall₂ scope.SaysPair before resolved ∧
    ∃ name ∈ (done ++ resolved).names, scope.Says key name

/-- Whether a table is none of keys and values: it has not a single row, or not one as long as the
header, or two of its keys say the same. -/
def IsMalformed (table : Table) (scope : Scope) : Prop :=
  table.rows.length ≠ 1 ∨
    ∃ row ∈ table.rows, row.length ≠ table.header.length ∨ Repeats scope [] (table.header.zip row)

/-! ### Pair by pair -/

theorem nodup_names_concat_iff {key value : String} :
    (done ++ [(key, value)]).names.Nodup ↔ done.names.Nodup ∧ key ∉ done.names := by
  rw [Entries.names, List.map_append, ← Entries.names, List.map_singleton, ← List.concat_eq_append,
    List.nodup_concat, and_comm]

theorem has_iff {key : String} : done.has key ↔ key ∈ done.names := by
  rw [Entries.has, Option.isSome_iff_ne_none, Ne, Entries.find?_eq_none_iff, not_not]

/-- A pair that comes out has a key that is not there yet. -/
theorem pairsFrom_cons_eq_ok_iff {key value : String} {rest : List (String × String)} :
    pairsFrom scope done ((key, value) :: rest) = .ok entries ↔
      ∃ name text, scope.SaysPair (key, value) (name, text) ∧ name ∉ done.names ∧
        pairsFrom scope (done ++ [(name, text)]) rest = .ok entries := by
  rw [pairsFrom, bind_eq_ok_iff]
  constructor
  · rintro ⟨name, hkey, hrest⟩
    split at hrest
    · cases hrest
    next hnew =>
      obtain ⟨text, hvalue, hmore⟩ := bind_eq_ok_iff.mp hrest
      exact ⟨name, text, ⟨StepError.lift_eq_ok_iff.mp hkey, StepError.lift_eq_ok_iff.mp hvalue⟩,
        mt has_iff.mpr hnew, hmore⟩
  · rintro ⟨name, text, ⟨hkey, hvalue⟩, hnew, hmore⟩
    refine ⟨name, StepError.lift_eq_ok_iff.mpr hkey, ?_⟩
    rw [if_neg (mt has_iff.mp hnew)]
    exact bind_eq_ok_iff.mpr ⟨text, StepError.lift_eq_ok_iff.mpr hvalue, hmore⟩

/-- A table is at fault for its keys alone: the key of a pair is there already, or it and its value
come out and a later pair is at fault. -/
theorem pairsFrom_cons_eq_error_iff {key value : String} {rest : List (String × String)}
    {problem : TableProblem} :
    pairsFrom scope done ((key, value) :: rest) = .error (.table problem) ↔
      ∃ name, scope.Says key name ∧
        (name ∈ done.names ∧ problem = .duplicateKey name ∨
          name ∉ done.names ∧ ∃ text, scope.Says value text ∧
            pairsFrom scope (done ++ [(name, text)]) rest = .error (.table problem)) := by
  have hlift : ∀ {result : Except VariableError String},
      StepError.lift result ≠ .error (.table problem) := by
    intro result h
    obtain ⟨cause, -, hcause⟩ := StepError.lift_eq_error_iff.mp h
    cases hcause
  rw [pairsFrom, bind_eq_error_iff, or_iff_right hlift]
  refine exists_congr fun name ↦ and_congr StepError.lift_eq_ok_iff ?_
  by_cases hhas : done.has name
  · have hmem := has_iff.mp hhas
    simp [hhas, hmem, eq_comm]
  · have hnew := mt has_iff.mpr hhas
    rw [if_neg hhas, bind_eq_error_iff, or_iff_right hlift]
    simp [hnew, StepError.lift_eq_ok_iff, Scope.Says]

/-! ### All pairs -/

theorem pairsFrom_eq_ok_iff (hdone : done.names.Nodup) :
    pairsFrom scope done pairs = .ok entries ↔ ∃ resolved,
      List.Forall₂ scope.SaysPair pairs resolved ∧ (done ++ resolved).names.Nodup ∧
        entries = done ++ resolved := by
  induction pairs generalizing done with
  | nil =>
    simp only [List.forall₂_nil_left_iff, exists_eq_left, List.append_nil, hdone, true_and,
      pairsFrom, Except.ok.injEq, eq_comm]
  | cons cells rest ih =>
    obtain ⟨key, value⟩ := cells
    rw [pairsFrom_cons_eq_ok_iff]
    constructor
    · rintro ⟨name, text, hpair, hnew, hrest⟩
      obtain ⟨resolved, hresolved, hnodup, rfl⟩ :=
        (ih (nodup_names_concat_iff.mpr ⟨hdone, hnew⟩)).mp hrest
      rw [List.append_assoc, List.singleton_append] at hnodup ⊢
      exact ⟨_, .cons hpair hresolved, hnodup, rfl⟩
    · rintro ⟨resolved, hresolved, hnodup, rfl⟩
      obtain ⟨⟨name, text⟩, resolved, hpair, hrest, rfl⟩ :=
        List.forall₂_cons_left_iff.mp hresolved
      rw [List.append_cons] at hnodup
      have hmore : (done ++ [(name, text)]).names.Nodup := by
        rw [Entries.names, List.map_append] at hnodup
        exact hnodup.of_append_left
      exact ⟨name, text, hpair, (nodup_names_concat_iff.mp hmore).2,
        (ih hmore).mpr ⟨resolved, hrest, hnodup, List.append_cons _ _ _⟩⟩

/-- A key that comes up twice is what is at fault, and nothing else is. -/
theorem exists_pairsFrom_eq_error_iff :
    (∃ problem, pairsFrom scope done pairs = .error (.table problem)) ↔
      Repeats scope done pairs := by
  induction pairs generalizing done with
  | nil =>
    refine iff_of_false nofun ?_
    rintro ⟨before, key, value, after, _, hpairs, -⟩
    exact absurd hpairs.symm (List.append_ne_nil_of_right_ne_nil before nofun)
  | cons cells rest ih =>
    obtain ⟨key, value⟩ := cells
    simp only [pairsFrom_cons_eq_error_iff]
    constructor
    · rintro ⟨problem, name, hkey, ⟨hmem, -⟩ | ⟨-, text, hvalue, hrest⟩⟩
      · refine ⟨[], key, value, rest, [], rfl, .nil, name, ?_, hkey⟩
        rwa [List.append_nil]
      · obtain ⟨before, key', value', after, resolved, rfl, hbefore, name', hmem, hkey'⟩ :=
          ih.mp ⟨problem, hrest⟩
        rw [List.append_assoc, List.singleton_append] at hmem
        exact ⟨(key, value) :: before, key', value', after, (name, text) :: resolved, rfl,
          .cons ⟨hkey, hvalue⟩ hbefore, name', hmem, hkey'⟩
    · rintro ⟨before, key', value', after, resolved, hpairs, hbefore, name', hmem, hkey'⟩
      cases before with
      | nil =>
        obtain rfl := List.forall₂_nil_left_iff.mp hbefore
        obtain ⟨⟨rfl, rfl⟩, rfl⟩ := List.cons.inj hpairs
        rw [List.append_nil] at hmem
        exact ⟨_, name', hkey', .inl ⟨hmem, rfl⟩⟩
      | cons pair before =>
        obtain ⟨⟨rfl, rfl⟩, rfl⟩ := List.cons.inj hpairs
        obtain ⟨⟨name, text⟩, resolved, ⟨hkey, hvalue⟩, hrest, rfl⟩ :=
          List.forall₂_cons_left_iff.mp hbefore
        -- The first key may be there already, or else the later one comes up again.
        by_cases hfirst : name ∈ done.names
        · exact ⟨_, name, hkey, .inl ⟨hfirst, rfl⟩⟩
        · rw [List.append_cons] at hmem
          obtain ⟨problem, hproblem⟩ :=
            ih.mpr ⟨before, key', value', after, resolved, rfl, hrest, name', hmem, hkey'⟩
          exact ⟨problem, name, hkey, .inr ⟨hfirst, text, hvalue, hproblem⟩⟩

/-! ### Whole tables -/

/-- Cells below one another say what they say in pairs. -/
theorem forall₂_saysPair_zip_iff {header row : List String} (h : row.length = header.length) :
    List.Forall₂ scope.SaysPair (header.zip row) entries ↔
      List.Forall₂ scope.Says header entries.names ∧
        List.Forall₂ scope.Says row (entries.map Prod.snd) := by
  induction header generalizing row entries with
  | nil =>
    obtain rfl := List.length_eq_zero_iff.mp h
    simp [Entries.names]
  | cons key header ih =>
    obtain ⟨value, row, rfl⟩ := List.exists_cons_of_length_eq_add_one h
    cases entries with
    | nil => simp [Entries.names]
    | cons entry entries =>
      have hrest := @ih entries row (Nat.succ.inj h)
      simp only [List.zip_cons_cons, List.forall₂_cons, Entries.names, List.map_cons] at hrest ⊢
      rw [hrest, Scope.SaysPair]
      exact and_and_and_comm

/-- The shape of a table is looked at before its cells. -/
theorem pairs_cases (table : Table) (scope : Scope) :
    (∃ row, table.rows = [row] ∧ row.length = table.header.length ∧
        table.pairs scope = pairsFrom scope [] (table.header.zip row)) ∨
      (table.rows.length ≠ 1 ∨ ∃ row ∈ table.rows, row.length ≠ table.header.length) ∧
        ∃ problem, table.pairs scope = .error (.table problem) := by
  unfold pairs
  split
  next row hrows =>
    by_cases hlength : row.length = table.header.length
    · exact .inl ⟨row, hrows, hlength, if_pos hlength⟩
    · exact .inr ⟨.inr ⟨row, hrows ▸ List.mem_singleton_self row, hlength⟩, _, if_neg hlength⟩
  next hrows =>
    refine .inr ⟨.inl fun hone ↦ ?_, _, rfl⟩
    obtain ⟨row, hrow⟩ := List.length_eq_one_iff.mp hone
    exact hrows row hrow

theorem pairs_eq_ok_iff :
    table.pairs scope = .ok entries ↔ ∃ row, table.Resolves scope row entries := by
  rcases pairs_cases table scope with ⟨row, hrows, hlength, hpairs⟩ | ⟨hshape, problem, hpairs⟩
  · have hnone : (Entries.names ([] : Entries String)).Nodup := List.nodup_nil
    rw [hpairs, pairsFrom_eq_ok_iff hnone]
    simp only [forall₂_saysPair_zip_iff hlength, List.nil_append]
    constructor
    · rintro ⟨_, ⟨hkeys, hvalues⟩, hnodup, rfl⟩
      exact ⟨row, hrows, hkeys, hvalues, hnodup⟩
    · rintro ⟨row', hrows', hkeys, hvalues, hnodup⟩
      obtain rfl : row = row' := List.singleton_inj.mp (hrows.symm.trans hrows')
      exact ⟨entries, ⟨hkeys, hvalues⟩, hnodup, rfl⟩
  · rw [hpairs]
    refine iff_of_false nofun ?_
    rintro ⟨row, hrows, hkeys, hvalues, -⟩
    have hlength : row.length = table.header.length := by
      rw [hkeys.length_eq, hvalues.length_eq, Entries.names, List.length_map, List.length_map]
    rw [hrows] at hshape
    simp [hlength] at hshape

theorem exists_pairs_eq_error_iff :
    (∃ problem, table.pairs scope = .error (.table problem)) ↔ table.IsMalformed scope := by
  rcases pairs_cases table scope with ⟨row, hrows, hlength, hpairs⟩ | ⟨hshape, hproblem⟩
  · rw [hpairs, exists_pairsFrom_eq_error_iff]
    simp [IsMalformed, hrows, hlength]
  · refine iff_of_true hproblem ?_
    rcases hshape with hrows | ⟨row, hmem, hlength⟩
    · exact .inl hrows
    · exact .inr ⟨row, hmem, .inl hlength⟩

end Table

/-! ## Looking up -/

/-- The dictionary of entries. -/
def Value.dictionary (entries : Entries String) : Value :=
  .mapping .object (entries.map fun (key, text) ↦ (key, .string text))

/-- A dictionary may hold anything, so the checked constructor makes it. -/
theorem Value.ofEntries_dictionary (entries : Entries String) :
    Value.ofEntries .object (entries.map fun (key, text) ↦ (key, .string text)) =
      .ok (dictionary entries) := by
  rw [ofEntries, checkEntries_eq_ok_iff.mpr fun _ _ ↦ rfl]
  rfl

/-- A cell without placeholders says itself, whatever variables there are. -/
theorem Scope.says_self {scope : Scope} (hactive : scope.isActive) {cell : String}
    (h : ¬Placeholder.occursIn cell.toList) : scope.Says cell cell :=
  resolveBy_eq_ok_iff.mpr ⟨hactive, if_neg h⟩

/-- Below a key that says itself stands what its entry says. -/
theorem Table.Resolves.exists_mem {table : Table} {scope : Scope} {row : List String}
    {entries : Entries String} (h : table.Resolves scope row entries) (hactive : scope.isActive)
    {place : Nat} {cell value : String} (hcell : table.header[place]? = some cell)
    (hvalue : row[place]? = some value) (hplain : ¬Placeholder.occursIn cell.toList) :
    ∃ text, (cell, text) ∈ entries ∧ scope.Says value text := by
  obtain ⟨hheader, rfl⟩ := List.getElem?_eq_some_iff.mp hcell
  obtain ⟨hrow, rfl⟩ := List.getElem?_eq_some_iff.mp hvalue
  have hplace : place < entries.length := by
    rwa [← List.length_map Prod.fst, ← Entries.names, ← h.keys.length_eq]
  have hkey : scope.Says table.header[place] entries[place].1 := by
    simpa [Entries.names] using h.keys.get hheader (by simpa [Entries.names] using hplace)
  have htext : scope.Says row[place] entries[place].2 := by
    simpa using h.values.get hrow (by simpa using hplace)
  refine ⟨entries[place].2, ?_, htext⟩
  rw [(Scope.says_self hactive hplain).unique hkey]
  exact List.getElem_mem hplace

theorem Variable.byKey_dictionary {name key text : String} {entries : Entries String}
    (h : entries.find? key = some text) :
    (Variable.mk name (.dictionary entries)).byKey key = .ok (.string text) := by
  have hentries : (Variable.mk name (.dictionary entries)).entries =
      .ok (entries.map fun (key, text) ↦ (key, .string text)) := rfl
  simp only [byKey, hentries, bind, Except.bind, Entries.find?_map, h, Option.map_some]

/-- A dictionary answers a key without placeholders with the text under it. -/
theorem Scope.valueByKey_dictionary {scope : Scope} {name cell text : String}
    {entries : Entries String} (hactive : scope.isActive)
    (hfound : scope.store.values.find? name = some (.dictionary entries))
    (hcell : ¬Placeholder.occursIn cell.toList) (hnodup : entries.names.Nodup)
    (hentry : (cell, text) ∈ entries) : scope.valueByKey name cell = .ok (.string text) := by
  have hget : scope.store.get name = .ok ⟨name, .dictionary entries⟩ := by
    rw [Store.get, hfound]
  have hfind := (Entries.find?_eq_some_iff hnodup).mpr hentry
  rw [valueByKey, StepError.lift_eq_ok_iff, bind_eq_ok_iff]
  exact ⟨cell, says_self hactive hcell,
    bind_eq_ok_iff.mpr ⟨_, hget, Variable.byKey_dictionary hfind⟩⟩

/-! ## Steps -/

namespace StepCall

open StepRun

variable {stage after : Stage σ} {name : String} {table : Table}

/-- A dictionary is stored in an active scope that takes it, if the table is resolved to it. -/
theorem run_storeMapping_eq_ok_iff (services : Services σ) :
    (storeMapping name table).run services stage = (.ok (), after) ↔
      (stage.scope.isActive ∧ stage.scope.store.values.find? name = none) ∧
        name ≠ "" ∧ stage.scope.store.closed = false ∧
        ∃ row entries, table.Resolves stage.scope row entries ∧
          after = stage.grown name (.dictionary entries) := by
  rw [run, createFrom_eq_ok_iff]
  refine and_congr_right fun _ ↦ ?_
  constructor
  · rintro ⟨v, hv, hname, hopen, rfl⟩
    obtain ⟨entries, hpairs, hentries⟩ := bind_eq_ok_iff.mp hv
    rw [Value.ofEntries_dictionary] at hentries
    cases hentries
    obtain ⟨row, hresolves⟩ := Table.pairs_eq_ok_iff.mp hpairs
    exact ⟨hname, hopen, row, entries, hresolves, rfl⟩
  · rintro ⟨hname, hopen, row, entries, hresolves, rfl⟩
    have hpairs := Table.pairs_eq_ok_iff.mpr ⟨row, hresolves⟩
    refine ⟨_, bind_eq_ok_iff.mpr ⟨entries, hpairs, ?_⟩, hname, hopen, rfl⟩
    rw [Value.ofEntries_dictionary]
    rfl

/-- Where there is no such variable yet, it is the table that fails the step if and only if the
table is malformed. Nothing is stored then. -/
theorem exists_run_storeMapping_eq_error_iff (services : Services σ)
    (h : stage.scope.isActive ∧ stage.scope.store.values.find? name = none) :
    (∃ problem, (storeMapping name table).run services stage = (.error (.table problem), stage)) ↔
      table.IsMalformed stage.scope := by
  rw [← Table.exists_pairs_eq_error_iff]
  refine exists_congr fun problem ↦ ?_
  rw [run, createFrom_of_absent h]
  cases hpairs : table.pairs stage.scope with
  | error e =>
    change (Except.error e, stage) = _ ↔ _
    rw [Prod.mk.injEq, and_iff_left rfl, Except.error.injEq, Except.error.injEq]
  | ok entries =>
    refine iff_of_false (fun hput ↦ ?_) (fun hfailed ↦ ?_)
    · simp only [bind, Except.bind, Value.ofEntries_dictionary] at hput
      obtain ⟨cause, -, hcause⟩ := put_eq_error hput
      cases hcause
    · cases hfailed

/-- A key without placeholders is found again, in the place where it stands in the header. -/
theorem run_storeValueByKey_dictionary (services : Services σ) {row : List String}
    {entries : Entries String} (hactive : stage.scope.isActive)
    (hopen : stage.scope.store.closed = false)
    (hresolves : table.Resolves stage.scope row entries) {place : Nat} {cell value : String}
    (hcell : table.header[place]? = some cell) (hvalue : row[place]? = some value)
    (hplain : ¬Placeholder.occursIn cell.toList) :
    ∃ text, stage.scope.Says value text ∧ ∀ target, target ≠ "" →
      (stage.grown name (.dictionary entries)).scope.store.values.find? target = none →
      (storeValueByKey name cell target).run services (stage.grown name (.dictionary entries)) =
        (.ok (), (stage.grown name (.dictionary entries)).grown target (.string text)) := by
  obtain ⟨text, hentry, hsays⟩ := hresolves.exists_mem hactive hcell hvalue hplain
  refine ⟨text, hsays, fun target htarget hfresh ↦ ?_⟩
  have hfound : (stage.grown name (.dictionary entries)).scope.store.values.find? name =
      some (.dictionary entries) := Entries.find?_put_self _ _ _
  rw [run, createFrom_eq_ok_iff]
  exact ⟨⟨hactive, hfresh⟩, _,
    Scope.valueByKey_dictionary hactive hfound hplain hresolves.nodup hentry, htarget, hopen, rfl⟩

/-- **A dictionary answers its keys.** It is stored in an active scope that takes it exactly if the
table is resolved to it. Every cell of the header that has no placeholder is then answered with what
the cell below it says. Where the scope has no such variable yet, the step fails for the table, and
stores nothing, exactly if the table has not a single row, or not one as long as the header, or a
key that comes up twice. -/
theorem run_storeMapping_answers (services : Services σ) (name : String) (table : Table)
    (stage : Stage σ) :
    (∀ after, (storeMapping name table).run services stage = (.ok (), after) ↔
      (stage.scope.isActive ∧ stage.scope.store.values.find? name = none) ∧
        name ≠ "" ∧ stage.scope.store.closed = false ∧
        ∃ row entries, table.Resolves stage.scope row entries ∧
          after = stage.grown name (.dictionary entries)) ∧
    (∀ after, (storeMapping name table).run services stage = (.ok (), after) →
      ∀ (row : List String) (place : Nat) (cell value : String),
        table.rows = [row] → table.header[place]? = some cell → row[place]? = some value →
        ¬Placeholder.occursIn cell.toList →
        ∃ text, stage.scope.Says value text ∧ ∀ target, target ≠ "" →
          after.scope.store.values.find? target = none →
          (storeValueByKey name cell target).run services after =
            (.ok (), after.grown target (.string text))) ∧
    (stage.scope.isActive → stage.scope.store.values.find? name = none →
      ((∃ problem,
          (storeMapping name table).run services stage = (.error (.table problem), stage)) ↔
        table.IsMalformed stage.scope)) := by
  refine ⟨fun after ↦ run_storeMapping_eq_ok_iff services, ?_,
    fun hactive habsent ↦ exists_run_storeMapping_eq_error_iff services ⟨hactive, habsent⟩⟩
  intro after hrun row place cell value hrows hcell hvalue hplain
  obtain ⟨⟨hactive, -⟩, -, hopen, row', entries, hresolves, rfl⟩ :=
    (run_storeMapping_eq_ok_iff services).mp hrun
  obtain rfl : row = row' := List.singleton_inj.mp (hrows.symm.trans hresolves.rows_eq)
  exact run_storeValueByKey_dictionary services hactive hopen hresolves hcell hvalue hplain

/-- A user with a login and a role, under a key that is a variable itself, is asked for the login. A
table that spells the role in both ways is refused. -/
theorem run_storeMapping_answers_login :
    let stage : Stage FileTree :=
      { scope :=
          { id := 1, interpolator := .default, random := ⟨0⟩,
            store := { values := [("key", .string "role")] } },
        world := {} }
    let user : Table := ⟨["login", "\x7bkey\x7d"], [["\x7bkey\x7d-1", "admin"]]⟩
    let after := stage.grown "user" (.dictionary [("login", "role-1"), ("role", "admin")])
    let twice : Table := ⟨["role", "\x7bkey\x7d"], [["admin", "guest"]]⟩
    (storeMapping "user" user).run (.local Draw.epoch) stage = (.ok (), after) ∧
      (storeValueByKey "user" "login" "name").run (.local Draw.epoch) after =
        (.ok (), after.grown "name" (.string "role-1")) ∧
      ∃ problem, (storeMapping "user" twice).run (.local Draw.epoch) stage =
        (.error (.table problem), stage) := by
  intro stage user after twice
  have hstored : (storeMapping "user" user).run (.local Draw.epoch) stage = (.ok (), after) := by
    rfl
  obtain ⟨text, htext, hanswer⟩ :=
    (run_storeMapping_answers (.local Draw.epoch) "user" user stage).2.1 after hstored
      ["\x7bkey\x7d-1", "admin"] 0 "login" "\x7bkey\x7d-1" rfl rfl rfl (by decide)
  obtain rfl : text = "role-1" := htext.unique (by rfl)
  refine ⟨hstored, hanswer "name" (by decide) rfl, ?_⟩
  rw [(run_storeMapping_answers (.local Draw.epoch) "user" twice stage).2.2 rfl rfl]
  exact .inr ⟨_, .head _, .inr ⟨[("role", "admin")], "\x7bkey\x7d", "guest", [],
    [("role", "admin")], rfl, .cons ⟨by rfl, by rfl⟩ .nil, "role", .head _, by rfl⟩⟩

/-- A name that is taken is refused before the table is looked at, though it has no row of
values. -/
theorem run_storeMapping_refuses_taken :
    let stage : Stage FileTree :=
      { scope :=
          { id := 1, interpolator := .default, random := ⟨0⟩,
            store := { values := [("user", .string "x")] } },
        world := {} }
    let table : Table := ⟨["a"], []⟩
    stage.scope.isActive ∧ table.rows.length ≠ 1 ∧
      ¬∃ problem, (storeMapping "user" table).run (.local Draw.epoch) stage =
        (.error (.table problem), stage) := by
  intro stage table
  have hrun : (storeMapping "user" table).run (.local Draw.epoch) stage =
      (.error (.ofVariable (.alreadyExists "user")), stage) := by rfl
  refine ⟨rfl, nofun, ?_⟩
  rintro ⟨problem, h⟩
  rw [hrun] at h
  cases h

end StepCall

end Playbook
