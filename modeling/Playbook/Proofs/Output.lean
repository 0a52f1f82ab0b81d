import Playbook.Proofs.JsonReading
import Playbook.Proofs.Pieces
import Playbook.Proofs.Verdict

/-!
# What is printed can be trusted

Another program reads what the command line prints: it cuts the text into lines, looks at the word
each of them starts with and reads the JSON value after it. The texts in these values come from
files and arguments, so they may hold anything, line breaks and the words of other lines among them.
None of that reaches the reader as anything but a text in the value it belongs to: the reader finds
the records, the message and the verdict that the command line wrote, and no others.
-/

namespace Playbook.CommandLine

open Json

variable {word other : String} {records : List (Entries Json)} {wording : Wording}

/-! ## A reader of lines -/

/-- The text of an outcome: its lines, each with a line break after it. -/
def Outcome.printed (outcome : Outcome) : List Char :=
  outcome.lines.flatMap fun line ↦ line.toList ++ ['\n']

/-- What follows a word in the lines of a text that start with it. -/
def found (word : String) (text : List Char) : List (List Char) :=
  (text.splitOn '\n').filterMap (Text.after? word.toList)

/-- The JSON values that follow a word in the lines of a text; there is none where the text is not
that of a value. -/
def foundJson (word : String) (text : List Char) : List (Option Json) :=
  (found word text).map fun value ↦ Json.parse? (String.ofList value)

theorem joinWith_lines (lines : List String) :
    Text.joinWith '\n' (lines.map String.toList ++ [[]]) =
      lines.flatMap fun line ↦ line.toList ++ ['\n'] := by
  induction lines with
  | nil => rfl
  | cons line rest ih =>
    have hnext : ∃ next more, rest.map String.toList ++ [[]] = next :: more :=
      List.exists_cons_of_ne_nil (by simp)
    obtain ⟨next, more, hcons⟩ := hnext
    rw [List.map_cons, List.cons_append, List.flatMap_cons, ← ih, hcons, Text.joinWith,
      List.append_assoc, List.singleton_append]

/-- What is printed is cut into its lines again; after the last line break there is nothing. -/
theorem Outcome.splitOn_printed {outcome : Outcome}
    (h : ∀ line ∈ outcome.lines, Visible line.toList) :
    outcome.printed.splitOn '\n' = outcome.lines.map String.toList ++ [[]] := by
  rw [printed, ← joinWith_lines]
  apply Text.splitOn_joinWith
  · intro piece hpiece
    rcases List.mem_append.mp hpiece with hline | hlast
    · obtain ⟨line, hmem, rfl⟩ := List.mem_map.mp hline
      exact (h line hmem).newline_notMem
    · rw [List.mem_singleton.mp hlast]
      exact List.not_mem_nil
  · simp

/-! ## Lines that start with a word -/

/-- A line with a word and what follows it. -/
def tagged (word text : String) : String := word ++ text

/-- What follows a word in the lines that start with it. -/
def following (word : String) (lines : List String) : List (List Char) :=
  lines.filterMap fun line ↦ Text.after? word.toList line.toList

/-- Whether no line starts with both words. -/
def Differ (word other : String) : Prop :=
  ¬word.toList <+: other.toList ∧ ¬other.toList <+: word.toList

instance (word other : String) : Decidable (Differ word other) :=
  inferInstanceAs (Decidable (_ ∧ _))

theorem following_tagged (word text : String) (lines : List String) :
    following word (tagged word text :: lines) = text.toList :: following word lines := by
  have hafter : Text.after? word.toList (tagged word text).toList = some text.toList := by
    rw [tagged, String.toList_append, Text.after?_append]
  exact List.filterMap_cons_some hafter

theorem following_tagged_of_differ (h : Differ word other) (text : String) (lines : List String) :
    following word (tagged other text :: lines) = following word lines := by
  have hafter : Text.after? word.toList (tagged other text).toList = none := by
    rw [tagged, String.toList_append, Text.after?_append_eq_none h.1 h.2]
  exact List.filterMap_cons_none hafter

theorem found_printed {outcome : Outcome} (h : ∀ line ∈ outcome.lines, Visible line.toList)
    (hword : word.toList ≠ []) : found word outcome.printed = following word outcome.lines := by
  have hlast : Text.after? word.toList [] = none := by
    cases hcons : word.toList with
    | nil => exact absurd hcons hword
    | cons c rest => rfl
  rw [found, outcome.splitOn_printed h, List.filterMap_append, List.filterMap_map,
    List.filterMap_cons_none hlast, List.filterMap_nil, List.append_nil]
  rfl

theorem visible_tagged {text : String} (hword : Visible word.toList) (htext : Visible text.toList) :
    Visible (tagged word text).toList := by
  rw [tagged, String.toList_append, Visible.append_iff]
  exact ⟨hword, htext⟩

theorem visible_render (value : Json) : Visible value.render.toList := by
  rw [render, String.toList_ofList]
  exact .compact value

/-- A value on a line of its own is found as it is, whatever the texts in it hold. -/
theorem foundJson_tagged (hword : Visible word.toList) {value : Json} (h : IsPlain maxDepth value) :
    foundJson word (tagged word value.render).toList = [some value] := by
  have hline := (visible_tagged hword (visible_render value)).newline_notMem
  have hfollowing : following word [tagged word value.render] = [value.render.toList] :=
    following_tagged word value.render []
  have hfound : found word (tagged word value.render).toList = [value.render.toList] := by
    rw [found, List.splitOn_eq_singleton hline, ← hfollowing]
    rfl
  rw [foundJson, hfound, List.map_singleton, String.ofList_toList, parse?_render h]

/-! ## Lines of the command line -/

theorem recordLine_eq_tagged (record : Entries Json) :
    recordLine record = tagged "SCENARIO_JSON:" (Json.object record).render := rfl

theorem Failure.lines_eq_tagged (failure : Failure) (wording : Wording) :
    failure.lines wording = [tagged "RESULT:" "ERROR", tagged "ERROR_CODE:" failure.code,
      tagged "ERROR_MSG_JSON:" (Json.string (failure.message wording)).render] := by
  simp [lines, tagged, toString]

theorem following_records (records : List (Entries Json)) :
    following "SCENARIO_JSON:" (records.map recordLine) =
      records.map fun record ↦ (Json.object record).render.toList := by
  induction records with
  | nil => rfl
  | cons record rest ih =>
    rw [List.map_cons, recordLine_eq_tagged, following_tagged, ih, List.map_cons]

theorem following_records_of_differ (h : Differ word "SCENARIO_JSON:")
    (records : List (Entries Json)) : following word (records.map recordLine) = [] := by
  induction records with
  | nil => rfl
  | cons record rest ih =>
    rw [List.map_cons, recordLine_eq_tagged, following_tagged_of_differ h, ih]

theorem isPlain_record (path : String) (scenario : Scenario)
    (verdict : Except (String × String) Nat) : IsPlain maxDepth (record path scenario verdict) := by
  have hobject : ∀ members, (members.map Prod.fst).Nodup →
      (∀ member ∈ members, IsPlain (maxDepth - 1) member.2) → IsPlain maxDepth (.object members) :=
    fun _ ↦ IsPlain.object
  cases verdict with
  | ok steps =>
    apply hobject
    · simp
    · simp [ofUInt64, IsPlain.string, IsPlain.whole]
  | error error =>
    apply hobject
    · simp
    · simp [IsPlain.string]

theorem Describes.isPlain {path : String} {scenario : Scenario} {result : Except RunError Report}
    {record : Entries Json} (h : Describes wording path scenario result record) :
    IsPlain maxDepth (.object record) := by
  cases h with
  | @ok report _ => exact isPlain_record path scenario (.ok report.steps)
  | @error _ code message _ => exact isPlain_record path scenario (.error (code, message))

theorem visible_code (failure : Failure) : Visible failure.code.toList := by
  cases failure with
  | configInvalid path error =>
    cases error <;> simp only [Failure.code, VariableError.code] <;> decide
  | scenarios directory error => cases error <;> simp only [Failure.code, ReadError.code] <;> decide
  | configUnreadable => exact (by decide : Visible "CLI_CONFIG_READ".toList)
  | failed => exact (by decide : Visible "CLI_SCENARIOS_FAILED".toList)

theorem Failure.visible_of_mem_lines {failure : Failure} {line : String}
    (h : line ∈ failure.lines wording) : Visible line.toList := by
  rw [lines_eq_tagged] at h
  simp only [List.mem_cons, List.not_mem_nil, or_false] at h
  rcases h with rfl | rfl | rfl
  · decide
  · exact visible_tagged (by decide) (visible_code failure)
  · exact visible_tagged (by decide) (visible_render _)

/-! ## Outcomes -/

/-- Whether a reader of an outcome finds certain records, a message if something failed, and one
verdict, all of them on lines without control characters. -/
structure Outcome.Shows (outcome : Outcome) (described : List (Entries Json))
    (failure : Option String) : Prop where
  visible : ∀ line ∈ outcome.lines, Visible line.toList
  lines : outcome.printed.splitOn '\n' = outcome.lines.map String.toList ++ [[]]
  records : foundJson "SCENARIO_JSON:" outcome.printed =
    described.map fun record ↦ some (.object record)
  message : foundJson "ERROR_MSG_JSON:" outcome.printed =
    failure.toList.map fun message ↦ some (.string message)
  verdict : found "RESULT:" outcome.printed =
    [if failure.isSome then "ERROR".toList else "OK".toList]

theorem map_parse?_render {α : Type} {values : List α} {toJson : α → Json}
    (h : ∀ a ∈ values, IsPlain maxDepth (toJson a)) :
    ((values.map fun a ↦ (toJson a).render.toList).map fun text ↦ parse? (String.ofList text)) =
      values.map fun a ↦ some (toJson a) := by
  rw [List.map_map]
  apply List.map_congr_left
  intro a ha
  rw [Function.comp_apply, String.ofList_toList, parse?_render (h a ha)]

/-- Lines of records and a verdict after them show the records and the verdict. -/
theorem shows_of_rest {rest : List String} {failure : Option String} (exit : UInt8)
    (hrecords : ∀ record ∈ records, IsPlain maxDepth (.object record))
    (hvisible : ∀ line ∈ rest, Visible line.toList) (hnone : following "SCENARIO_JSON:" rest = [])
    (hmessage : following "ERROR_MSG_JSON:" rest =
      failure.toList.map fun message ↦ (Json.string message).render.toList)
    (hverdict : following "RESULT:" rest =
      [if failure.isSome then "ERROR".toList else "OK".toList]) :
    Outcome.Shows ⟨exit, records.map recordLine ++ rest⟩ records failure := by
  -- That no line has a control character makes the lines that are cut the lines that were written.
  have hlines : ∀ line ∈ records.map recordLine ++ rest, Visible line.toList := by
    intro line hline
    rcases List.mem_append.mp hline with hrecord | hmem
    · obtain ⟨record, -, rfl⟩ := List.mem_map.mp hrecord
      exact visible_tagged (by decide) (visible_render _)
    · exact hvisible line hmem
  have hfound : ∀ word : String, word.toList ≠ [] →
      found word (Outcome.printed ⟨exit, records.map recordLine ++ rest⟩) =
        following word (records.map recordLine) ++ following word rest := by
    intro word hword
    rw [found_printed hlines hword]
    exact List.filterMap_append
  constructor
  case visible => exact hlines
  case lines => exact Outcome.splitOn_printed hlines
  case records =>
    rw [foundJson, hfound _ (by decide), following_records, hnone, List.append_nil]
    exact map_parse?_render hrecords
  case message =>
    rw [foundJson, hfound _ (by decide), following_records_of_differ (by decide), hmessage,
      List.nil_append]
    exact map_parse?_render fun message _ ↦ .string message
  case verdict =>
    rw [hfound _ (by decide), following_records_of_differ (by decide), hverdict, List.nil_append]

theorem shows_of_passed (hrecords : ∀ record ∈ records, IsPlain maxDepth (.object record))
    (total : Nat) : Outcome.Shows ⟨0, records.map recordLine ++
      ["RESULT:OK", s!"SCENARIOS:{VariableError.count total}"]⟩ records none := by
  have hrest : ["RESULT:OK", s!"SCENARIOS:{VariableError.count total}"] =
      [tagged "RESULT:" "OK", tagged "SCENARIOS:" (VariableError.count total)] := by
    simp [tagged, toString]
  have hcount : Visible (VariableError.count total).toList := by
    rw [VariableError.count, String.toList_ofList]
    exact .digits total
  rw [hrest]
  apply shows_of_rest 0 hrecords
  case hvisible =>
    intro line hline
    rcases List.mem_pair.mp hline with rfl | rfl
    · decide
    · exact visible_tagged (by decide) hcount
  case hnone =>
    rw [following_tagged_of_differ (by decide), following_tagged_of_differ (by decide)]
    rfl
  case hmessage =>
    rw [following_tagged_of_differ (by decide), following_tagged_of_differ (by decide)]
    rfl
  case hverdict =>
    rw [following_tagged, following_tagged_of_differ (by decide)]
    rfl

theorem shows_of_failure (hrecords : ∀ record ∈ records, IsPlain maxDepth (.object record))
    (failure : Failure) (wording : Wording) :
    Outcome.Shows ⟨1, records.map recordLine ++ failure.lines wording⟩ records
      (some (failure.message wording)) := by
  apply shows_of_rest 1 hrecords
  case hvisible => exact fun line ↦ Failure.visible_of_mem_lines
  all_goals rw [failure.lines_eq_tagged wording]
  case hnone =>
    rw [following_tagged_of_differ (by decide), following_tagged_of_differ (by decide),
      following_tagged_of_differ (by decide)]
    rfl
  case hmessage =>
    rw [following_tagged_of_differ (by decide), following_tagged_of_differ (by decide),
      following_tagged]
    rfl
  case hverdict =>
    rw [following_tagged, following_tagged_of_differ (by decide),
      following_tagged_of_differ (by decide)]
    rfl

/-- The message of a run with certain records, if it has one: how many of them tell of a failure. -/
def failureMessage (records : List (Entries Json)) : Option String :=
  let failed := records.countP (hasStatus "error")
  if failed = 0 then none else some (Failure.failed failed records.length).message

theorem Outcome.Agrees.shows {outcome : Outcome} (h : outcome.Agrees records)
    (hrecords : ∀ record ∈ records, IsPlain maxDepth (.object record)) :
    outcome.Shows records (failureMessage records) := by
  obtain ⟨exit, lines⟩ := outcome
  have hverdict := h.verdict
  rw [failureMessage]
  by_cases hfailed : records.countP (hasStatus "error") = 0
  · simp only [if_pos hfailed] at hverdict ⊢
    obtain ⟨rfl, rfl⟩ := hverdict
    exact shows_of_passed hrecords records.length
  · simp only [if_neg hfailed] at hverdict ⊢
    obtain ⟨rfl, rfl⟩ := hverdict
    exact shows_of_failure hrecords (.failed _ records.length) {}

theorem forall_isPlain_of_describes {α : Type} {entries : List α} {path : α → String}
    {scenario : α → Scenario} {result : α → Except RunError Report}
    (h : List.Forall₂ (fun entry record ↦
      Describes wording (path entry) (scenario entry) (result entry) record) entries records) :
    ∀ record ∈ records, IsPlain maxDepth (.object record) := by
  induction h with
  | nil => exact nofun
  | cons hfirst _ ih => exact List.forall_mem_cons.mpr ⟨hfirst.isPlain, ih⟩

/-- **What is printed can be trusted.** Whatever paths, names, codes and messages hold, a record is
one line without control characters, from which the reader gets the record, and so is a message. The
reader of a run, whatever turns it has taken, gets a record about each scenario, in their order,
that describes what has come of it; a message, if something failed, that is the one meant; the
verdict; and nothing else under their words. -/
theorem run_output_decodes :
    (∀ path scenario verdict, Visible (line path scenario verdict).toList ∧
      foundJson "SCENARIO_JSON:" (line path scenario verdict).toList =
        [some (record path scenario verdict)]) ∧
    (∀ message, Visible ("ERROR_MSG_JSON:" ++ (Json.string message).render).toList ∧
      foundJson "ERROR_MSG_JSON:" ("ERROR_MSG_JSON:" ++ (Json.string message).render).toList =
        [some (.string message)]) ∧
    ∀ now entropy arguments tree turns wording,
      let outcome := (run now entropy arguments tree turns wording).1
      match request arguments with
      | .invalid | .help => outcome.lines = []
      | .run directory config =>
        match load tree directory config with
        | .error failure => outcome.Shows [] (some (failure.message wording))
        | .ok (options, scenarios) =>
          let results := (Batch.runTogether (.local now) turns (scenarios.map Prod.snd)
            { options, entropy } tree).results
          ∃ records, List.Forall₂ (fun entry record ↦
              Describes wording entry.1.1 entry.1.2 entry.2 record)
              (scenarios.zip results) records ∧
            outcome.Shows records (failureMessage records) := by
  refine ⟨fun path scenario verdict ↦ ⟨?_, ?_⟩, fun message ↦ ⟨?_, ?_⟩, ?_⟩
  · exact visible_tagged (by decide) (visible_render _)
  · exact foundJson_tagged (by decide) (isPlain_record path scenario verdict)
  · exact visible_tagged (by decide) (visible_render _)
  · exact foundJson_tagged (by decide) (.string message)
  intro now entropy arguments tree turns wording
  rw [run]
  cases request arguments with
  | invalid => rfl
  | help => rfl
  | run directory config =>
    simp only [runDirectory]
    cases load tree directory config with
    | error failure =>
      have hrecords : ∀ record ∈ ([] : List (Entries Json)), IsPlain maxDepth (.object record) :=
        fun _ hmem ↦ absurd hmem List.not_mem_nil
      exact shows_of_failure hrecords failure wording
    | ok loaded =>
      obtain ⟨options, scenarios⟩ := loaded
      obtain ⟨records, hdescribes, hagrees⟩ := exists_records_agrees wording _
      refine ⟨records, ?_, hagrees.shows ?_⟩
      · exact List.forall₂_map_left_iff.mp hdescribes
      · exact forall_isPlain_of_describes hdescribes

/-- A line break and a verdict after it stay a part of the text they are in. -/
example : tagged "ERROR_MSG_JSON:" (Json.string "no\nRESULT:OK").render =
    "ERROR_MSG_JSON:\"no\\nRESULT:OK\"" := by
  decide +kernel

end Playbook.CommandLine
