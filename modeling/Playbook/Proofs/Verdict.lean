import Playbook.CommandLine.Run
import Playbook.Proofs.JsonText
import Playbook.Proofs.Loading
import Playbook.Proofs.TurnTaking

/-!
# The verdict of the command line

The command line prints a record about each scenario and then a verdict over all of them, which has
to agree with the records. What a record has to say is stated without the command line: a scenario
passes if its run has a report with all the texts that it expects, and fails with a code and a
message otherwise (`Scenario.Passes`, `Scenario.Fails`). The records then come in the order of the
scenarios, one line each, and the verdict counts those that tell of a failure. That is so whatever
has come of the runs, so that it does not matter which turns they have taken.
-/

namespace Playbook

/-! ## Scenarios that pass -/

namespace Scenario

variable {scenario : Scenario} {wording : Wording} {report : Report}
  {result : Except RunError Report}

/-- Whether a report has all the texts that are expected. -/
def Meets (scenario : Scenario) (report : Report) : Prop :=
  ∀ entry ∈ scenario.expectedVariables, report.values.find? entry.1 = some entry.2

def Passes (scenario : Scenario) (result : Except RunError Report) : Prop :=
  ∃ report, result = .ok report ∧ scenario.Meets report

/-- Whether a scenario fails with a code and a message: those of the error that ended its run, or
those about the first text that is not the expected one. -/
inductive Fails (scenario : Scenario) (wording : Wording) :
    Except RunError Report → String → String → Prop
  | run (e : RunError) : Fails scenario wording (.error e) e.code (e.message wording)
  | expectation {report : Report} {before after : Entries String} {name expected : String}
      (expected_eq : scenario.expectedVariables = before ++ (name, expected) :: after)
      (met : ∀ entry ∈ before, report.values.find? entry.1 = some entry.2)
      (unmet : report.values.find? name ≠ some expected) :
      Fails scenario wording (.ok report) "VARIABLE_MISMATCH"
        (Mismatch.message ⟨scenario.name, name, expected, report.values.find? name⟩)

theorem Fails.not_passes {code message : String} (h : scenario.Fails wording result code message) :
    ¬scenario.Passes result := by
  rintro ⟨report, hreport, hmeets⟩
  cases h with
  | run e => cases hreport
  | expectation hentries hmet hunmet =>
    cases hreport
    refine hunmet (hmeets (_, _) ?_)
    rw [hentries]
    exact List.mem_append_right _ List.mem_cons_self

theorem checkAll_cases (scenario : Scenario) (report : Report) (entries : Entries String) :
    scenario.checkAll report entries = .ok () ∧
        (∀ entry ∈ entries, report.values.find? entry.1 = some entry.2) ∨
      ∃ before name expected after, entries = before ++ (name, expected) :: after ∧
        (∀ entry ∈ before, report.values.find? entry.1 = some entry.2) ∧
        report.values.find? name ≠ some expected ∧ scenario.checkAll report entries =
          .error ⟨scenario.name, name, expected, report.values.find? name⟩ := by
  induction entries with
  | nil => exact .inl ⟨rfl, nofun⟩
  | cons entry rest ih =>
    obtain ⟨name, expected⟩ := entry
    by_cases hmet : report.values.find? name = some expected
    · have hskip : scenario.checkAll report ((name, expected) :: rest) =
          scenario.checkAll report rest := if_pos hmet
      rw [hskip]
      rcases ih with ⟨hok, hall⟩ | ⟨before, other, text, after, rfl, hbefore, hunmet, herror⟩
      · exact .inl ⟨hok, List.forall_mem_cons.mpr ⟨hmet, hall⟩⟩
      · exact .inr ⟨(name, expected) :: before, other, text, after, rfl,
          List.forall_mem_cons.mpr ⟨hmet, hbefore⟩, hunmet, herror⟩
    · exact .inr ⟨[], name, expected, rest, rfl, nofun, hmet, if_neg hmet⟩

end Scenario

namespace CommandLine

variable {wording : Wording} {path : String} {scenario : Scenario}
  {result : Except RunError Report}

/-! ## Records -/

/-- Whether a record says what has come of a scenario. -/
inductive Describes (wording : Wording) (path : String) (scenario : Scenario) :
    Except RunError Report → Entries Json → Prop
  | ok {report : Report} (meets : scenario.Meets report) :
      Describes wording path scenario (.ok report)
        [("path", .string path), ("name", .string scenario.name), ("status", .string "ok"),
          ("steps", .ofUInt64 (.ofNat report.steps))]
  | error {result : Except RunError Report} {code message : String}
      (fails : scenario.Fails wording result code message) :
      Describes wording path scenario result
        [("path", .string path), ("name", .string scenario.name), ("status", .string "error"),
          ("errorCode", .string code), ("message", .string message)]

def hasStatus (status : String) (record : Entries Json) : Bool :=
  match record.find? "status" with
  | some (.string text) => text = status
  | _ => false

def recordLine (record : Entries Json) : String := "SCENARIO_JSON:" ++ (Json.object record).render

def isRecordLine (line : String) : Bool := "SCENARIO_JSON:".toList.isPrefixOf line.toList

namespace Describes

variable {record : Entries Json}

theorem hasStatus_ok_iff (h : Describes wording path scenario result record) :
    hasStatus "ok" record ↔ scenario.Passes result := by
  cases h with
  | ok hmeets => exact iff_of_true rfl ⟨_, rfl, hmeets⟩
  | error hfails => exact iff_of_false (by simp [hasStatus, Entries.find?]) hfails.not_passes

theorem hasStatus_error_iff (h : Describes wording path scenario result record) :
    hasStatus "error" record ↔ ¬scenario.Passes result := by
  cases h with
  | ok hmeets =>
    exact iff_of_false (by simp [hasStatus, Entries.find?]) (not_not_intro ⟨_, rfl, hmeets⟩)
  | error hfails => exact iff_of_true rfl hfails.not_passes

end Describes

/-- The line about a scenario shows a record that describes what has come of it. -/
theorem exists_record (wording : Wording) (path : String) (scenario : Scenario)
    (result : Except RunError Report) :
    ∃ record, Describes wording path scenario result record ∧
      line path scenario (verdict scenario result wording) = recordLine record ∧
      (!(verdict scenario result wording).toBool) = hasStatus "error" record := by
  cases result with
  | error e => exact ⟨_, .error (.run e), rfl, rfl⟩
  | ok report =>
    rcases scenario.checkAll_cases report scenario.expectedVariables with
      ⟨hcheck, hmeets⟩ | ⟨before, name, expected, after, hentries, hbefore, hunmet, hcheck⟩
    · have hverdict : verdict scenario (.ok report) wording = .ok report.steps := by
        simp only [verdict, Scenario.check, hcheck]
      rw [hverdict]
      exact ⟨_, .ok hmeets, rfl, rfl⟩
    · have hverdict : verdict scenario (.ok report) wording = .error ("VARIABLE_MISMATCH",
          Mismatch.message ⟨scenario.name, name, expected, report.values.find? name⟩) := by
        simp only [verdict, Scenario.check, hcheck]
        rfl
      rw [hverdict]
      exact ⟨_, .error (.expectation hentries hbefore hunmet), rfl, rfl⟩

theorem exists_records (wording : Wording)
    (results : List (String × Scenario × Except RunError Report)) :
    ∃ records,
      List.Forall₂ (fun entry record ↦ Describes wording entry.1 entry.2.1 entry.2.2 record)
        results records ∧
      (results.map fun (path, scenario, result) ↦
        line path scenario (verdict scenario result wording)) = records.map recordLine ∧
      (results.countP fun (_, scenario, result) ↦ !(verdict scenario result wording).toBool) =
        records.countP (hasStatus "error") := by
  induction results with
  | nil => exact ⟨[], .nil, rfl, rfl⟩
  | cons entry rest ih =>
    obtain ⟨path, scenario, result⟩ := entry
    obtain ⟨record, hdescribes, hline, hstatus⟩ := exists_record wording path scenario result
    obtain ⟨records, hall, hlines, hcount⟩ := ih
    refine ⟨record :: records, .cons hdescribes hall, ?_, ?_⟩
    · rw [List.map_cons, List.map_cons, hlines]
      exact congrArg (· :: _) hline
    · rw [List.countP_cons, List.countP_cons, hcount]
      exact congrArg (fun failed : Bool ↦ _ + if failed then 1 else 0) hstatus

/-! ## Lines -/

theorem isRecordLine_recordLine (record : Entries Json) : isRecordLine (recordLine record) := by
  rw [isRecordLine, recordLine, String.toList_append]
  exact List.isPrefixOf_iff_prefix.mpr (List.prefix_append _ _)

theorem newline_notMem_recordLine (record : Entries Json) : '\n' ∉ (recordLine record).toList := by
  rw [recordLine, String.toList_append, List.mem_append, not_or]
  exact ⟨by decide, Json.newline_notMem_render _⟩

/-- Whether a line shows no record, nor can be taken for two lines of which one does. -/
def IsPlainLine (line : String) : Prop := isRecordLine line = false ∧ '\n' ∉ line.toList

theorem newline_notMem_code (failure : Failure) : '\n' ∉ failure.code.toList := by
  cases failure with
  | configInvalid path error => cases error <;> simp [Failure.code, VariableError.code]
  | scenarios directory error => cases error <;> simp [Failure.code, ReadError.code]
  | _ => simp [Failure.code]

theorem Failure.isPlainLine_of_mem_lines {failure : Failure} {line : String}
    (h : line ∈ failure.lines wording) : IsPlainLine line := by
  simp only [Failure.lines, List.mem_cons, List.not_mem_nil, or_false] at h
  rcases h with rfl | rfl | rfl
  · exact ⟨by decide, by decide⟩
  · refine ⟨by simp [isRecordLine, List.isPrefixOf, toString], ?_⟩
    simp [newline_notMem_code, toString]
  · refine ⟨by simp [isRecordLine, List.isPrefixOf], ?_⟩
    simp [Json.newline_notMem_render]

theorem isPlainLine_scenarios (n : Nat) : IsPlainLine s!"SCENARIOS:{VariableError.count n}" := by
  have hdigits := (Visible.digits n).newline_notMem
  refine ⟨by simp [isRecordLine, List.isPrefixOf, toString], ?_⟩
  simp [VariableError.count, hdigits, toString]

/-- Whether an outcome shows records line by line, and then a verdict that agrees with them. -/
structure Outcome.Agrees (outcome : Outcome) (records : List (Entries Json)) : Prop where
  shown : outcome.lines.filter isRecordLine = records.map recordLine
  oneLine : ∀ line ∈ outcome.lines, '\n' ∉ line.toList
  verdict :
    let failed := records.countP (hasStatus "error")
    let total := VariableError.count records.length
    if failed = 0 then
      outcome.exit = 0 ∧
        outcome.lines = records.map recordLine ++ ["RESULT:OK", s!"SCENARIOS:{total}"]
    else
      outcome.exit = 1 ∧ outcome.lines = records.map recordLine ++
        ["RESULT:ERROR", "ERROR_CODE:CLI_SCENARIOS_FAILED", "ERROR_MSG_JSON:" ++
          (Json.string s!"{VariableError.count failed} of {total} scenarios failed").render]

/-- Plain lines after those of records are no further records. -/
theorem filter_isRecordLine (records : List (Entries Json)) {rest : List String}
    (hrest : ∀ line ∈ rest, IsPlainLine line) :
    (records.map recordLine ++ rest).filter isRecordLine = records.map recordLine := by
  have hrecords : (records.map recordLine).filter isRecordLine = records.map recordLine := by
    rw [List.filter_eq_self]
    intro line hline
    obtain ⟨record, -, rfl⟩ := List.mem_map.mp hline
    exact isRecordLine_recordLine record
  have hnone : rest.filter isRecordLine = [] := by
    rw [List.filter_eq_nil_iff]
    intro line hline
    simp only [(hrest line hline).1, Bool.false_eq_true, not_false_iff]
  rw [List.filter_append, hrecords, hnone, List.append_nil]

theorem newline_notMem_of_mem (records : List (Entries Json)) {rest : List String}
    (hrest : ∀ line ∈ rest, IsPlainLine line) :
    ∀ line ∈ records.map recordLine ++ rest, '\n' ∉ line.toList := by
  intro line hline
  rcases List.mem_append.mp hline with hrecord | hmem
  · obtain ⟨record, -, rfl⟩ := List.mem_map.mp hrecord
    exact newline_notMem_recordLine record
  · exact (hrest line hmem).2

/-- The outcome agrees with records that describe what has come of the scenarios. -/
theorem exists_records_agrees (wording : Wording)
    (results : List (String × Scenario × Except RunError Report)) :
    ∃ records,
      List.Forall₂ (fun entry record ↦ Describes wording entry.1 entry.2.1 entry.2.2 record)
        results records ∧ (summary results wording).Agrees records := by
  obtain ⟨records, hdescribes, hlines, hcount⟩ := exists_records wording results
  have hlength : results.length = records.length := hdescribes.length_eq
  refine ⟨records, hdescribes, ?_⟩
  have hsummary : summary results wording =
      if records.countP (hasStatus "error") = 0 then
        ⟨0, records.map recordLine ++
          ["RESULT:OK", s!"SCENARIOS:{VariableError.count records.length}"]⟩
      else ⟨1, records.map recordLine ++
        (Failure.failed (records.countP (hasStatus "error")) records.length).lines wording⟩ := by
    rw [← hlines, ← hcount, ← hlength]
    rfl
  rw [hsummary]
  by_cases hfailed : records.countP (hasStatus "error") = 0
  · rw [if_pos hfailed]
    have hplain : ∀ line ∈ ["RESULT:OK", s!"SCENARIOS:{VariableError.count records.length}"],
        IsPlainLine line := by
      intro line hline
      rcases List.mem_pair.mp hline with rfl | rfl
      · exact ⟨by decide, by decide⟩
      · exact isPlainLine_scenarios records.length
    constructor
    · exact filter_isRecordLine records hplain
    · exact newline_notMem_of_mem records hplain
    · rw [if_pos hfailed]
      exact ⟨rfl, rfl⟩
  · rw [if_neg hfailed]
    constructor
    · exact filter_isRecordLine records fun _ ↦ Failure.isPlainLine_of_mem_lines
    · exact newline_notMem_of_mem records fun _ ↦ Failure.isPlainLine_of_mem_lines
    · rw [if_neg hfailed]
      exact ⟨rfl, rfl⟩

/-- **The verdict.** If options and scenarios are loaded, the scenarios come in the order of their
paths and have one result each, whatever turns their runs take. There is a record about each of
them, which says whether it passes and what went wrong otherwise, and the outcome shows the records
and a verdict that agrees with them. If something is not loaded, the exit code is 1 and no record is
shown. -/
theorem runDirectory_agrees {σ : Type} (services : Services σ) (turns : List (Turn σ))
    (entropy : UInt32) (directory : String) (config : Option String) (tree : FileTree) (world : σ)
    (wording : Wording) :
    let outcome := (runDirectory services turns entropy directory config tree world wording).1
    match loadOptions tree config, Scenario.readDirectory tree directory with
    | .ok options, .ok scenarios =>
      let results := (Batch.runTogether services turns (scenarios.map Prod.snd)
        { options, entropy } world).results
      scenarios.names.Pairwise (· < ·) ∧
        List.Forall₂ (fun entry result ↦ ∀ report, result = .ok report →
          report.steps = entry.2.steps.length) scenarios results ∧
        ∃ records, List.Forall₂ (fun entry record ↦
            Describes wording entry.1.1 entry.1.2 entry.2 record ∧
            (hasStatus "ok" record ↔ entry.1.2.Passes entry.2) ∧
            (hasStatus "error" record ↔ ¬entry.1.2.Passes entry.2))
          (scenarios.zip results) records ∧ outcome.Agrees records
    | _, _ => outcome.exit = 1 ∧ ∀ line ∈ outcome.lines, IsPlainLine line := by
  have hfailure : ∀ failure, load tree directory config = .error failure →
      (runDirectory services turns entropy directory config tree world wording).1.exit = 1 ∧
        ∀ line ∈ (runDirectory services turns entropy directory config tree world wording).1.lines,
          IsPlainLine line := by
    intro failure hload
    rw [runDirectory, hload]
    exact ⟨rfl, fun _ ↦ Failure.isPlainLine_of_mem_lines⟩
  cases hoptions : loadOptions tree config with
  | error e => exact hfailure e (by rw [load, hoptions]; rfl)
  | ok options =>
    cases hscenarios : Scenario.readDirectory tree directory with
    | error e => exact hfailure (.scenarios directory e) (by rw [load, hoptions, hscenarios]; rfl)
    | ok scenarios =>
      have hload : load tree directory config = .ok (options, scenarios) := by
        rw [load, hoptions, hscenarios]
        rfl
      have hsteps := Batch.forall₂_results_runTogether services turns (scenarios.map Prod.snd)
        { options, entropy } world
      simp only [runDirectory, hload, conclude]
      refine ⟨Scenario.pairwise_names_of_readDirectory hscenarios, ?_, ?_⟩
      · exact List.forall₂_map_left_iff.mp hsteps
      · obtain ⟨records, hdescribes, hagrees⟩ := exists_records_agrees wording _
        refine ⟨records, ?_, hagrees⟩
        refine (List.forall₂_map_left_iff.mp hdescribes).imp fun entry record h ↦ ?_
        exact ⟨h, h.hasStatus_ok_iff, h.hasStatus_error_iff⟩

end CommandLine
end Playbook
