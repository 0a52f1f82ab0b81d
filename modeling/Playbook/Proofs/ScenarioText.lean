import Playbook.Scenario.Basic
import Playbook.Proofs.JsonRecords

/-!
# Scenarios are read back

A scenario is read from the text that is written for it, whatever its steps are and whatever their
texts hold. Each record undoes its own writer. A call of a step is written with the name of the step
among its arguments, and the name decides how the rest is read; all of the document has to be
meaningful before that, and none of what is written for a call is not.

A scenario holds its expected variables in the order of their names, as every scenario that is read
does.
-/

namespace Playbook

open Json Json.Written

/-! ## Choices -/

@[simp] theorem Missing.recovers (waited : Bool) :
    Recovers (choice? waited Missing.tags) fun missing ↦ .string missing.tag :=
  recovers_choice waited fun missing ↦ by cases missing <;> rfl

@[simp] theorem TextCheck.recovers (waited : Bool) :
    Recovers (choice? waited TextCheck.tags) fun check ↦ .string check.tag :=
  recovers_choice waited fun check ↦ by cases check <;> rfl

@[simp] theorem Direction.recovers (waited : Bool) :
    Recovers (choice? waited Direction.tags) fun direction ↦ .string direction.tag :=
  recovers_choice waited fun direction ↦ by cases direction <;> rfl

@[simp] theorem Charset.recovers (waited : Bool) :
    Recovers (choice? waited Charset.tags) fun charset ↦ .string charset.tag :=
  recovers_choice waited fun charset ↦ by cases charset <;> rfl

/-! ## Arguments

A step that is left to computation would make the kernel compute with the bounds of 32 and 64 bits,
which are too large for that. So the rewriting below proves each of its steps. -/

@[simp] theorem recovers_optionalText : Recovers (optional? text?) (.ofOption .string) :=
  recovers_text.optional fun _ h ↦ Json.noConfusion h

@[simp] theorem Table.recovers : Recovers Table.ofWritten? Table.toJson := by
  intro table
  rw [Table.ofWritten?, Table.toJson, fields?_ofJson]
  case h => simp
  simp -implicitDefEqProofs [Entries.find?, recovers_texts.list _]

@[simp] theorem DateParts.recovers : Recovers DateParts.ofWritten? DateParts.toJson := by
  intro date
  rw [DateParts.ofWritten?, DateParts.toJson, fields?_ofJson]
  case h => simp
  simp -implicitDefEqProofs [Entries.find?]

@[simp] theorem TimeParts.recovers : Recovers TimeParts.ofWritten? TimeParts.toJson := by
  intro time
  rw [TimeParts.ofWritten?, TimeParts.toJson, fields?_ofJson]
  case h => simp
  simp -implicitDefEqProofs [Entries.find?]

@[simp] theorem Shift.recovers : Recovers Shift.ofWritten? Shift.toJson := by
  intro shift
  rw [Shift.ofWritten?, Shift.toJson, fields?_ofJson]
  case h => simp
  simp -implicitDefEqProofs [Entries.find?]

@[simp] theorem FileRow.recovers : Recovers FileRow.ofWritten? FileRow.toJson := by
  intro row
  rw [FileRow.ofWritten?, FileRow.toJson, fields?_ofJson]
  case h => simp
  simp -implicitDefEqProofs [textField?, optionalTextField?, Entries.find?]

@[simp] theorem Options.recovers : Recovers Options.ofWritten? Options.toJson := by
  intro options
  rw [Options.ofWritten?, Options.toJson, Options.fieldNames, fields?_ofJson]
  case h => simp
  have hseed := recovers_uint32.optional (fun _ h ↦ Json.noConfusion h) options.randomSeed
  simp -implicitDefEqProofs [Entries.find?, hseed]

/-! ### Their depth -/

section Plain

variable {depth : Nat}

@[simp] theorem Table.isPlain (table : Table) : IsPlain (depth + 3) table.toJson := by
  rw [toJson]
  apply IsPlain.object
  · simp
  · simp [isPlain_map isPlain_ofTexts]

@[simp] theorem DateParts.isPlain (date : DateParts) : IsPlain (depth + 1) date.toJson := by
  rw [toJson]
  apply IsPlain.object
  · simp
  · simp

@[simp] theorem TimeParts.isPlain (time : TimeParts) : IsPlain (depth + 1) time.toJson := by
  rw [toJson]
  apply IsPlain.object
  · simp
  · simp

@[simp] theorem Shift.isPlain (shift : Shift) : IsPlain (depth + 1) shift.toJson := by
  rw [toJson]
  apply IsPlain.object
  · simp
  · simp

@[simp] theorem FileRow.isPlain (row : FileRow) : IsPlain (depth + 1) row.toJson := by
  rw [toJson]
  apply IsPlain.object
  · simp
  · simp

@[simp] theorem Options.isPlain (options : Options) : IsPlain (depth + 1) options.toJson := by
  rw [toJson]
  apply IsPlain.object
  · simp
  · simp [isPlain_ofOption isPlain_ofUInt32]

end Plain

/-! ## Steps -/

namespace StepCall

variable (call : StepCall)

theorem nodup_names : ((("step", .string call.stepName) :: call.arguments).map Prod.fst).Nodup := by
  cases call <;> simp [arguments]

@[simp] theorem fields?_toJson (names : List String) : fields? names (ofJson call.toJson) =
    some (fieldsOf names (("step", .string call.stepName) :: call.arguments)) :=
  fields?_ofJson names call.nodup_names

/-- The arguments of a call are read back under the name of its step. -/
theorem ofArguments?_toJson : ofArguments? call.stepName (ofJson call.toJson) = some call := by
  -- Each step has its own arguments, but all are found and read by the same facts.
  cases call <;>
    simp -implicitDefEqProofs [stepName, ofArguments?, textField?, optionalTextField?, arguments,
      Entries.find?, FileRow.recovers.list _]

theorem isPlain_arguments (depth : Nat) :
    ∀ argument ∈ call.arguments, IsPlain (depth + 3) argument.2 := by
  cases call <;> simp [arguments, isPlain_map FileRow.isPlain]

@[simp] theorem isPlain (depth : Nat) : IsPlain (depth + 4) call.toJson := by
  apply IsPlain.object call.nodup_names
  rw [List.forall_mem_cons]
  exact ⟨.string _, call.isPlain_arguments depth⟩

/-- A call is read from the document of what is written for it, where there is room for its parts.
-/
theorem recovers (depth : Nat) : Recovers (ofWritten? (depth + 4)) toJson := by
  intro call
  have hdocument : ofJson call.toJson =
      .object (ofMembers (("step", .string call.stepName) :: call.arguments)) := rfl
  have hsound := sound_ofJson (call.isPlain depth)
  have hfields := call.fields?_toJson ["step"]
  have hread := call.ofArguments?_toJson
  rw [hdocument] at hsound hfields hread ⊢
  rw [fields?] at hfields
  rw [ofWritten?, if_pos hsound]
  simp [hfields, textField?, Entries.find?, hread]

end StepCall

/-! ## Scenarios -/

namespace Scenario

variable {scenario : Scenario}

theorem isPlain_toJson (h : scenario.expectedVariables.sorted.names.Nodup) :
    IsPlain maxDepth scenario.toJson := by
  have hvariables : IsPlain (maxDepth - 1) (.object
      (scenario.expectedVariables.sorted.map fun entry ↦ (entry.1, .string entry.2))) := by
    apply IsPlain.object
    · rw [List.map_map]
      exact h
    · intro member hmember
      obtain ⟨entry, -, rfl⟩ := List.mem_map.mp hmember
      exact .string entry.2
  have hsteps : IsPlain (maxDepth - 1) (.array (scenario.steps.map StepCall.toJson)) :=
    isPlain_map (fun call ↦ call.isPlain (maxDepth - 6)) scenario.steps
  have hoptions : IsPlain (maxDepth - 1) (.ofOption Options.toJson scenario.options) :=
    isPlain_ofOption Options.isPlain scenario.options
  rw [toJson]
  apply IsPlain.object
  · simp
  · simp only [List.forall_mem_cons]
    exact ⟨.string _, .string _, hoptions, hsteps, hvariables,
      fun _ h ↦ absurd h List.not_mem_nil⟩

theorem ofWritten?_toJson (h : scenario.expectedVariables.names.Pairwise (· < ·)) :
    ofWritten? (ofJson scenario.toJson) = some scenario := by
  have hsorted := Entries.sorted_eq_self h
  have hnodup : scenario.expectedVariables.names.Nodup := h.imp fun hlt ↦ (Std.ne_of_lt hlt)
  have hvariables : dictionary? text? (ofJson (.object
      (scenario.expectedVariables.map fun entry ↦ (entry.1, .string entry.2)))) =
        some scenario.expectedVariables := dictionary?_ofJson (fun _ _ ↦ rfl) hnodup
  have hoptions : optional? Options.ofWritten?
      (ofJson (.ofOption Options.toJson scenario.options)) = some scenario.options :=
    Options.recovers.optional (fun _ h ↦ Json.noConfusion h) _
  have hsteps : list? (StepCall.ofWritten? (maxDepth - 2))
      (ofJson (.array (scenario.steps.map StepCall.toJson))) = some scenario.steps :=
    (StepCall.recovers (maxDepth - 6)).list _
  rw [ofWritten?, toJson, fields?_ofJson]
  case h => simp
  simp -implicitDefEqProofs [textField?, Entries.find?, hsorted, hvariables, hoptions, hsteps]

/-- The expected variables of a scenario that is read are in the order of their names. -/
theorem pairwise_names_of_ofWritten? {document : Written}
    (h : ofWritten? document = some scenario) :
    scenario.expectedVariables.names.Pairwise (· < ·) := by
  simp only [ofWritten?, Option.bind_eq_bind, Option.bind_eq_some_iff] at h
  obtain ⟨fields, -, version, -, name, -, options, -, steps, -, expected, hexpected, heq⟩ := h
  cases heq
  rw [defaulted?] at hexpected
  split at hexpected
  · cases hexpected
    exact List.Pairwise.nil
  · obtain ⟨entries, hentries, rfl⟩ := Option.map_eq_some_iff.mp hexpected
    exact Entries.pairwise_names_sorted (nodup_names_of_dictionary? hentries)

/-- **Scenarios are read back.** A scenario is read from the text that is written for it, exactly if
its expected variables are in the order of their names; any other is read from no text at all. -/
theorem ofJsonText?_toJsonText_iff : ofJsonText? scenario.toJsonText = some scenario ↔
    scenario.expectedVariables.names.Pairwise (· < ·) := by
  constructor
  · intro h
    obtain ⟨document, -, hdocument⟩ := Option.bind_eq_some_iff.mp h
    exact pairwise_names_of_ofWritten? hdocument
  · intro h
    have hnodup : scenario.expectedVariables.sorted.names.Nodup := by
      rw [Entries.sorted_eq_self h]
      exact h.imp fun hlt ↦ Std.ne_of_lt hlt
    have hread := read?_compact (isPlain_toJson hnodup)
    rw [ofJsonText?, toJsonText, render, String.toList_ofList, hread, Option.bind_some,
      ofWritten?_toJson h]

end Scenario
end Playbook
