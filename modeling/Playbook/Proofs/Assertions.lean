import Playbook.Proofs.StepEffect
import Mathlib.Data.List.Infix

/-!
# Assertions

A call that asserts something of a variable changes nothing. If the variable is there, the call
decides a proposition about its value: it succeeds where that holds, and fails as an assertion where
it does not (`StepCall.Decides`). So of two calls that decide opposite propositions one succeeds
and the other fails (`StepCall.Opposed`), and one call implies another if the propositions do.

What the six comparisons of texts decide is how the text of the variable is put together from the
expected one and others (`TextCheck.Relates`). A null has no text to compare.
-/

namespace Playbook

variable {σ : Type}

/-! ## Comparing texts -/

/-- Searching finds a piece wherever it stands. -/
theorem Text.occursIn_iff_infix {piece text : List Char} :
    occursIn piece text ↔ piece <:+: text := by
  induction text with
  | nil => rw [occursIn, List.isEmpty_iff, List.infix_nil]
  | cons c rest ih =>
    rw [occursIn, Bool.or_eq_true, List.isPrefixOf_iff_prefix, ih, List.infix_cons_iff]

namespace TextCheck

variable {actual expected : String}

/-- How a text is related to an expected one where a check holds of them. -/
def Relates (actual expected : String) : TextCheck → Prop
  | .equals => actual = expected
  | .notEquals => actual ≠ expected
  | .contains => ∃ before rest, actual = before ++ expected ++ rest
  | .notContains => ¬∃ before rest, actual = before ++ expected ++ rest
  | .startsWith => ∃ rest, actual = expected ++ rest
  | .endsWith => ∃ before, actual = before ++ expected

theorem toList_prefix_iff :
    expected.toList <+: actual.toList ↔ ∃ rest, actual = expected ++ rest := by
  constructor
  · rintro ⟨rest, h⟩
    refine ⟨String.ofList rest, String.toList_injective ?_⟩
    rw [String.toList_append, String.toList_ofList, h]
  · rintro ⟨rest, rfl⟩
    rw [String.toList_append]
    exact List.prefix_append _ _

theorem toList_suffix_iff :
    expected.toList <:+ actual.toList ↔ ∃ before, actual = before ++ expected := by
  constructor
  · rintro ⟨before, h⟩
    refine ⟨String.ofList before, String.toList_injective ?_⟩
    rw [String.toList_append, String.toList_ofList, h]
  · rintro ⟨before, rfl⟩
    rw [String.toList_append]
    exact List.suffix_append _ _

theorem toList_infix_iff :
    expected.toList <:+: actual.toList ↔ ∃ before rest, actual = before ++ expected ++ rest := by
  constructor
  · rintro ⟨before, rest, h⟩
    refine ⟨String.ofList before, String.ofList rest, String.toList_injective ?_⟩
    rw [String.toList_append, String.toList_append, String.toList_ofList, String.toList_ofList, h]
  · rintro ⟨before, rest, rfl⟩
    rw [String.toList_append, String.toList_append]
    exact List.infix_append _ _ _

/-- A check holds of two texts exactly where they are related as it says. -/
theorem holds_iff (check : TextCheck) :
    check.holds actual.toList expected.toList ↔ check.Relates actual expected := by
  cases check with
  | equals => rw [holds, decide_eq_true_iff, String.toList_inj, Relates]
  | notEquals => rw [holds, decide_eq_true_iff, ne_eq, String.toList_inj, Relates]
  | contains => rw [holds, Text.occursIn_iff_infix, toList_infix_iff, Relates]
  | notContains =>
    rw [holds, Bool.not_eq_true', ← Bool.not_eq_true, Text.occursIn_iff_infix, toList_infix_iff,
      Relates]
  | startsWith => rw [holds, List.isPrefixOf_iff_prefix, toList_prefix_iff, Relates]
  | endsWith => rw [holds, List.isSuffixOf_iff_suffix, toList_suffix_iff, Relates]

namespace Relates

theorem startsWith_of_equals (h : Relates actual expected .equals) :
    Relates actual expected .startsWith := ⟨"", by rw [String.append_empty]; exact h⟩

theorem endsWith_of_equals (h : Relates actual expected .equals) :
    Relates actual expected .endsWith := ⟨"", by rw [String.empty_append]; exact h⟩

theorem contains_of_startsWith (h : Relates actual expected .startsWith) :
    Relates actual expected .contains := by
  obtain ⟨rest, h⟩ := h
  exact ⟨"", rest, by rw [String.empty_append]; exact h⟩

theorem contains_of_endsWith (h : Relates actual expected .endsWith) :
    Relates actual expected .contains := by
  obtain ⟨before, h⟩ := h
  exact ⟨before, "", by rw [String.append_empty]; exact h⟩

end Relates
end TextCheck

/-! ## Calls that decide -/

namespace StepCall

/-- The calls that assert something of a variable. -/
inductive Asserts (name : String) : StepCall → Prop
  | text (check : TextCheck) (expected : String) : Asserts name (.assertText name check expected)
  | null : Asserts name (.assertNull name)
  | notNull : Asserts name (.assertNotNull name)
  | empty : Asserts name (.assertEmpty name)
  | notEmpty : Asserts name (.assertNotEmpty name)

variable (services : Services σ) (stage : Stage σ) (call other : StepCall)

/-- Whether a call succeeds and changes nothing. -/
def Succeeds : Prop := call.run services stage = (.ok (), stage)

/-- Whether a call fails as an assertion and changes nothing. -/
def Fails : Prop := ∃ failed, call.run services stage = (.error (.assertion failed), stage)

/-- Whether exactly one of two calls succeeds, and the other one fails as an assertion. -/
def Opposed : Prop :=
  (call.Succeeds services stage ∧ other.Fails services stage) ∨
    (call.Fails services stage ∧ other.Succeeds services stage)

/-- Whether a call succeeds where a proposition holds, and fails as an assertion where it does
not. -/
structure Decides (p : Prop) : Prop where
  succeeds : p → call.Succeeds services stage
  fails : ¬p → call.Fails services stage

variable {services stage call other} {p : Prop}

theorem Decides.succeeds_iff (h : call.Decides services stage p) :
    call.Succeeds services stage ↔ p := by
  refine ⟨fun hsucceeds ↦ ?_, h.succeeds⟩
  by_contra hp
  obtain ⟨failed, hfails⟩ := h.fails hp
  rw [Succeeds, hfails] at hsucceeds
  cases hsucceeds

theorem Decides.opposed (h : call.Decides services stage p)
    (h' : other.Decides services stage (¬p)) : Opposed services stage call other := by
  by_cases hp : p
  · exact .inl ⟨h.succeeds hp, h'.fails (not_not.mpr hp)⟩
  · exact .inr ⟨h.fails hp, h'.succeeds hp⟩

end StepCall

/-! ## Looking at a variable -/

section Lookup

variable {scope : Scope} {name expected e : String} {value : Value}

theorem Value.isNull_iff : value.isNull ↔ value = .null := by cases value <;> simp [isNull]

theorem Store.get_of_absent {store : Store} (h : store.values.find? name = none) :
    store.get name = .error (.notFound name) := by rw [get, h]

theorem Store.requireExists_of_absent {store : Store} (h : store.values.find? name = none) :
    store.requireExists name = .error (.notFound name) := by
  rw [requireExists, if_neg fun hcontains ↦ contains_iff.mp hcontains h]

namespace Scope

variable (hvalue : scope.store.values.find? name = some value)
include hvalue

theorem get_of_present : scope.store.get name = .ok ⟨name, value⟩ := by rw [Store.get, hvalue]

theorem requireExists_of_present : scope.store.requireExists name = .ok () :=
  Store.requireExists_eq_ok_iff.mpr (hvalue ▸ Option.some_ne_none value)

theorem text?_of_present : scope.store.text? name = value.renderPresent? := by
  rw [Store.text?, hvalue, Option.bind_some]

theorem demandNull_of_present :
    scope.demandNull name =
      if value.isNull then .ok () else .error (.assertion (.notNull name)) := by
  rw [demandNull, get_of_present hvalue]
  rfl

theorem demandNotNull_of_present :
    scope.demandNotNull name =
      if ¬value.isNull then .ok () else .error (.assertion (.null name)) := by
  rw [demandNotNull, get_of_present hvalue, ite_not]
  rfl

/-- A null has no text, and shows as little as one with a blank text. -/
theorem visibleText?_of_present :
    scope.visibleText? name =
      .ok (if Text.allBlank value.text then none else some value.render) := by
  rw [visibleText?, requireExists_of_present hvalue, text?_of_present hvalue]
  refine congrArg Except.ok ?_
  cases hnull : value.isNull with
  | true =>
    rw [Value.renderPresent?, hnull, Value.isNull_iff.mp hnull]
    rfl
  | false =>
    rw [Value.renderPresent?, hnull, if_neg Bool.false_ne_true, Option.filter_some,
      Value.render, String.toList_ofList]
    cases Text.allBlank value.text <;> rfl

theorem demandEmpty_of_present :
    scope.demandEmpty name =
      if Text.allBlank value.text then .ok ()
      else .error (.assertion (.notEmpty name value.render)) := by
  rw [demandEmpty, visibleText?_of_present hvalue]
  cases Text.allBlank value.text <;> rfl

theorem demandNotEmpty_of_present :
    scope.demandNotEmpty name =
      if ¬Text.allBlank value.text then .ok () else .error (.assertion (.empty name)) := by
  rw [demandNotEmpty, visibleText?_of_present hvalue, ite_not]
  cases Text.allBlank value.text <;> rfl

theorem compareText_of_present (check : TextCheck)
    (hexpected : scope.resolveOrLiteral expected = .ok e) :
    scope.compareText name check expected =
      match value.renderPresent? with
      | none => .error (.assertion (.nullText name check e))
      | some actual =>
        if check.holds actual.toList e.toList then .ok ()
        else .error (.assertion (.otherText name actual check e)) := by
  rw [compareText, requireExists_of_present hvalue, hexpected, text?_of_present hvalue]
  rfl

/-- A null is no text, and not even like the empty one. -/
theorem exists_compareText_of_present (check : TextCheck)
    (hexpected : scope.resolveOrLiteral expected = .ok e) :
    ∃ failed, scope.compareText name check expected =
      if ¬value.isNull ∧ check.holds value.render.toList e.toList then .ok ()
      else .error (.assertion failed) := by
  rw [compareText_of_present hvalue check hexpected, Value.renderPresent?]
  cases hnull : value.isNull with
  | true => exact ⟨.nullText name check e, rfl⟩
  | false => exact ⟨.otherText name value.render check e, by simp⟩

end Scope
end Lookup

/-! ## What is asserted -/

/-- A call that only looks at the scope leaves the stage as it is. -/
theorem StepRun.inspect_of_eq {stage : Stage σ} (hactive : stage.scope.isActive)
    (check : Scope → Except StepError Unit) :
    inspect (fun scope ↦ Work.of (check scope)) stage = (check stage.scope, stage) := by
  rw [inspect_of_isActive hactive]
  rfl

namespace StepCall

variable {services : Services σ} {stage : Stage σ} {name : String} {value : Value}
  (hactive : stage.scope.isActive)
include hactive

/-- An assertion about a variable that is absent is refused for that. -/
theorem run_of_asserts_absent (habsent : stage.scope.store.values.find? name = none)
    {call : StepCall} (hcall : call.Asserts name) :
    call.run services stage = (.error (.ofVariable (.notFound name)), stage) := by
  have hget := Store.get_of_absent habsent
  have hexists := Store.requireExists_of_absent habsent
  cases hcall with
  | text check expected =>
    rw [run, StepRun.inspect_of_eq hactive, Scope.compareText, hexists]
    rfl
  | null =>
    rw [run, StepRun.inspect_of_eq hactive, Scope.demandNull, hget]
    rfl
  | notNull =>
    rw [run, StepRun.inspect_of_eq hactive, Scope.demandNotNull, hget]
    rfl
  | empty =>
    rw [run, StepRun.inspect_of_eq hactive, Scope.demandEmpty, Scope.visibleText?, hexists]
    rfl
  | notEmpty =>
    rw [run, StepRun.inspect_of_eq hactive, Scope.demandNotEmpty, Scope.visibleText?, hexists]
    rfl

/-- A call decides what its check of the scope decides. -/
theorem decides_of_check {call : StepCall} {check : Scope → Except StepError Unit} {p : Prop}
    [Decidable p] (hrun : call.run services = StepRun.inspect fun scope ↦ Work.of (check scope))
    (hcheck : ∃ failed, check stage.scope = if p then .ok () else .error (.assertion failed)) :
    call.Decides services stage p := by
  obtain ⟨failed, hcheck⟩ := hcheck
  constructor
  · intro hp
    rw [Succeeds, hrun, StepRun.inspect_of_eq hactive, hcheck, if_pos hp]
  · intro hp
    exact ⟨failed, by rw [hrun, StepRun.inspect_of_eq hactive, hcheck, if_neg hp]⟩

variable (hvalue : stage.scope.store.values.find? name = some value)
include hvalue

theorem decides_assertNull : (StepCall.assertNull name).Decides services stage (value = .null) := by
  rw [← Value.isNull_iff]
  exact decides_of_check hactive rfl ⟨_, Scope.demandNull_of_present hvalue⟩

theorem decides_assertNotNull :
    (StepCall.assertNotNull name).Decides services stage (¬value = .null) := by
  rw [← Value.isNull_iff]
  exact decides_of_check hactive rfl ⟨_, Scope.demandNotNull_of_present hvalue⟩

theorem decides_assertEmpty :
    (StepCall.assertEmpty name).Decides services stage (Text.allBlank value.text) :=
  decides_of_check hactive rfl ⟨_, Scope.demandEmpty_of_present hvalue⟩

theorem decides_assertNotEmpty :
    (StepCall.assertNotEmpty name).Decides services stage (¬Text.allBlank value.text) :=
  decides_of_check hactive rfl ⟨_, Scope.demandNotEmpty_of_present hvalue⟩

theorem decides_assertText (check : TextCheck) {expected e : String}
    (hexpected : stage.scope.resolveOrLiteral expected = .ok e) :
    (StepCall.assertText name check expected).Decides services stage
      (value ≠ .null ∧ check.Relates value.render e) := by
  rw [← TextCheck.holds_iff check, ne_eq, ← Value.isNull_iff]
  exact decides_of_check hactive rfl (Scope.exists_compareText_of_present hvalue check hexpected)

end StepCall

/-- **Assertions agree with each other.** In an active scope every assertion about an absent
variable is refused for that. Of a variable that is there, exactly one of two opposite assertions
succeeds: that it is null or that it is not, that it is empty or that it is not, where a null is
empty and so is every blank text. For an expected text that can be resolved, a null fails all
comparisons. Any other value has a text, and a comparison succeeds where that is the expected text,
or where the expected text is at its front, at its end or somewhere in it, so that the comparisons
imply each other as these do. -/
theorem StepCall.run_assertions_agree (services : Services σ) {stage : Stage σ}
    (hactive : stage.scope.isActive) (name : String) :
    (stage.scope.store.values.find? name = none → ∀ call, Asserts name call →
      call.run services stage = (.error (.ofVariable (.notFound name)), stage)) ∧
    ∀ value, stage.scope.store.values.find? name = some value →
      Opposed services stage (.assertNull name) (.assertNotNull name) ∧
      Opposed services stage (.assertEmpty name) (.assertNotEmpty name) ∧
      ((StepCall.assertNull name).Succeeds services stage ↔ value = .null) ∧
      ((StepCall.assertEmpty name).Succeeds services stage ↔ Text.allBlank value.text) ∧
      ((StepCall.assertNull name).Succeeds services stage →
        (StepCall.assertEmpty name).Succeeds services stage) ∧
      ∀ expected e, stage.scope.resolveOrLiteral expected = .ok e →
        let text (check : TextCheck) : StepCall := .assertText name check expected
        (value = .null → ∀ check, (text check).Fails services stage) ∧
        (value ≠ .null →
          Opposed services stage (text .equals) (text .notEquals) ∧
          Opposed services stage (text .contains) (text .notContains) ∧
          ((text .equals).Succeeds services stage ↔ value.render = e) ∧
          ((text .startsWith).Succeeds services stage ↔ ∃ rest, value.render = e ++ rest) ∧
          ((text .endsWith).Succeeds services stage ↔ ∃ before, value.render = before ++ e) ∧
          ((text .contains).Succeeds services stage ↔
            ∃ before rest, value.render = before ++ e ++ rest) ∧
          ((text .equals).Succeeds services stage →
            (text .startsWith).Succeeds services stage ∧ (text .endsWith).Succeeds services stage) ∧
          ((text .startsWith).Succeeds services stage ∨ (text .endsWith).Succeeds services stage →
            (text .contains).Succeeds services stage)) := by
  refine ⟨fun habsent call hcall ↦ run_of_asserts_absent hactive habsent hcall,
    fun value hvalue ↦ ?_⟩
  have hnull : (StepCall.assertNull name).Decides services stage (value = .null) :=
    decides_assertNull hactive hvalue
  have hempty : (StepCall.assertEmpty name).Decides services stage (Text.allBlank value.text) :=
    decides_assertEmpty hactive hvalue
  refine ⟨hnull.opposed (decides_assertNotNull hactive hvalue),
    hempty.opposed (decides_assertNotEmpty hactive hvalue), hnull.succeeds_iff, hempty.succeeds_iff,
    fun hsucceeds ↦ ?_, fun expected e hexpected ↦ ?_⟩
  · rw [hempty.succeeds_iff, hnull.succeeds_iff.mp hsucceeds]
    rfl
  intro text
  have hcompared : ∀ check, (text check).Decides services stage
      (value ≠ .null ∧ check.Relates value.render e) :=
    fun check ↦ decides_assertText hactive hvalue check hexpected
  refine ⟨fun hvalue check ↦ (hcompared check).fails fun h ↦ h.1 hvalue, fun hne ↦ ?_⟩
  have htext : ∀ check, (text check).Decides services stage (check.Relates value.render e) := by
    intro check
    have hdecides := hcompared check
    rwa [and_iff_right hne] at hdecides
  have hsucceeds := fun check ↦ (htext check).succeeds_iff
  refine ⟨(htext .equals).opposed (htext .notEquals),
    (htext .contains).opposed (htext .notContains), hsucceeds .equals, hsucceeds .startsWith,
    hsucceeds .endsWith, hsucceeds .contains, ?_, ?_⟩
  · rw [hsucceeds, hsucceeds, hsucceeds]
    exact fun h ↦ ⟨h.startsWith_of_equals, h.endsWith_of_equals⟩
  · rw [hsucceeds, hsucceeds, hsucceeds]
    rintro (h | h)
    · exact h.contains_of_startsWith
    · exact h.contains_of_endsWith

/-- The number 1500 starts with what another variable holds, a blank text is empty and not null, and
a null does not even equal the empty text. -/
theorem StepCall.run_assertions_agree_blank :
    let scope : Scope :=
      { id := 1, interpolator := .default, random := ⟨0⟩,
        store := { values := [("total", .long 1500), ("start", .string "15"),
          ("blank", .string " \t"), ("nothing", .null)] } }
    let stage : Stage FileTree := ⟨scope, {}⟩
    let services := Services.local Draw.epoch
    stage.scope.isActive ∧
      (StepCall.assertText "other" .equals "").run services stage =
        (.error (.ofVariable (.notFound "other")), stage) ∧
      (StepCall.assertText "total" .startsWith "\x7bstart\x7d").Succeeds services stage ∧
      (StepCall.assertNotNull "blank").Succeeds services stage ∧
      (StepCall.assertEmpty "blank").Succeeds services stage ∧
      (StepCall.assertText "nothing" .equals "").Fails services stage := by
  intro scope stage services
  have hactive : stage.scope.isActive := rfl
  have hagree := StepCall.run_assertions_agree services hactive
  obtain ⟨-, -, -, -, -, htotal⟩ := (hagree "total").2 (.long 1500) rfl
  obtain ⟨-, -, -, hstart, -⟩ := (htotal "\x7bstart\x7d" "15" (by decide +kernel)).2 nofun
  obtain ⟨hnull, -, hnullIff, hemptyIff, -⟩ := (hagree "blank").2 (.string " \t") rfl
  obtain ⟨-, -, -, -, -, hnothing⟩ := (hagree "nothing").2 .null rfl
  refine ⟨hactive, (hagree "other").1 rfl _ (.text .equals ""),
    hstart.mpr ⟨"00", by decide +kernel⟩, ?_, hemptyIff.mpr (by decide +kernel),
    (hnothing "" "" (by decide +kernel)).1 rfl .equals⟩
  rcases hnull with ⟨hsucceeds, -⟩ | ⟨-, hsucceeds⟩
  · cases hnullIff.mp hsucceeds
  · exact hsucceeds

end Playbook
