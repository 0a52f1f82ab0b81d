import Playbook.Proofs.Growth
import Playbook.Proofs.Scanning

/-!
# Filling in one variable

A template is filled in with the text of one variable by a plain search: every occurrence of the
name in braces gives way to the text. The search knows nothing of placeholders, and a template may
have braces around the name and next to it. It finds what the scanner finds all the same. Where the
name stands in braces is a placeholder, as no two such places overlap; and where it does not, the
search goes on to the next segment without a change.

So a filled template is told segment by segment (`Segment.filled`), and what has been put in is no
segment of the template, whatever braces it brings along.
-/

namespace Playbook

/-! ## Replacing -/

namespace Text

variable {pattern before : List Char} (replacement rest : List Char)

theorem replaceFrom_eq_replaceAll_drop (pattern : List Char) (skip : Nat) (cs : List Char) :
    replaceFrom pattern replacement skip cs = replaceAll pattern replacement (cs.drop skip) := by
  induction cs generalizing skip with
  | nil => simp [replaceAll, replaceFrom]
  | cons c cs ih =>
    cases skip with
    | zero => rfl
    | succ skip => rw [replaceFrom, ih, List.drop_succ_cons]

/-- An occurrence at the start gives way, and the search goes on after it. -/
theorem replaceAll_append_self (h : pattern ≠ []) :
    replaceAll pattern replacement (pattern ++ rest) =
      replacement ++ replaceAll pattern replacement rest := by
  obtain ⟨c, cs, rfl⟩ := List.exists_cons_of_ne_nil h
  have hprefix : (c :: cs).isPrefixOf (c :: (cs ++ rest)) :=
    List.isPrefixOf_iff_prefix.mpr (List.prefix_append (c :: cs) rest)
  rw [replaceAll, List.cons_append, replaceFrom, if_pos hprefix, replaceFrom_eq_replaceAll_drop,
    List.length_cons, Nat.add_sub_cancel, List.drop_left]

/-- A text in which no occurrence starts stays as it is. -/
theorem replaceAll_append_of_absent
    (h : ∀ place < before.length, ¬pattern <+: (before ++ rest).drop place) :
    replaceAll pattern replacement (before ++ rest) =
      before ++ replaceAll pattern replacement rest := by
  induction before with
  | nil => rfl
  | cons c before ih =>
    have hfirst : ¬pattern.isPrefixOf (c :: (before ++ rest)) := by
      rw [List.isPrefixOf_iff_prefix]
      exact h 0 (Nat.succ_pos _)
    have hlater : ∀ place < before.length, ¬pattern <+: (before ++ rest).drop place :=
      fun place hplace ↦ h (place + 1) (Nat.succ_lt_succ hplace)
    rw [List.cons_append, replaceAll, replaceFrom, if_neg hfirst]
    exact congrArg (c :: ·) (ih hlater)

end Text

/-! ## Segment by segment -/

open Placeholder

/-- What a segment becomes when a variable is filled in: a placeholder of the variable becomes the
given text, and all else stays as it is. -/
def Segment.filled (name : String) (replacement : List Char) : Segment → List Char
  | .literal c => [c]
  | .placeholder other => if other = name then replacement else written other

/-- **Replacing a name in braces** is filling in the placeholders of that name. -/
theorem Segment.replaceAll_written {name : String} (hname : IsProper name.toList)
    (replacement template : List Char) :
    Text.replaceAll (written name) replacement template =
      (scan template).flatMap (filled name replacement) := by
  have hsearched := searched_scan template
  generalize scan template = segments at hsearched ⊢
  induction hsearched with
  | done => rfl
  | @found other rest segments hmatch _ ih =>
    have hother := matches_written_iff.mp hmatch
    rw [List.flatMap_cons, filled, ← ih]
    by_cases hsame : other = name
    · rw [if_pos hsame, hsame]
      exact Text.replaceAll_append_self replacement rest nofun
    · rw [if_neg hsame]
      apply Text.replaceAll_append_of_absent
      intro place hplace hprefix
      rcases Nat.eq_zero_or_pos place with rfl | hpos
      · have hat := nameAt?_eq_some_iff_occursAt.mpr ⟨hname, hprefix⟩
        rw [nameAt?_written_append hother, Option.some_inj] at hat
        exact hsame (String.toList_injective hat)
      · exact not_occursAt_written hother hpos hplace ⟨hname, hprefix⟩
  | @passed c rest segments hnone _ ih =>
    rw [List.flatMap_cons, filled, ← ih]
    have habsent : ∀ place < [c].length, ¬written name <+: ([c] ++ rest).drop place := by
      intro place hplace hprefix
      obtain rfl : place = 0 := Nat.lt_one_iff.mp hplace
      exact hnone _ hprefix (matches_written_iff.mpr hname)
    exact Text.replaceAll_append_of_absent replacement rest habsent

/-! ## The call -/

variable {σ : Type}

/-- The text of a variable, or nothing if it is null. -/
theorem Store.getD_text? {store : Store} {name : String} {value : Value}
    (h : store.values.find? name = some value) :
    ((store.text? name).getD "").toList = value.text := by
  rw [Store.text?, h, Option.bind_some, Value.renderPresent?]
  by_cases hnull : value.isNull
  · rw [if_pos hnull]
    cases value with
    | null => rfl
    | _ => exact absurd hnull Bool.false_ne_true
  · rw [if_neg hnull]
    exact String.toList_ofList

theorem Scope.substituted_eq_ok_iff {scope : Scope} {name template out : String}
    (hname : IsProper name.toList) :
    scope.substituted name template = .ok out ↔
      ∃ value, scope.store.values.find? name = some value ∧
        out = String.ofList
          ((Segment.scan template.toList).flatMap (Segment.filled name value.text)) := by
  rw [substituted, Outcome.then_eq_ok_iff, StepError.lift_eq_ok_iff, Store.requireExists_eq_ok_iff]
  constructor
  · rintro ⟨hpresent, hout⟩
    obtain ⟨value, hvalue⟩ := Option.ne_none_iff_exists'.mp hpresent
    refine ⟨value, hvalue, ?_⟩
    rw [← Segment.replaceAll_written hname, ← Store.getD_text? hvalue]
    exact (Except.ok.inj hout).symm
  · rintro ⟨value, hvalue, rfl⟩
    refine ⟨hvalue ▸ Option.some_ne_none value, ?_⟩
    rw [← Segment.replaceAll_written hname, ← Store.getD_text? hvalue]

/-- **Filling in a template.** In an active scope that takes a new variable, a call with the name of
a placeholder stores the template with the text of the variable, which is nothing if it is null, in
every place where the scanner finds a placeholder of that name. All other placeholders and
characters are as they were, and what is put in is not searched. -/
theorem StepCall.run_substituteVariable_eq_ok_iff (services : Services σ) {name : String}
    (hname : IsProper name.toList) (template target : String) (stage after : Stage σ) :
    (StepCall.substituteVariable name template target).run services stage = (.ok (), after) ↔
      (stage.scope.isActive ∧ stage.scope.store.values.find? target = none) ∧
        target ≠ "" ∧ stage.scope.store.closed = false ∧
        ∃ value, stage.scope.store.values.find? name = some value ∧
          after = stage.grown target (.string (String.ofList
            ((Segment.scan template.toList).flatMap (Segment.filled name value.text)))) := by
  rw [StepCall.run, StepRun.createFrom_eq_ok_iff]
  refine and_congr_right fun _ ↦ ?_
  constructor
  · rintro ⟨v, hv, htarget, hopen, rfl⟩
    obtain ⟨text, htext, hstring⟩ := Outcome.bind_eq_ok_iff.mp hv
    obtain ⟨value, hvalue, rfl⟩ := (Scope.substituted_eq_ok_iff hname).mp htext
    exact ⟨htarget, hopen, value, hvalue, by rw [← Except.ok.inj hstring]⟩
  · rintro ⟨htarget, hopen, value, hvalue, rfl⟩
    exact ⟨_, Outcome.bind_eq_ok_iff.mpr
      ⟨_, (Scope.substituted_eq_ok_iff hname).mpr ⟨value, hvalue, rfl⟩, rfl⟩, htarget, hopen, rfl⟩

/-- A brace may stand in front of the name in braces, a name with a blank in front is another text,
and what is put in may spell the name again. -/
theorem StepCall.run_substituteVariable_eq_ok_iff_nested :
    let stage : Stage FileTree :=
      { scope :=
          { id := 1, interpolator := .default, random := ⟨0⟩,
            store := { values := [("id", .string "<\x7bid\x7d>")] } },
        world := {} }
    IsProper "id".toList ∧
      (StepCall.substituteVariable "id" "\x7b\x7bid\x7d\x7b id\x7d\x7bpage\x7d" "url").run
          (.local Draw.epoch) stage =
        (.ok (), stage.grown "url" (.string "\x7b<\x7bid\x7d>\x7b id\x7d\x7bpage\x7d")) := by
  intro stage
  have hname : IsProper "id".toList := isName_iff.mp (by decide)
  have htext : String.ofList ((Segment.scan "\x7b\x7bid\x7d\x7b id\x7d\x7bpage\x7d".toList).flatMap
      (Segment.filled "id" (Value.string "<\x7bid\x7d>").text)) =
        "\x7b<\x7bid\x7d>\x7b id\x7d\x7bpage\x7d" := by decide +kernel
  refine ⟨hname, ?_⟩
  rw [StepCall.run_substituteVariable_eq_ok_iff _ hname]
  exact ⟨⟨rfl, rfl⟩, by decide, rfl, .string "<\x7bid\x7d>", rfl, by rw [htext]⟩

end Playbook
