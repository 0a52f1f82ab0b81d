import Playbook.Proofs.Decimals
import Playbook.Proofs.Growth
import Playbook.Proofs.Pieces

/-!
# Splitting loses nothing

A text that is split at some characters is made up again of its pieces and of those characters. A
step that splits the text of a variable stores all the pieces, empty ones too, and another step
finds each of them by its place. The place is given as a text: its digits hold no placeholder and no
blank, so they are read as what they are.
-/

namespace Playbook

open Outcome

variable {σ : Type}

/-! ## Places -/

theorem Placeholder.names_digits (n : Nat) : names (Number.digits n) = [] :=
  names_eq_nil_of_notMem fun hbrace ↦ absurd (Number.isDigit_of_mem_digits hbrace) (by decide)

theorem Number.index?_digits {n : Nat} (h : n ≤ maxIndex) :
    index? (Text.trim (digits n)) = some n := by
  have hblank : ∀ c ∈ digits n, Text.isBlank c = false :=
    fun c hc ↦ Text.isBlank_of_isDigit (isDigit_of_mem_digits hc)
  have hcount : count? (digits n) = some n := by
    -- A digit is no sign.
    obtain ⟨c, cs, hcons, hdigit⟩ := exists_digits_eq_cons n
    have hplus : c ≠ '+' := by rintro rfl; exact absurd hdigit (by decide)
    rw [← natural?_digits n, hcons]
    unfold count?
    split
    next heq => exact absurd (List.cons.inj heq).1 hplus
    next => rfl
  rw [Text.trim_eq_self hblank, index?, hcount, Option.filter_some, if_pos (decide_eq_true h)]

namespace Scope

variable {scope : Scope} {collection : String} {value : Value} {i : Nat}

/-- The digits of a place name the item at that place. -/
theorem elementAt_digits (hactive : scope.isActive) (hi : i ≤ Number.maxIndex)
    (hvalue : scope.store.values.find? collection = some value) :
    scope.elementAt collection (String.ofList (Number.digits i)) =
      StepError.lift ((Variable.mk collection value).atIndex i) := by
  have hresolve : scope.resolve (String.ofList (Number.digits i)) =
      .ok (String.ofList (Number.digits i)) := by
    rw [resolve, resolveBy_eq_ok_iff, String.toList_ofList]
    exact ⟨hactive, Interpolator.resolve_of_names_eq_nil (Placeholder.names_digits i)⟩
  have hget : scope.store.get collection = .ok ⟨collection, value⟩ := by
    rw [Store.get, hvalue]
  rw [elementAt, hresolve]
  simp only [StepError.lift, Except.mapError, bind, Except.bind, String.toList_ofList,
    Number.index?_digits hi, hget]

/-- The text of a variable that is not null. -/
theorem textOf_eq_ok {name text : String} {missing : String → FailedAssertion}
    (hvalue : scope.store.values.find? name = some value)
    (htext : value.renderPresent? = some text) : scope.textOf name missing = .ok text := by
  have hexists : scope.store.requireExists name = .ok () :=
    Store.requireExists_eq_ok_iff.mpr (hvalue ▸ Option.some_ne_none value)
  have hfound : scope.store.text? name = some text := by
    rw [Store.text?, hvalue, Option.bind_some, htext]
  rw [textOf, hexists, hfound]
  rfl

end Scope

/-! ## Pieces -/

namespace Value

/-- The pieces of a split text are found by their places, and there are no others. -/
theorem atIndex_split (name text separators : String) (i : Nat) :
    (Variable.mk name (split text separators)).atIndex i =
      match (Text.splitAny separators.toList text)[i]? with
      | some piece => .ok (.string piece)
      | none => .error (.indexOutOfRange name i (Text.splitAny separators.toList text).length) := by
  have hitems : (Variable.mk name (split text separators)).items =
      .ok ((Text.splitAny separators.toList text).map .string) := rfl
  simp only [Variable.atIndex, hitems, bind, Except.bind, List.getElem?_map, List.length_map]
  cases (Text.splitAny separators.toList text)[i]? with
  | none => rfl
  | some piece => rfl

end Value

/-! ## Steps -/

open StepCall in
/-- **Splitting loses nothing.** Of the pieces that a text is split into there is one more than
there are separators in the text. No piece has a separator in it, and the pieces with the separators
between them, in their order, are the text. The step that splits the text of a variable stores these
pieces, and each of them is found again by the decimal of its place, up to the last one. -/
theorem Value.split_loses_nothing (services : Services σ) (text separators : String) :
    ∃ pieces : List String,
      split text separators = .sequence .string (pieces.map .string) ∧
      pieces.length = text.toList.countP separators.toList.contains + 1 ∧
      (∀ piece ∈ pieces, ∀ c ∈ piece.toList, c ∉ separators.toList) ∧
      Text.interleave (pieces.map String.toList) (text.toList.filter separators.toList.contains) =
        text.toList ∧
      (∀ (stage : Stage σ) (name target : String) (value : Value),
        stage.scope.Takes target → stage.scope.store.values.find? name = some value →
        value.renderPresent? = some text →
        (splitIntoSequence name separators target).run services stage =
          (.ok (), stage.grown target (split text separators))) ∧
      ∀ (stage : Stage σ) (collection target : String) (i : Nat),
        stage.scope.Takes target →
        stage.scope.store.values.find? collection = some (split text separators) →
        i ≤ Number.maxIndex →
        (storeElementAt collection (String.ofList (Number.digits i)) target).run services stage =
          match pieces[i]? with
          | some piece => (.ok (), stage.grown target (.string piece))
          | none => (.error (.ofVariable (.indexOutOfRange collection i pieces.length)), stage) := by
  refine ⟨Text.splitAny separators.toList text, rfl, ?_, ?_, ?_, ?_, ?_⟩
  · rw [Text.splitAny, List.length_map, Text.length_splitOnP]
  · intro piece hpiece c hc
    obtain ⟨cs, hcs, rfl⟩ := List.mem_map.mp hpiece
    rw [String.toList_ofList] at hc
    exact fun hmem ↦ Text.of_mem_splitOnP hcs c hc (List.contains_iff_mem.mpr hmem)
  · have hid : String.toList ∘ String.ofList = id := funext fun _ ↦ String.toList_ofList
    rw [Text.splitAny, List.map_map, hid, List.map_id]
    exact Text.interleave_splitOnP _ _
  · intro stage name target value htakes hvalue htext
    rw [StepCall.run, StepRun.createFrom_of_takes htakes, Scope.textOf_eq_ok hvalue htext]
    rfl
  · intro stage collection target i htakes hvalue hi
    rw [StepCall.run, StepRun.createFrom_of_takes htakes,
      Scope.elementAt_digits htakes.isActive hi hvalue, atIndex_split]
    cases (Text.splitAny separators.toList text)[i]? with
    | none => rfl
    | some piece => rfl

open StepCall in
/-- A separator at the start leaves an empty piece there, and after the fourth piece there is no
fifth. -/
theorem Value.split_loses_nothing_line :
    let stage : Stage FileTree :=
      { scope :=
          { id := 1, interpolator := .default, random := ⟨0⟩,
            store := { values := [("line", .string ";a b;c")] } },
        world := {} }
    let after := stage.grown "cells" (split ";a b;c" "; ")
    stage.scope.Takes "cells" ∧ after.scope.Takes "cell" ∧
      (splitIntoSequence "line" "; " "cells").run (.local Draw.epoch) stage = (.ok (), after) ∧
      (storeElementAt "cells" "0" "cell").run (.local Draw.epoch) after =
        (.ok (), after.grown "cell" (.string "")) ∧
      (storeElementAt "cells" "4" "cell").run (.local Draw.epoch) after =
        (.error (.ofVariable (.indexOutOfRange "cells" 4 4)), after) := by
  intro stage after
  have hstage : stage.scope.Takes "cells" := ⟨rfl, rfl, rfl, by decide⟩
  have hafter : after.scope.Takes "cell" := ⟨rfl, rfl, rfl, by decide⟩
  obtain ⟨pieces, hpieces, -, -, -, hsplit, helement⟩ :=
    split_loses_nothing (.local Draw.epoch) ";a b;c" "; "
  obtain rfl : pieces = ["", "a", "b", "c"] := by
    have hsame : pieces.map Value.string = ["", "a", "b", "c"].map .string :=
      (Value.sequence.inj hpieces).2.symm
    exact List.map_injective_iff.mpr (fun _ _ ↦ Value.string.inj) hsame
  exact ⟨hstage, hafter, hsplit stage "line" "cells" (.string ";a b;c") hstage rfl rfl,
    helement after "cells" "cell" 0 hafter rfl (by decide),
    helement after "cells" "cell" 4 hafter rfl (by decide)⟩

end Playbook
