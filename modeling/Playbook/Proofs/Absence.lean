import Playbook.Proofs.Settling
import Playbook.Proofs.StoreUpdate

/-!
# What an absent variable decides

Where absent variables are errors, to look one up is to fail at once, with an error that names it.
So a run that does not fail with that error has not looked the variable up, and it comes out alike,
as the same text or with the same error, if the variable is there after all.

Nothing is said here about which names a run looks up. Two runs, without the variable and with it,
are compared part by part (`Repeats`): they agree on each segment, hence on each pass, hence on
the passes one after the other, and where they do not, the first has already failed.
-/

namespace Playbook

open Placeholder Outcome

namespace Interpolator

variable {values values' : Variables} {name : String}

/-- The only segment on which the runs may differ is the placeholder of the variable itself. -/
theorem expandSegment_repeats (habsent : values.text? name = none)
    (hagree : ∀ other, other ≠ name → values'.text? other = values.text? other)
    {inner inner' : List String → List Char → Except VariableError (List Char)}
    (hinner : ∀ chain text, Repeats (.notFound name) (inner chain text) (inner' chain text))
    (chain : List String) (segment : Segment) :
    Repeats (.notFound name) (expandSegment values .fail inner chain segment)
      (expandSegment values' .fail inner' chain segment) := by
  cases segment with
  | literal c => exact .refl _ _
  | placeholder other =>
    by_cases hname : other = name
    · left
      rw [hname, expandSegment, habsent]
    · rw [expandSegment, expandSegment, hagree other hname]
      cases values.text? other with
      | none => exact .refl _ _
      | some text =>
        dsimp only
        by_cases hchain : other ∈ chain
        · rw [if_pos hchain, if_pos hchain]
          exact .refl _ _
        · by_cases hocc : occursIn text
          · rw [if_neg hchain, if_neg hchain, if_pos hocc, if_pos hocc]
            exact hinner _ _
          · rw [if_neg hchain, if_neg hchain, if_neg hocc, if_neg hocc]
            exact .refl _ _

theorem expand_repeats (habsent : values.text? name = none)
    (hagree : ∀ other, other ≠ name → values'.text? other = values.text? other) (depth : Nat)
    (chain : List String) (text : List Char) :
    Repeats (.notFound name) (expand values .fail depth chain text)
      (expand values' .fail depth chain text) := by
  induction depth generalizing chain text with
  | zero =>
    rw [expand, expand]
    exact (Repeats.mapM fun segment _ ↦
      expandSegment_repeats habsent hagree (fun _ _ ↦ .refl _ _) chain segment).map _
  | succ depth ih =>
    rw [expand, expand]
    exact (Repeats.mapM fun segment _ ↦
      expandSegment_repeats habsent hagree ih chain segment).map _

/-- The loop does not look at variables itself, so it goes the same way as long as its passes do. -/
theorem settle_repeats {e : VariableError}
    {pass pass' : List Char → Except VariableError (List Char)}
    (hpass : ∀ text, Repeats e (pass text) (pass' text)) (left : Nat) (seen : List String)
    (text : List Char) : Repeats e (settle pass left seen text) (settle pass' left seen text) := by
  have hsettled : ∀ left seen text, names text = [] →
      Repeats e (settle pass left seen text) (settle pass' left seen text) := by
    intro left seen text hnil
    rw [settle_of_names_eq_nil hnil, settle_of_names_eq_nil hnil]
    exact .refl _ _
  induction left generalizing seen text with
  | zero =>
    cases hfirst : first? text with
    | none => exact hsettled _ _ _ (first?_eq_none_iff.mp hfirst)
    | some first =>
      rw [settle_zero hfirst, settle_zero hfirst]
      exact .refl _ _
  | succ left ih =>
    cases hfirst : first? text with
    | none => exact hsettled _ _ _ (first?_eq_none_iff.mp hfirst)
    | some first =>
      rw [settle_succ hfirst, settle_succ hfirst]
      refine (hpass text).bind fun next ↦ ?_
      by_cases hself : next = text
      · rw [if_pos hself, if_pos hself]
        exact .refl _ _
      · rw [if_neg hself, if_neg hself]
        exact ih _ _

theorem resolve_repeats {interpolator : Interpolator} (hfail : interpolator.missing = .fail)
    (habsent : values.text? name = none)
    (hagree : ∀ other, other ≠ name → values'.text? other = values.text? other)
    (text : List Char) :
    Repeats (.notFound name) (interpolator.resolve values text)
      (interpolator.resolve values' text) := by
  have hpass : ∀ text, Repeats (.notFound name) (interpolator.pass values text)
      (interpolator.pass values' text) := by
    intro text
    rw [pass, pass, hfail]
    exact expand_repeats habsent hagree _ _ text
  rw [resolve, resolve]
  by_cases hocc : occursIn text
  · rw [if_pos hocc, if_pos hocc]
    exact (hpass text).bind fun next ↦ settle_repeats hpass _ _ next
  · rw [if_neg hocc, if_neg hocc]
    exact .refl _ _

/-- **A new variable mends its own absence and nothing else.** Where absent variables are errors, a
text is resolved alike, to the same text or with the same error, once a variable is added, unless
it was for want of this variable that it could not be resolved. -/
theorem resolve_put_of_ne_notFound {interpolator : Interpolator}
    (hfail : interpolator.missing = .fail) {store : Store} {name : String}
    (habsent : store.contains name = false) (value : Value) {text : List Char}
    (h : interpolator.resolve store.values text ≠ .error (.notFound name)) :
    interpolator.resolve (store.values.put name value) text =
        interpolator.resolve store.values text ∧
      ∀ store', store.set name value = .ok store' →
        interpolator.resolve store'.values text = interpolator.resolve store.values text := by
  have hnone : store.values.text? name = none := by
    have hfind : store.values.find? name = none := by
      by_contra hne
      rw [Store.contains_iff.mpr hne] at habsent
      cases habsent
    rw [Variables.text?, hfind, Option.map_none]
  have hagree : ∀ other, other ≠ name →
      Variables.text? (store.values.put name value) other = store.values.text? other := by
    intro other hne
    rw [Variables.text?, Entries.find?_put_of_ne _ _ hne, Variables.text?]
  have hput := (resolve_repeats hfail hnone hagree text).eq_of_ne h
  refine ⟨hput, fun store' hset ↦ ?_⟩
  obtain ⟨-, -, rfl⟩ := Store.set_eq_ok_iff.mp hset
  exact hput

/-- The text `{a}{c}` fails for want of the variable that `a` names, and it does so also if there is
a variable `c`. -/
theorem resolve_put_of_ne_notFound_inner :
    Store.contains ⟨[("a", .string "{b}")], false⟩ "c" = false ∧
    default.resolve [("a", .string "{b}")] ['{', 'a', '}', '{', 'c', '}'] =
      .error (.notFound "b") ∧
    default.resolve [("a", .string "{b}"), ("c", .string "x")] ['{', 'a', '}', '{', 'c', '}'] =
      .error (.notFound "b") := by
  have habsent : Store.contains ⟨[("a", .string "{b}")], false⟩ "c" = false := by decide
  have hresolve : default.resolve [("a", .string "{b}")] ['{', 'a', '}', '{', 'c', '}'] =
      .error (.notFound "b") := by decide
  have hne : default.resolve [("a", .string "{b}")] ['{', 'a', '}', '{', 'c', '}'] ≠
      .error (.notFound "c") := by
    rw [hresolve]
    decide
  refine ⟨habsent, hresolve, ?_⟩
  rw [← hresolve]
  exact (resolve_put_of_ne_notFound rfl habsent (.string "x") hne).1

end Interpolator
end Playbook
