import Playbook.Proofs.EntriesMap
import Playbook.Proofs.Failure
import Playbook.Proofs.Stability

/-!
# When passes run out

A text is gone over again until a pass changes nothing, and the loop has to see that pass to know.
So there is a text that is settled and is not known to be: the one that the last pass allowed has
made. If it has placeholders, they are those of absent variables which may stay, and yet the loop
fails as if they led back to one another. This is the only way in which an absent variable can pass
for a cycle (`resolve_eq_ok_iff_of_absent`).

## Braces

Where no variable has an opening brace in its text, passes cannot run out for long. A pass puts no
opening brace in and takes out one for every variable it meets, so a text with that many braces is
changed at most that many times. The first pass is not counted as going over the text again, which
is why a text may have one brace more than there are levels (`resolve_ne_circular_of_unbraced`).
-/

namespace Playbook

open Placeholder Outcome

variable {values : Variables} {interpolator : Interpolator} {text out : List Char}

namespace Interpolator

/-! ## Texts that have settled -/

/-- Where absent variables may stay, a pass leaves a text that names no other ones as it is. -/
theorem pass_of_names_absent (hkeep : interpolator.missing = .keep)
    (habsent : ∀ name ∈ names text, values.text? name = none) :
    interpolator.pass values text = .ok text := by
  obtain ⟨out, hout⟩ : ∃ out, interpolator.pass values text = .ok out :=
    exists_expand_eq_ok_iff.mpr fun name hname ↦
      ⟨fun _ ↦ hkeep, fun value hvalue ↦ by rw [habsent name hname] at hvalue; cases hvalue⟩
  rw [hout, (expands_of_expand hout).unique (.of_names_absent habsent)]

theorem passes_add_eq_ok_iff {count more : Nat} :
    interpolator.passes values (count + more) text = .ok out ↔
      ∃ next, interpolator.passes values count text = .ok next ∧
        interpolator.passes values more next = .ok out := by
  induction count generalizing text with
  | zero => simp [passes]
  | succ count ih =>
    rw [Nat.succ_add, passes_succ_eq_ok_iff]
    simp only [ih, passes_succ_eq_ok_iff]
    constructor
    · rintro ⟨first, hfirst, next, hnext, hout⟩
      exact ⟨next, ⟨first, hfirst, hnext⟩, hout⟩
    · rintro ⟨next, ⟨first, hfirst, hnext⟩, hout⟩
      exact ⟨first, hfirst, next, hnext, hout⟩

/-- Once passes have reached a text that they leave as it is, they stay there. -/
theorem passes_of_le {count count' : Nat}
    (hpasses : interpolator.passes values count text = .ok out)
    (hself : interpolator.pass values out = .ok out) (hle : count ≤ count') :
    interpolator.passes values count' text = .ok out := by
  obtain ⟨more, rfl⟩ := Nat.exists_eq_add_of_le hle
  exact passes_add_eq_ok_iff.mpr ⟨out, hpasses, passes_of_pass_eq_self hself more⟩

/-- Then no number of passes fails. -/
theorem exists_passes_eq_ok {count : Nat}
    (hpasses : interpolator.passes values count text = .ok out)
    (hself : interpolator.pass values out = .ok out) (count' : Nat) :
    ∃ made, interpolator.passes values count' text = .ok made := by
  rcases Nat.le_total count' count with hle | hle
  · obtain ⟨more, rfl⟩ := Nat.exists_eq_add_of_le hle
    obtain ⟨made, hmade, -⟩ := passes_add_eq_ok_iff.mp hpasses
    exact ⟨made, hmade⟩
  · exact ⟨out, passes_of_le hpasses hself hle⟩

/-- A text that passes reach and leave as it is comes of resolving exactly when it has no
placeholders, or is reached before the last pass that is allowed. -/
theorem resolve_eq_ok_iff_of_pass_eq_self {count : Nat} (hcount : count ≤ interpolator.maxDepth)
    (hpasses : interpolator.passes values (count + 1) text = .ok out)
    (hself : interpolator.pass values out = .ok out) :
    interpolator.resolve values text = .ok out ↔
      names out = [] ∨ ∃ earlier < interpolator.maxDepth,
        interpolator.passes values (earlier + 1) text = .ok out := by
  rw [resolve_eq_ok_iff]
  constructor
  · rintro ⟨count', -, hpasses', hnil | ⟨hlt, -⟩⟩
    · exact .inl hnil
    · exact .inr ⟨count', hlt, hpasses'⟩
  · rintro (hnil | ⟨earlier, hlt, hearlier⟩)
    · exact ⟨count, hcount, hpasses, .inl hnil⟩
    · exact ⟨earlier, Nat.le_of_lt hlt, hearlier, .inr ⟨hlt, hself⟩⟩

/-- Otherwise passes run out, and it is a placeholder of this text with which they do. -/
theorem exists_exhausts_of_resolve_ne_ok {count : Nat} (hcount : count ≤ interpolator.maxDepth)
    (hpasses : interpolator.passes values (count + 1) text = .ok out)
    (hself : interpolator.pass values out = .ok out)
    (hne : interpolator.resolve values text ≠ .ok out) :
    ∃ chain, interpolator.resolve values text = .error (.circular chain) ∧
      interpolator.Exhausts values text chain ∧ chain.getLast? = first? out := by
  have hlast : interpolator.passes values (interpolator.maxDepth + 1) text = .ok out :=
    passes_of_le hpasses hself (Nat.succ_le_succ hcount)
  cases hresolve : interpolator.resolve values text with
  | ok out' =>
    -- Passes come to rest in one text only.
    obtain ⟨count', hcount', hpasses', -⟩ := resolve_eq_ok_iff.mp hresolve
    have hlast' := passes_of_le hpasses' (pass_eq_self_of_resolve hresolve)
      (Nat.succ_le_succ hcount')
    rw [hresolve, Except.ok.inj (hlast'.symm.trans hlast)] at hne
    exact absurd rfl hne
  | error e =>
    rcases resolve_eq_error hresolve with
      ⟨count', -, scanned, hscanned, hpass⟩ | ⟨chain, rfl, hlength, hfirsts⟩
    · obtain ⟨made, hmade⟩ := exists_passes_eq_ok hpasses hself (count' + 1)
      obtain ⟨scanned', hscanned', hmade⟩ := passes_add_eq_ok_iff.mp hmade
      obtain ⟨made', hmade', -⟩ := passes_succ_eq_ok_iff.mp hmade
      rw [← Except.ok.inj (hscanned.symm.trans hscanned'), hpass] at hmade'
      cases hmade'
    · refine ⟨chain, rfl, ⟨hlength, hfirsts⟩, ?_⟩
      have hlt : interpolator.maxDepth < chain.length := hlength ▸ Nat.lt_succ_self _
      obtain ⟨made, hmade, hfirst⟩ := hfirsts interpolator.maxDepth hlt
      rw [← Except.ok.inj (hmade.symm.trans hlast), hfirst, List.getLast?_eq_getElem?, hlength,
        Nat.add_sub_cancel, List.getElem?_eq_getElem hlt]

/-- **When an absent variable passes for a cycle.** Absent variables may stay, and one of the passes
allowed makes a text that names no other ones. Resolving ends in that text exactly when it has no
placeholders or is made before the last pass allowed, and otherwise it fails as a cycle would, with
the first placeholder of what each of the passes made, that of an absent variable at the end. -/
theorem resolve_eq_ok_iff_of_absent (hkeep : interpolator.missing = .keep) {count : Nat}
    (hcount : count ≤ interpolator.maxDepth)
    (hpasses : interpolator.passes values (count + 1) text = .ok out)
    (habsent : ∀ name ∈ names out, values.text? name = none) :
    (interpolator.resolve values text = .ok out ↔
      names out = [] ∨ ∃ earlier < interpolator.maxDepth,
        interpolator.passes values (earlier + 1) text = .ok out) ∧
    (interpolator.resolve values text ≠ .ok out →
      ∃ chain, interpolator.resolve values text = .error (.circular chain) ∧
        interpolator.Exhausts values text chain ∧ chain.getLast? = first? out) := by
  have hself := pass_of_names_absent hkeep habsent
  exact ⟨resolve_eq_ok_iff_of_pass_eq_self hcount hpasses hself,
    exists_exhausts_of_resolve_ne_ok hcount hpasses hself⟩

/-- With one level, `{{x}}` is resolved as the placeholder that the first pass makes of it, whose
variable is absent. -/
theorem resolve_eq_ok_iff_of_absent_first :
    (of 1 .keep).passes [("x", .string "z")] 1 ['{', '{', 'x', '}', '}'] = .ok ['{', 'z', '}'] ∧
      (of 1 .keep).resolve [("x", .string "z")] ['{', '{', 'x', '}', '}'] =
        .ok ['{', 'z', '}'] := by
  have hpasses : (of 1 .keep).passes [("x", .string "z")] 1 ['{', '{', 'x', '}', '}'] =
      .ok ['{', 'z', '}'] := by decide
  exact ⟨hpasses, (resolve_eq_ok_iff_of_absent rfl (Nat.zero_le 1) hpasses (by decide)).1.mpr
    (.inr ⟨0, Nat.one_pos, hpasses⟩)⟩

/-- With one level, `{{{x}}}` is not resolved as the placeholder that the second pass makes of it,
though its variable is absent and absent variables may stay. -/
theorem resolve_takes_absent_for_cycle :
    ¬∀ (interpolator : Interpolator) (values : Variables) (text out : List Char) (count : Nat),
      interpolator.missing = .keep → count ≤ interpolator.maxDepth →
        interpolator.passes values (count + 1) text = .ok out →
        (∀ name ∈ names out, values.text? name = none) →
        interpolator.resolve values text = .ok out := by
  intro h
  have hresolve := h (of 1 .keep) [("x", .string "y"), ("y", .string "z")]
    ['{', '{', '{', 'x', '}', '}', '}'] ['{', 'z', '}'] 1 rfl (Nat.le_refl 1) (by decide)
    (by decide)
  exact absurd hresolve (by decide)

end Interpolator

/-! ## Values without braces -/

/-- Whether no variable has an opening brace in its text. -/
def Variables.Unbraced (values : Variables) : Prop :=
  ∀ name value, values.text? name = some value → '{' ∉ value

theorem Variables.unbraced_of_forall (h : ∀ entry ∈ values, '{' ∉ entry.2.text) :
    values.Unbraced := by
  intro name value hvalue
  obtain ⟨found, hfound, rfl⟩ := Option.map_eq_some_iff.mp hvalue
  exact h _ (Entries.mem_of_find?_eq_some hfound)

theorem Variables.has_eq_isSome_text? (values : Variables) (name : String) :
    values.has name = (values.text? name).isSome := by
  rw [Entries.has, Variables.text?, Option.isSome_map]

theorem Variables.countP_has_eq_zero_iff {l : List String} :
    l.countP values.has = 0 ↔ ∀ name ∈ l, values.text? name = none := by
  simp only [List.countP_eq_zero, has_eq_isSome_text?, Option.not_isSome_iff_eq_none]

/-- Expanding puts no opening brace in, and takes one out for each placeholder of a variable. -/
theorem Expands.count_add_countP_le (hvalues : values.Unbraced) {segments : List Segment}
    (h : Expands values segments out) :
    out.count '{' + (segments.filterMap Segment.name?).countP values.has ≤
      (segments.flatMap Segment.text).count '{' := by
  induction h with
  | nil => exact Nat.le_refl _
  | @literal c rest out _ ih =>
    rw [List.filterMap_cons_none rfl, List.flatMap_cons, Segment.text, List.singleton_append,
      List.count_cons, List.count_cons]
    omega
  | @absent name rest out hnone _ ih =>
    have hhas : ¬values.has name := by
      rw [Variables.has_eq_isSome_text?, hnone]
      exact Bool.false_ne_true
    have hname : (Segment.placeholder name).name? = some name := rfl
    rw [List.filterMap_cons_some hname, List.countP_cons_of_neg hhas, List.flatMap_cons,
      Segment.text, List.count_append, List.count_append]
    omega
  | @present name value inner out rest hsome hinner _ _ ih =>
    have hhas : values.has name := by
      rw [Variables.has_eq_isSome_text?, hsome]
      rfl
    have hname : (Segment.placeholder name).name? = some name := rfl
    have hvalue : '{' ∉ value := hvalues name value hsome
    have hsame : inner = value := hinner.unique (.of_names_eq_nil (names_eq_nil_of_notMem hvalue))
    have hbrace : 0 < (written name).count '{' := List.count_pos_iff.mpr List.mem_cons_self
    rw [List.filterMap_cons_some hname, List.countP_cons_of_pos hhas, List.flatMap_cons,
      Segment.text, List.count_append, List.count_append, hsame, List.count_eq_zero.mpr hvalue]
    omega

namespace Interpolator

/-- Where values have no braces, there is no path of two names for a pass to be entangled in. -/
theorem pass_ne_circular (hvalues : values.Unbraced) {chain : List String} :
    interpolator.pass values text ≠ .error (.circular chain) := by
  intro h
  rcases pass_eq_error h with ⟨name, he, -⟩ | ⟨chain', -, hentangles⟩
  · cases he
  · have htwo := hentangles.two_le_length interpolator.maxDepth_pos
    obtain ⟨path, last, rfl, hpath, -, -, -⟩ := hentangles
    have hne : path ≠ [] := by
      rintro rfl
      exact absurd htwo (Nat.not_succ_le_self 1)
    obtain ⟨name, rest, rfl⟩ := List.exists_cons_of_ne_nil hne
    obtain ⟨-, value, hvalue, hrest⟩ := hpath
    refine Variables.names_ne_nil_of_isPath hrest (by simp) ?_
    exact names_eq_nil_of_notMem (hvalues name value hvalue)

theorem count_pass_add_countP_le (hvalues : values.Unbraced)
    (h : interpolator.pass values text = .ok out) :
    out.count '{' + (names text).countP values.has ≤ text.count '{' := by
  have hcount := (expands_of_expand h).count_add_countP_le hvalues
  rwa [Segment.flatMap_text_scan] at hcount

/-- A pass that changes a text takes a brace out of it. -/
theorem count_pass_lt (hvalues : values.Unbraced) (h : interpolator.pass values text = .ok out)
    (hne : out ≠ text) : out.count '{' < text.count '{' := by
  have hpos : (names text).countP values.has ≠ 0 := by
    intro hzero
    have habsent := Variables.countP_has_eq_zero_iff.mp hzero
    exact hne ((expands_of_expand h).unique (.of_names_absent habsent))
  have hcount := count_pass_add_countP_le hvalues h
  omega

/-- The loop does not run out of passes on a text with no more braces than passes are left. The
induction is on the passes left, each of which takes a brace. -/
theorem settle_ne_circular (hvalues : values.Unbraced) {left : Nat} {seen chain : List String}
    (hcount : text.count '{' ≤ left) :
    settle (interpolator.pass values) left seen text ≠ .error (.circular chain) := by
  intro h
  induction left generalizing seen text with
  | zero =>
    obtain ⟨name, hfirst, -⟩ := settle_zero_eq_error h
    have hnil : names text = [] :=
      names_eq_nil_of_notMem (List.count_eq_zero.mp (Nat.le_zero.mp hcount))
    rw [first?_eq_none_iff.mpr hnil] at hfirst
    cases hfirst
  | succ left ih =>
    obtain ⟨name, -, hpass | ⟨next, hnext, hne, hrest⟩⟩ := settle_succ_eq_error h
    · exact pass_ne_circular hvalues hpass
    · have hless := count_pass_lt hvalues hnext hne
      exact ih (by omega) hrest

/-- **No cycles without braces.** Where no variable has an opening brace in its text, a text that
has one brace more than there are levels, at most, is never reported as a cycle: resolving ends in a
text, or comes to an absent variable that has to be there. What it ends in, however many braces
there were, names absent variables only. -/
theorem resolve_ne_circular_of_unbraced (hvalues : values.Unbraced)
    (interpolator : Interpolator) (text : List Char) :
    (text.count '{' ≤ interpolator.maxDepth + 1 →
      ∀ chain, interpolator.resolve values text ≠ .error (.circular chain)) ∧
    ∀ out, interpolator.resolve values text = .ok out →
      ∀ name ∈ names out, values.text? name = none := by
  constructor
  · intro hcount chain hresolve
    by_cases hself : interpolator.pass values text = .ok text
    · -- The first pass may take no brace, and then none is gone over again.
      rw [resolve_eq_self_of_pass hself] at hresolve
      cases hresolve
    · rcases pass_or_settle_eq_error hresolve with hpass | ⟨next, hnext, hsettle⟩
      · exact pass_ne_circular hvalues hpass
      · have hless := count_pass_lt hvalues hnext fun heq ↦ hself (heq ▸ hnext)
        exact settle_ne_circular hvalues (by omega) hsettle
  · intro out hresolve
    have hcount := count_pass_add_countP_le hvalues (pass_eq_self_of_resolve hresolve)
    exact Variables.countP_has_eq_zero_iff.mp (by omega)

/-- With one level, two braces go: `{{x}}` is resolved as the text of the variable that `x`
names. -/
theorem resolve_ne_circular_of_unbraced_nested :
    Variables.Unbraced [("x", .string "y"), ("y", .string "z")] ∧
      ∀ chain, (of 1 .fail).resolve [("x", .string "y"), ("y", .string "z")]
        ['{', '{', 'x', '}', '}'] ≠ .error (.circular chain) := by
  have hvalues : Variables.Unbraced [("x", .string "y"), ("y", .string "z")] :=
    Variables.unbraced_of_forall (by decide)
  exact ⟨hvalues, (resolve_ne_circular_of_unbraced hvalues (of 1 .fail) _).1 (by decide)⟩

/-- With a third brace, passes run out. -/
example : (of 1 .keep).resolve [("x", .string "y"), ("y", .string "z"), ("z", .string "w")]
    ['{', '{', '{', 'x', '}', '}', '}'] = .error (.circular ["y", "z"]) := by
  decide

end Interpolator
end Playbook
