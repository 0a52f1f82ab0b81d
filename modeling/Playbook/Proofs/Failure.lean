import Playbook.Proofs.Reference
import Playbook.Proofs.Settling

/-!
# Why a text is not resolved

Resolving fails for one of three reasons, and the error tells which. A pass comes to a variable that
is absent; or it follows a path until a name comes up again or no level is left; or passes uncover
placeholder after placeholder until none is allowed any more.

The errors of the last two kinds look alike: both list names. In one of them the names are a path
(`Variables.Entangles`), and in the other they are the first placeholders of what the passes made of
the text, one after the other (`Interpolator.Exhausts`).

## Where the names come from

A pass carries the path it has come along as a chain, and what it reports is this chain with the
name at which it stops. So what is proved of a pass is proved for every chain, the chain being the
part of the path that lies above, and is read off for the empty one. The loop is taken apart in the
same way: what it reports starts with the names it has seen before.
-/

namespace Playbook

open Placeholder Outcome

/-! ## Paths that a pass cannot follow to the end -/

namespace Variables

variable (values : Variables)

/-- The text at the end of a path from a text. -/
def textAt : List Char → List String → List Char
  | text, [] => text
  | _, name :: rest => textAt ((values.text? name).getD []) rest

/-- A text misses a name if the variable is absent, and the text at the end of some path from it
has a placeholder for it. -/
def Misses (text : List Char) (name : String) : Prop :=
  values.text? name = none ∧
    ∃ path, values.IsPath text path ∧ name ∈ names (values.textAt text path)

/-- A text is entangled in names if they are a path from it that has come back to a name, no sooner
than with the last of them, or that goes on when `depth` names of it have been followed. -/
def Entangles (depth : Nat) (text : List Char) (chain : List String) : Prop :=
  ∃ path name, chain = path ++ [name] ∧ values.IsPath text chain ∧ path.Nodup ∧
    path.length ≤ depth ∧ (name ∈ path ∨ path.length = depth)

variable {values}

theorem Misses.of_inner {text value : List Char} {name inner : String} (hname : name ∈ names text)
    (hvalue : values.text? name = some value) (h : values.Misses value inner) :
    values.Misses text inner := by
  obtain ⟨hnone, path, hpath, hmem⟩ := h
  refine ⟨hnone, name :: path, ⟨hname, value, hvalue, hpath⟩, ?_⟩
  rwa [textAt, hvalue, Option.getD_some]

/-- Where there is a level, entanglement takes two names. -/
theorem Entangles.two_le_length {depth : Nat} {text : List Char} {chain : List String}
    (h : values.Entangles depth text chain) (hdepth : 0 < depth) : 2 ≤ chain.length := by
  obtain ⟨path, name, rfl, -, -, -, hend⟩ := h
  have hne : path ≠ [] := by
    rintro rfl
    rcases hend with hmem | hlength
    · exact absurd hmem List.not_mem_nil
    · exact absurd hlength (Nat.ne_of_lt hdepth)
  rw [List.length_append, List.length_singleton]
  exact Nat.succ_le_succ (List.length_pos_of_ne_nil hne)

theorem Entangles.length_le {depth : Nat} {text : List Char} {chain : List String}
    (h : values.Entangles depth text chain) : chain.length ≤ depth + 1 := by
  obtain ⟨path, name, rfl, -, -, hlength, -⟩ := h
  rw [List.length_append, List.length_singleton]
  exact Nat.succ_le_succ hlength

end Variables

/-! ## A pass that fails -/

namespace Interpolator

variable {values : Variables} {missing : Missing}

/-- A pass fails at a placeholder because its variable is absent and has to be there, because its
name is on the chain already, or because the text of the variable fails one level down. -/
theorem expandSegment_placeholder_eq_error {name : String} {chain : List String}
    {inner : List String → List Char → Except VariableError (List Char)} {e : VariableError}
    (h : expandSegment values missing inner chain (.placeholder name) = .error e) :
    (values.text? name = none ∧ missing = .fail ∧ e = .notFound name) ∨
      ∃ value, values.text? name = some value ∧
        ((name ∈ chain ∧ e = .circular (chain ++ [name])) ∨
          (name ∉ chain ∧ inner (chain ++ [name]) value = .error e)) := by
  cases hvalue : values.text? name with
  | none =>
    simp only [expandSegment, hvalue] at h
    cases missing with
    | fail => exact .inl ⟨rfl, rfl, (Except.error.inj h).symm⟩
    | keep => cases h
  | some value =>
    simp only [expandSegment, hvalue] at h
    refine .inr ⟨value, rfl, ?_⟩
    by_cases hchain : name ∈ chain
    · rw [if_pos hchain] at h
      exact .inl ⟨hchain, (Except.error.inj h).symm⟩
    · rw [if_neg hchain] at h
      by_cases hocc : occursIn value
      · rw [if_pos hocc] at h
        exact .inr ⟨hchain, h⟩
      · rw [if_neg hocc] at h
        cases h

theorem exists_segment_of_expand_eq_error {depth : Nat} {chain : List String} {text : List Char}
    {e : VariableError} (h : expand values missing depth chain text = .error e) :
    ∃ name ∈ names text, expandSegment values missing (expandInner values missing depth) chain
      (.placeholder name) = .error e := by
  rw [expand_eq, map_eq_error_iff] at h
  obtain ⟨segment, hmem, hsegment⟩ := exists_mem_of_mapM_eq_error h
  cases segment with
  | literal c => cases hsegment
  | placeholder name => exact ⟨name, mem_names.mpr hmem, hsegment⟩

/-- A pass below `chain` with `depth` more levels fails at an absent variable, or at the end of a
path that goes on from the chain. The induction is on the levels. -/
theorem expand_eq_error {depth : Nat} {chain : List String} {text : List Char} {e : VariableError}
    (hchain : chain.Nodup) (h : expand values missing depth chain text = .error e) :
    (∃ name, e = .notFound name ∧ missing = .fail ∧ values.Misses text name) ∨
      ∃ path name, e = .circular (chain ++ (path ++ [name])) ∧
        values.IsPath text (path ++ [name]) ∧ (chain ++ path).Nodup ∧ path.length ≤ depth ∧
        (name ∈ chain ++ path ∨ path.length = depth) := by
  induction depth generalizing chain text with
  | zero =>
    obtain ⟨name, hname, hsegment⟩ := exists_segment_of_expand_eq_error h
    rcases expandSegment_placeholder_eq_error hsegment with
      ⟨hnone, hfail, rfl⟩ | ⟨value, hvalue, hstop⟩
    · exact .inl ⟨name, rfl, hfail, hnone, [], trivial, hname⟩
    · -- No level is left, so the chain ends with this name, whether it is new or not.
      have he : e = .circular (chain ++ [name]) := by
        rcases hstop with ⟨-, he⟩ | ⟨-, hinner⟩
        · exact he
        · exact (Except.error.inj hinner).symm
      refine .inr ⟨[], name, he, ⟨hname, value, hvalue, trivial⟩, ?_, Nat.le_refl _, .inr rfl⟩
      rwa [List.append_nil]
  | succ depth ih =>
    obtain ⟨name, hname, hsegment⟩ := exists_segment_of_expand_eq_error h
    rcases expandSegment_placeholder_eq_error hsegment with
      ⟨hnone, hfail, rfl⟩ | ⟨value, hvalue, ⟨hmem, rfl⟩ | ⟨hnew, hinner⟩⟩
    · exact .inl ⟨name, rfl, hfail, hnone, [], trivial, hname⟩
    · refine .inr ⟨[], name, rfl, ⟨hname, value, hvalue, trivial⟩, ?_, Nat.zero_le _, .inl ?_⟩
      · rwa [List.append_nil]
      · rwa [List.append_nil]
    · have hconcat : (chain ++ [name]).Nodup := by
        rw [← List.concat_eq_append, List.nodup_concat]
        exact ⟨hnew, hchain⟩
      rcases ih hconcat hinner with
        ⟨absent, rfl, hfail, hmisses⟩ | ⟨path, last, rfl, hpath, hnodup, hlength, hend⟩
      · exact .inl ⟨absent, rfl, hfail, hmisses.of_inner hname hvalue⟩
      · -- Below this level the chain ends with `name`, which here is the start of the path.
        rw [List.append_assoc, List.singleton_append] at hnodup hend
        refine .inr ⟨name :: path, last, ?_, ⟨hname, value, hvalue, hpath⟩, hnodup,
          Nat.succ_le_succ hlength, hend.imp_right (congrArg Nat.succ)⟩
        rw [List.append_assoc, List.singleton_append, List.cons_append]

variable {interpolator : Interpolator}

theorem pass_eq_error {text : List Char} {e : VariableError}
    (h : interpolator.pass values text = .error e) :
    (∃ name, e = .notFound name ∧ interpolator.missing = .fail ∧ values.Misses text name) ∨
      ∃ chain, e = .circular chain ∧ values.Entangles interpolator.maxDepth text chain := by
  rcases expand_eq_error List.nodup_nil h with hmissing | ⟨path, name, he, hpath, hnodup, hrest⟩
  · exact .inl hmissing
  · exact .inr ⟨_, he, path, name, rfl, hpath, hnodup, hrest⟩

/-! ## A loop that fails -/

/-- Resolving a text is exhausted by names if they are the first placeholders of what the passes
made of it, from the first pass to the last one that is allowed. -/
def Exhausts (interpolator : Interpolator) (values : Variables) (text : List Char)
    (chain : List String) : Prop :=
  chain.length = interpolator.maxDepth + 1 ∧
    ∀ i (hi : i < chain.length), ∃ made, interpolator.passes values (i + 1) text = .ok made ∧
      first? made = some chain[i]

section OneStep

variable {pass : List Char → Except VariableError (List Char)} {left : Nat} {seen : List String}
  {text : List Char} {e : VariableError}

theorem settle_zero_eq_error (h : settle pass 0 seen text = .error e) :
    ∃ name, first? text = some name ∧ e = .circular (seen ++ [name]) := by
  cases hfirst : first? text with
  | none =>
    rw [settle_of_names_eq_nil (first?_eq_none_iff.mp hfirst)] at h
    cases h
  | some name =>
    rw [settle_zero hfirst] at h
    exact ⟨name, rfl, (Except.error.inj h).symm⟩

/-- While a pass is left, the loop fails with it, or after it has changed the text. -/
theorem settle_succ_eq_error (h : settle pass (left + 1) seen text = .error e) :
    ∃ name, first? text = some name ∧
      (pass text = .error e ∨
        ∃ next, pass text = .ok next ∧ next ≠ text ∧
          settle pass left (seen ++ [name]) next = .error e) := by
  cases hfirst : first? text with
  | none =>
    rw [settle_of_names_eq_nil (first?_eq_none_iff.mp hfirst)] at h
    cases h
  | some name =>
    rw [settle_succ hfirst, bind_eq_error_iff] at h
    refine ⟨name, rfl, h.imp_right fun ⟨next, hnext, hrest⟩ ↦ ⟨next, hnext, ?_⟩⟩
    by_cases hself : next = text
    · rw [if_pos hself] at hrest
      cases hrest
    · rw [if_neg hself] at hrest
      exact ⟨hself, hrest⟩

/-- Resolving fails with the first pass or in the loop after it. -/
theorem pass_or_settle_eq_error (h : interpolator.resolve values text = .error e) :
    interpolator.pass values text = .error e ∨
      ∃ next, interpolator.pass values text = .ok next ∧
        settle (interpolator.pass values) interpolator.maxDepth [] next = .error e := by
  rw [resolve] at h
  by_cases hocc : occursIn text
  · rw [if_pos hocc] at h
    exact bind_eq_error_iff.mp h
  · rw [if_neg hocc] at h
    cases h

end OneStep

/-- The loop fails with a pass, or when no pass is left. In the latter case it reports, after the
names seen before, the first placeholder of the text and of what each pass made of it. The induction
is on the passes left. -/
theorem settle_eq_error {left : Nat} {seen : List String} {text : List Char} {e : VariableError}
    (h : settle (interpolator.pass values) left seen text = .error e) :
    (∃ count < left, ∃ scanned, interpolator.passes values count text = .ok scanned ∧
        interpolator.pass values scanned = .error e) ∨
      ∃ firsts, e = .circular (seen ++ firsts) ∧ firsts.length = left + 1 ∧
        ∀ i (hi : i < firsts.length), ∃ made, interpolator.passes values i text = .ok made ∧
          first? made = some firsts[i] := by
  induction left generalizing seen text with
  | zero =>
    obtain ⟨name, hfirst, rfl⟩ := settle_zero_eq_error h
    refine .inr ⟨[name], rfl, rfl, fun i hi ↦ ⟨text, ?_, ?_⟩⟩
    · rw [Nat.lt_one_iff.mp hi]
      rfl
    · rw [hfirst, List.getElem_singleton]
  | succ left ih =>
    obtain ⟨name, hfirst, hpass | ⟨next, hnext, -, hrest⟩⟩ := settle_succ_eq_error h
    · exact .inl ⟨0, Nat.succ_pos left, text, rfl, hpass⟩
    · rcases ih hrest with
        ⟨count, hcount, scanned, hscanned, hpass⟩ | ⟨firsts, rfl, hlength, hfirsts⟩
      · exact .inl ⟨count + 1, Nat.succ_lt_succ hcount, scanned,
          passes_succ_eq_ok_iff.mpr ⟨next, hnext, hscanned⟩, hpass⟩
      · refine .inr ⟨name :: firsts, ?_, ?_, fun i hi ↦ ?_⟩
        · rw [List.append_assoc, List.singleton_append]
        · rw [List.length_cons, hlength]
        · cases i with
          | zero => exact ⟨text, rfl, hfirst⟩
          | succ i =>
            obtain ⟨made, hmade, hname⟩ := hfirsts i (Nat.lt_of_succ_lt_succ hi)
            exact ⟨made, passes_succ_eq_ok_iff.mpr ⟨next, hnext, hmade⟩, hname⟩

/-- Resolving fails with one of the passes that are allowed, or when all of them are used up. -/
theorem resolve_eq_error {text : List Char} {e : VariableError}
    (h : interpolator.resolve values text = .error e) :
    (∃ count ≤ interpolator.maxDepth, ∃ scanned,
        interpolator.passes values count text = .ok scanned ∧
        interpolator.pass values scanned = .error e) ∨
      ∃ chain, e = .circular chain ∧ interpolator.Exhausts values text chain := by
  rcases pass_or_settle_eq_error h with hpass | ⟨next, hnext, hsettle⟩
  · exact .inl ⟨0, Nat.zero_le _, text, rfl, hpass⟩
  · rcases settle_eq_error hsettle with
      ⟨count, hcount, scanned, hscanned, hpass⟩ | ⟨firsts, rfl, hlength, hfirsts⟩
    · exact .inl ⟨count + 1, hcount, scanned,
        passes_succ_eq_ok_iff.mpr ⟨next, hnext, hscanned⟩, hpass⟩
    · refine .inr ⟨firsts, rfl, hlength, fun i hi ↦ ?_⟩
      obtain ⟨made, hmade, hname⟩ := hfirsts i hi
      exact ⟨made, passes_succ_eq_ok_iff.mpr ⟨next, hnext, hmade⟩, hname⟩

/-- **What an error names.** If a text cannot be resolved, then absent variables are errors and a
pass over it has come to one, which the error names; or the error lists at least two names and at
most one more than there are levels, and they are either the path on which a pass has come back to a
name or run out of levels, or the first placeholder of the text after each of the passes allowed. -/
theorem exists_cause_of_resolve_eq_error {text : List Char} {e : VariableError}
    (h : interpolator.resolve values text = .error e) :
    (∃ name, e = .notFound name ∧ interpolator.missing = .fail ∧ values.find? name = none ∧
      ∃ count ≤ interpolator.maxDepth, ∃ scanned,
        interpolator.passes values count text = .ok scanned ∧ values.Misses scanned name) ∨
    ∃ chain, e = .circular chain ∧ 2 ≤ chain.length ∧
      chain.length ≤ interpolator.maxDepth + 1 ∧
      ((∃ count ≤ interpolator.maxDepth, ∃ scanned,
          interpolator.passes values count text = .ok scanned ∧
          values.Entangles interpolator.maxDepth scanned chain) ∨
        interpolator.Exhausts values text chain) := by
  rcases resolve_eq_error h with
    ⟨count, hcount, scanned, hscanned, hpass⟩ | ⟨chain, he, hexhausts⟩
  · rcases pass_eq_error hpass with ⟨name, he, hfail, hmisses⟩ | ⟨chain, he, hentangles⟩
    · have hnone : values.find? name = none := Option.map_eq_none_iff.mp hmisses.1
      exact .inl ⟨name, he, hfail, hnone, count, hcount, scanned, hscanned, hmisses⟩
    · exact .inr ⟨chain, he, hentangles.two_le_length interpolator.maxDepth_pos,
        hentangles.length_le, .inl ⟨count, hcount, scanned, hscanned, hentangles⟩⟩
  · have hlength : chain.length = interpolator.maxDepth + 1 := hexhausts.1
    refine .inr ⟨chain, he, ?_, Nat.le_of_eq hlength, .inr hexhausts⟩
    rw [hlength]
    exact Nat.succ_le_succ interpolator.maxDepth_pos

/-- The first pass over `{{y}}` makes `{a}` of it, and the second goes from `a` to `b` and back. -/
theorem exists_cause_of_resolve_assembled_cycle :
    default.resolve [("y", .string "a"), ("a", .string "{b}"), ("b", .string "{a}")]
        ['{', '{', 'y', '}', '}'] = .error (.circular ["a", "b", "a"]) ∧
      ∃ count ≤ 10, ∃ scanned,
        default.passes [("y", .string "a"), ("a", .string "{b}"), ("b", .string "{a}")] count
          ['{', '{', 'y', '}', '}'] = .ok scanned ∧
        Variables.Entangles [("y", .string "a"), ("a", .string "{b}"), ("b", .string "{a}")] 10
          scanned ["a", "b", "a"] := by
  have h : default.resolve [("y", .string "a"), ("a", .string "{b}"), ("b", .string "{a}")]
      ['{', '{', 'y', '}', '}'] = .error (.circular ["a", "b", "a"]) := by decide
  refine ⟨h, ?_⟩
  rcases exists_cause_of_resolve_eq_error h with
    ⟨name, he, -⟩ | ⟨chain, he, -, -, hpass | hexhausts⟩
  · cases he
  · cases he
    exact hpass
  · cases he
    exact absurd hexhausts.1 (by decide)

end Interpolator
end Playbook
