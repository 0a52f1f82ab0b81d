import Playbook.Proofs.Expansion

/-!
# Where repeated passes end

Resolving a text goes over it again and again. It ends in a text that is reached by some number of
passes and either has no placeholder left or is what a further pass makes of it.

A text of the second kind may still name variables that exist. Then one of these *respells* itself:
the text it is expanded to spells its own placeholder. The variable `b` with the text `{{x}b}` does
so if `x` is empty. A pass over `{b}` leaves `{b}`, which the loop takes for settled.

## How a pass can change nothing

It is not that every placeholder has to give way to itself. Placeholders may shrink and grow, and
what one of them loses another may make up for. But a pass that changes nothing puts the pieces
together to the text they came from, so somewhere a piece starts no later and ends no earlier than
the placeholder it stands for, and there the piece contains it. `exists_isInfix_of_flatten_eq` finds
that place by following how far the pieces lag behind the text.
-/

namespace Playbook

open Placeholder Outcome

/-! ## Pieces that make up the text they came from -/

/-- Pieces stand for segments, and every segment that is not live stands for itself. If the pieces
lag behind the segments by `lag`, or if some segment is live, and yet the pieces make up the text
of the segments, then some piece contains the text of the live segment it stands for. -/
theorem exists_isInfix_of_flatten_eq {σ α : Type} {becomes : σ → List α → Prop} {live : σ → Prop}
    {text : σ → List α} (hdead : ∀ segment piece, becomes segment piece → ¬live segment →
      piece = text segment)
    {segments : List σ} {pieces : List (List α)} (h : List.Forall₂ becomes segments pieces)
    {lag : List α} (hflat : pieces.flatten = lag ++ segments.flatMap text)
    (hlive : lag ≠ [] ∨ ∃ segment ∈ segments, live segment) :
    ∃ segment ∈ segments, live segment ∧ ∃ piece, becomes segment piece ∧
      text segment <:+: piece := by
  induction h generalizing lag with
  | nil =>
    rcases hlive with hlag | ⟨segment, hmem, -⟩
    · exact absurd (List.append_eq_nil_iff.mp hflat.symm).1 hlag
    · exact absurd hmem List.not_mem_nil
  | @cons segment piece segments pieces hpiece _ ih =>
    have htail : ∀ lag' : List α, pieces.flatten = lag' ++ segments.flatMap text →
        (lag' ≠ [] ∨ ∃ segment ∈ segments, live segment) →
        ∃ other ∈ segment :: segments, live other ∧ ∃ piece, becomes other piece ∧
          text other <:+: piece := by
      intro lag' hflat' hlive'
      obtain ⟨other, hmem, hother⟩ := ih hflat' hlive'
      exact ⟨other, List.mem_cons_of_mem _ hmem, hother⟩
    -- The piece reaches the end of its segment, or it does not and what follows lags behind.
    have hreach : (∃ excess, piece = lag ++ text segment ++ excess ∧
          segments.flatMap text = excess ++ pieces.flatten) ∨
        ∃ lag', lag' ≠ [] ∧ pieces.flatten = lag' ++ segments.flatMap text := by
      rw [List.flatten_cons, List.flatMap_cons, ← List.append_assoc] at hflat
      rcases List.append_eq_append_iff.mp hflat with ⟨lag', hlag', hrest⟩ | hexcess
      · by_cases hnil : lag' = []
        · rw [hnil, List.append_nil] at hlag'
          rw [hnil, List.nil_append] at hrest
          exact .inl ⟨[], by rw [hlag', List.append_nil], by rw [hrest, List.nil_append]⟩
        · exact .inr ⟨lag', hnil, hrest⟩
      · exact .inl hexcess
    rcases hreach with ⟨excess, hexcess, hrest⟩ | ⟨lag', hne, hrest⟩
    · by_cases hseg : live segment
      · exact ⟨segment, List.mem_cons_self, hseg, piece, hpiece, lag, excess, hexcess.symm⟩
      · -- A dead segment is its own piece: nothing lags and the live one is among the rest.
        rw [hdead _ _ hpiece hseg] at hexcess
        have hlen := congrArg List.length hexcess
        simp only [List.length_append] at hlen
        have hlag : lag = [] := List.eq_nil_of_length_eq_zero (by omega)
        have hnil : excess = [] := List.eq_nil_of_length_eq_zero (by omega)
        refine htail [] (by rw [hrest, hnil, List.nil_append, List.nil_append]) (.inr ?_)
        obtain ⟨other, hmem, hother⟩ := hlive.resolve_left (not_not_intro hlag)
        rcases List.mem_cons.mp hmem with rfl | hmem
        · exact absurd hother hseg
        · exact ⟨other, hmem, hother⟩
    · exact htail lag' hrest (.inl hne)

namespace Interpolator

variable {values : Variables} {interpolator : Interpolator}

/-! ## Passes one after the other -/

/-- A number of passes over a text, one after the other. -/
def passes (interpolator : Interpolator) (values : Variables) :
    Nat → List Char → Except VariableError (List Char)
  | 0, text => .ok text
  | count + 1, text => do interpolator.passes values count (← interpolator.pass values text)

theorem passes_succ_eq_ok_iff {count : Nat} {text out : List Char} :
    interpolator.passes values (count + 1) text = .ok out ↔
      ∃ next, interpolator.pass values text = .ok next ∧
        interpolator.passes values count next = .ok out := by
  rw [passes, bind_eq_ok_iff]

/-- A text that a pass leaves as it is stays as it is. -/
theorem passes_of_pass_eq_self {text : List Char} (h : interpolator.pass values text = .ok text)
    (count : Nat) : interpolator.passes values count text = .ok text := by
  induction count with
  | zero => rfl
  | succ count ih => exact passes_succ_eq_ok_iff.mpr ⟨text, h, ih⟩

/-- A pass leaves a text without placeholders as it is. -/
theorem pass_of_names_eq_nil {text : List Char} (h : names text = []) :
    interpolator.pass values text = .ok text := by
  obtain ⟨out, hout⟩ : ∃ out, interpolator.pass values text = .ok out :=
    exists_expand_eq_ok_iff.mpr fun name hname ↦ by
      rw [h] at hname
      exact absurd hname List.not_mem_nil
  rw [hout, (expands_of_expand hout).unique (.of_names_eq_nil h)]

/-- A text without placeholders is not gone over at all. -/
theorem resolve_of_names_eq_nil {text : List Char} (h : names text = []) :
    interpolator.resolve values text = .ok text := by
  rw [resolve, if_neg]
  rw [occursIn_iff, not_not, h]

/-! ## The loop, unfolded once -/

theorem settle_of_names_eq_nil {pass : List Char → Except VariableError (List Char)} {left : Nat}
    {seen : List String} {text : List Char} (h : names text = []) :
    settle pass left seen text = .ok text := by
  unfold settle
  rw [first?_eq_none_iff.mpr h]

theorem settle_zero {pass : List Char → Except VariableError (List Char)} {seen : List String}
    {text : List Char} {name : String} (h : first? text = some name) :
    settle pass 0 seen text = .error (.circular (seen ++ [name])) := by
  unfold settle
  rw [h]

theorem settle_succ {pass : List Char → Except VariableError (List Char)} {left : Nat}
    {seen : List String} {text : List Char} {name : String} (h : first? text = some name) :
    settle pass (left + 1) seen text = pass text >>= fun next ↦
      if next = text then .ok text else settle pass left (seen ++ [name]) next := by
  conv_lhs => unfold settle
  rw [h]

theorem settle_zero_ne_ok {pass : List Char → Except VariableError (List Char)}
    {seen : List String} {text out : List Char} (h : names text ≠ []) :
    settle pass 0 seen text ≠ .ok out := by
  obtain ⟨name, hname⟩ := Option.ne_none_iff_exists'.mp (mt first?_eq_none_iff.mp h)
  rw [settle_zero hname]
  exact fun hout ↦ nomatch hout

/-- A text with placeholders has settled if a pass leaves it as it is, and otherwise it settles as
what the pass makes of it does. -/
theorem settle_succ_eq_ok_iff {pass : List Char → Except VariableError (List Char)} {left : Nat}
    {seen : List String} {text out : List Char} {name : String} (h : first? text = some name) :
    settle pass (left + 1) seen text = .ok out ↔
      (pass text = .ok text ∧ text = out) ∨
      ∃ next, pass text = .ok next ∧ next ≠ text ∧
        settle pass left (seen ++ [name]) next = .ok out := by
  rw [settle_succ h, bind_eq_ok_iff]
  constructor
  · rintro ⟨next, hnext, hout⟩
    by_cases hself : next = text
    · rw [if_pos hself, Except.ok.injEq] at hout
      exact .inl ⟨hself ▸ hnext, hout⟩
    · rw [if_neg hself] at hout
      exact .inr ⟨next, hnext, hself, hout⟩
  · rintro (⟨hpass, rfl⟩ | ⟨next, hnext, hself, hout⟩)
    · exact ⟨text, hpass, if_pos rfl⟩
    · exact ⟨next, hnext, by rwa [if_neg hself]⟩

/-! ## What is reached -/

/-- A text reached by `count` passes is where the loop ends if `left` more were allowed: it has no
placeholders, or one more pass is allowed and leaves it as it is. -/
def Settled (interpolator : Interpolator) (values : Variables) (left count : Nat)
    (text : List Char) : Prop :=
  names text = [] ∨ count < left ∧ interpolator.pass values text = .ok text

/-- Passes reach nothing new from a text that a pass leaves as it is. -/
theorem exists_passes_iff_of_pass_eq_self {left : Nat} {text out : List Char}
    (h : interpolator.pass values text = .ok text) (hend : names text = [] ∨ 0 < left) :
    (∃ count ≤ left, interpolator.passes values count text = .ok out ∧
      interpolator.Settled values left count out) ↔ text = out := by
  constructor
  · rintro ⟨count, -, hcount, -⟩
    rw [passes_of_pass_eq_self h] at hcount
    exact Except.ok.inj hcount
  · rintro rfl
    exact ⟨0, Nat.zero_le _, rfl, hend.imp_right fun hpos ↦ ⟨hpos, h⟩⟩

/-- From a text that a pass changes, the first of the passes goes to what it makes of it, and one
fewer is left. -/
theorem exists_passes_iff_of_pass_ne_self {left : Nat} {text out : List Char}
    (h : interpolator.pass values text ≠ .ok text) (hnames : names text ≠ []) :
    (∃ count ≤ left + 1, interpolator.passes values count text = .ok out ∧
      interpolator.Settled values (left + 1) count out) ↔
      ∃ next, interpolator.pass values text = .ok next ∧
        ∃ count ≤ left, interpolator.passes values count next = .ok out ∧
          interpolator.Settled values left count out := by
  constructor
  · rintro ⟨count, hcount, hpasses, hend⟩
    cases count with
    | zero =>
      cases hpasses
      exact absurd (hend.resolve_left hnames).2 h
    | succ count =>
      obtain ⟨next, hnext, hpasses⟩ := passes_succ_eq_ok_iff.mp hpasses
      exact ⟨next, hnext, count, Nat.le_of_succ_le_succ hcount, hpasses,
        hend.imp_right fun hlt ↦ ⟨Nat.lt_of_succ_lt_succ hlt.1, hlt.2⟩⟩
  · rintro ⟨next, hnext, count, hcount, hpasses, hend⟩
    exact ⟨count + 1, Nat.succ_le_succ hcount, passes_succ_eq_ok_iff.mpr ⟨next, hnext, hpasses⟩,
      hend.imp_right fun hlt ↦ ⟨Nat.succ_lt_succ hlt.1, hlt.2⟩⟩

/-- What settles was reached by passes, and it has no placeholders or is left as it is by one more
pass. The induction is on the passes left. -/
theorem settle_eq_ok_iff {left : Nat} {seen : List String} {text out : List Char} :
    settle (interpolator.pass values) left seen text = .ok out ↔
      ∃ count ≤ left, interpolator.passes values count text = .ok out ∧
        interpolator.Settled values left count out := by
  induction left generalizing seen text with
  | zero =>
    by_cases hnil : names text = []
    · rw [settle_of_names_eq_nil hnil, Except.ok.injEq,
        exists_passes_iff_of_pass_eq_self (pass_of_names_eq_nil hnil) (.inl hnil)]
    · refine iff_of_false (settle_zero_ne_ok hnil) ?_
      rintro ⟨count, hcount, hpasses, hend⟩
      obtain rfl := Nat.le_zero.mp hcount
      cases hpasses
      exact hnil (hend.resolve_right fun hlt ↦ absurd hlt.1 (Nat.lt_irrefl 0))
  | succ left ih =>
    by_cases hnil : names text = []
    · rw [settle_of_names_eq_nil hnil, Except.ok.injEq,
        exists_passes_iff_of_pass_eq_self (pass_of_names_eq_nil hnil) (.inl hnil)]
    · obtain ⟨name, hname⟩ := Option.ne_none_iff_exists'.mp (mt first?_eq_none_iff.mp hnil)
      rw [settle_succ_eq_ok_iff hname]
      by_cases hself : interpolator.pass values text = .ok text
      · rw [exists_passes_iff_of_pass_eq_self hself (.inr (Nat.succ_pos left))]
        refine ⟨fun h ↦ ?_, fun h ↦ .inl ⟨hself, h⟩⟩
        rcases h with ⟨-, hout⟩ | ⟨next, hnext, hne, -⟩
        · exact hout
        · exact absurd (Except.ok.inj (hnext.symm.trans hself)) hne
      · rw [exists_passes_iff_of_pass_ne_self hself hnil]
        constructor
        · rintro (⟨hpass, -⟩ | ⟨next, hnext, -, hsettle⟩)
          · exact absurd hpass hself
          · exact ⟨next, hnext, ih.mp hsettle⟩
        · rintro ⟨next, hnext, hrest⟩
          exact .inr ⟨next, hnext, fun heq ↦ hself (heq ▸ hnext), ih.mpr hrest⟩

/-- Resolving ends in a text exactly when passes reach it, one at least and one more than the depth
at most, and it has no placeholders or is left as it is by one more pass. -/
theorem resolve_eq_ok_iff {text out : List Char} :
    interpolator.resolve values text = .ok out ↔
      ∃ count ≤ interpolator.maxDepth, interpolator.passes values (count + 1) text = .ok out ∧
        interpolator.Settled values interpolator.maxDepth count out := by
  by_cases hnil : names text = []
  · have hpass : interpolator.pass values text = .ok text := pass_of_names_eq_nil hnil
    rw [resolve_of_names_eq_nil hnil]
    constructor
    · intro h
      cases h
      exact ⟨0, Nat.zero_le _, passes_of_pass_eq_self hpass 1, .inl hnil⟩
    · rintro ⟨count, -, hpasses, -⟩
      rwa [passes_of_pass_eq_self hpass] at hpasses
  · rw [resolve, if_pos (occursIn_iff.mpr hnil), bind_eq_ok_iff]
    simp only [settle_eq_ok_iff, passes_succ_eq_ok_iff]
    constructor
    · rintro ⟨next, hnext, count, hcount, hpasses, hend⟩
      exact ⟨count, hcount, ⟨next, hnext, hpasses⟩, hend⟩
    · rintro ⟨count, hcount, ⟨next, hnext, hpasses⟩, hend⟩
      exact ⟨next, hnext, count, hcount, hpasses, hend⟩

/-! ## What may be left -/

/-- A variable respells itself if its placeholder is expanded to a text that spells the placeholder
again. -/
def Respells (interpolator : Interpolator) (values : Variables) (name : String) : Prop :=
  values.text? name ≠ none ∧ ∃ out, interpolator.pass values (written name) = .ok out ∧
    written name <:+: out

/-- A segment is live if it is the placeholder of a variable. -/
def IsLive (values : Variables) (segment : Segment) : Prop :=
  ∃ name, segment = .placeholder name ∧ values.text? name ≠ none

/-- A segment that is not live becomes what is written there. -/
theorem eq_text_of_expandSegment {missing : Missing} {chain : List String} {segment : Segment}
    {inner : List String → List Char → Except VariableError (List Char)} {piece : List Char}
    (h : expandSegment values missing inner chain segment = .ok piece)
    (hdead : ¬IsLive values segment) : piece = segment.text := by
  cases segment with
  | literal c => cases h; rfl
  | placeholder name =>
    have hnone : values.text? name = none := by
      by_contra hne
      exact hdead ⟨name, rfl, hne⟩
    rcases expandSegment_placeholder_eq_ok_iff.mp h with ⟨-, -, rfl⟩ | ⟨value, hvalue, -⟩
    · rfl
    · exact absurd (hnone.symm.trans hvalue) (by simp)

/-- A text that a pass leaves as it is and that names a variable names one that respells itself. -/
theorem exists_respells_of_pass_eq_self {text : List Char}
    (h : interpolator.pass values text = .ok text)
    (hlive : ∃ name ∈ names text, values.text? name ≠ none) :
    ∃ name ∈ names text, interpolator.Respells values name := by
  obtain ⟨pieces, hpieces, hflat⟩ := expand_eq_ok_iff.mp h
  have hdead : ∀ segment piece, expandSegment values interpolator.missing
      (expandInner values interpolator.missing interpolator.maxDepth) [] segment = .ok piece →
      ¬IsLive values segment → piece = segment.text := fun _ _ ↦ eq_text_of_expandSegment
  have hmade : pieces.flatten = [] ++ (Segment.scan text).flatMap Segment.text := by
    rw [hflat, Segment.flatMap_text_scan, List.nil_append]
  have hsegment : ∃ segment ∈ Segment.scan text, IsLive values segment := by
    obtain ⟨name, hname, hsome⟩ := hlive
    exact ⟨_, mem_names.mp hname, name, rfl, hsome⟩
  obtain ⟨segment, hmem, ⟨name, rfl, hsome⟩, piece, hpiece, hinfix⟩ :=
    exists_isInfix_of_flatten_eq hdead hpieces hmade (.inr hsegment)
  have hname := mem_names.mpr hmem
  refine ⟨name, hname, hsome, piece, ?_, hinfix⟩
  rw [pass, expand_eq_ok_iff, Segment.scan_written (isName_of_mem_names hname)]
  exact ⟨[piece], .cons hpiece .nil, by simp⟩

/-- **What may be left.** Resolving a text leaves a placeholder of a variable exactly when passes,
one at least and as many as the depth at most, reach a text that a pass leaves as it is and that
names a variable which respells itself. Where absent variables are errors, no other placeholder is
left at all. -/
theorem resolve_leaves_variable_iff (interpolator : Interpolator) (values : Variables)
    (text out : List Char) :
    ((interpolator.resolve values text = .ok out ∧ ∃ name ∈ names out, values.text? name ≠ none) ↔
      (∃ count < interpolator.maxDepth,
        interpolator.passes values (count + 1) text = .ok out) ∧
      interpolator.pass values out = .ok out ∧
      ∃ name ∈ names out, interpolator.Respells values name) ∧
    (interpolator.missing = .fail → interpolator.resolve values text = .ok out →
      (names out = [] ↔ ∀ name ∈ names out, ¬interpolator.Respells values name)) := by
  have hleft : interpolator.resolve values text = .ok out →
      ∀ name ∈ names out, (∃ count < interpolator.maxDepth,
        interpolator.passes values (count + 1) text = .ok out) ∧
      interpolator.pass values out = .ok out := by
    intro hresolve name hname
    obtain ⟨count, -, hpasses, hend⟩ := resolve_eq_ok_iff.mp hresolve
    obtain ⟨hcount, hpass⟩ := hend.resolve_left (List.ne_nil_of_mem hname)
    exact ⟨⟨count, hcount, hpasses⟩, hpass⟩
  refine ⟨⟨?_, ?_⟩, fun hfail hresolve ↦ ⟨?_, ?_⟩⟩
  · rintro ⟨hresolve, name, hname, hsome⟩
    obtain ⟨hcount, hpass⟩ := hleft hresolve name hname
    exact ⟨hcount, hpass, exists_respells_of_pass_eq_self hpass ⟨name, hname, hsome⟩⟩
  · rintro ⟨⟨count, hcount, hpasses⟩, hpass, name, hname, hrespells⟩
    refine ⟨resolve_eq_ok_iff.mpr ⟨count, Nat.le_of_lt hcount, hpasses, .inr ⟨hcount, hpass⟩⟩, ?_⟩
    exact ⟨name, hname, hrespells.1⟩
  · intro hnil name hname
    rw [hnil] at hname
    exact absurd hname List.not_mem_nil
  · intro hnone
    by_contra hne
    obtain ⟨name, hname⟩ := List.exists_mem_of_ne_nil _ hne
    obtain ⟨-, hpass⟩ := hleft hresolve name hname
    have hsome : values.text? name ≠ none := fun habsent ↦ by
      have hkeep := (exists_expand_eq_ok_iff.mp ⟨out, hpass⟩ name hname).1 habsent
      rw [hfail] at hkeep
      cases hkeep
    obtain ⟨name, hname, hrespells⟩ := exists_respells_of_pass_eq_self hpass ⟨name, hname, hsome⟩
    exact hnone name hname hrespells

/-- Resolving `{b}` leaves it if `b` has the text `{{x}b}` and `x` is empty, though absent variables
are errors and a variable that names itself outright is one at any depth. -/
theorem resolve_leaves_respelled_variable :
    ¬∀ (interpolator : Interpolator) (values : Variables) (text out : List Char),
      interpolator.resolve values text = .ok out →
        (∀ name ∈ names out, values.text? name = none) ∧
          (interpolator.missing = .fail → names out = []) := by
  intro h
  have hout : Interpolator.default.resolve [("b", .string "{{x}b}"), ("x", .string "")]
      ['{', 'b', '}'] = .ok ['{', 'b', '}'] := by decide
  have hnone := (h _ _ _ _ hout).2 rfl
  exact absurd hnone (by decide)

end Interpolator
end Playbook
