import Playbook.Interpolator
import Playbook.Proofs.Outcome
import Playbook.Proofs.Segments

/-!
# One pass is recursive expansion

A pass puts the texts of variables in the place of their placeholders, and their texts are expanded
before they are put in. `Expands` says this without a depth, without a chain of names and without
errors: it relates the segments of a text to what becomes of them. A pass that ends in a text has
computed this relation.
-/

namespace Playbook

open Placeholder Outcome

/-! ## Meaning -/

/-- What becomes of segments: an absent name stays as it is written, and a variable gives way to the
expansion of its own text. -/
inductive Expands (values : Variables) : List Segment → List Char → Prop
  | nil : Expands values [] []
  | literal {c : Char} {rest : List Segment} {out : List Char} :
      Expands values rest out → Expands values (.literal c :: rest) (c :: out)
  | absent {name : String} {rest : List Segment} {out : List Char} :
      values.text? name = none → Expands values rest out →
      Expands values (.placeholder name :: rest) (written name ++ out)
  | present {name : String} {value inner out : List Char} {rest : List Segment} :
      values.text? name = some value → Expands values (Segment.scan value) inner →
      Expands values rest out → Expands values (.placeholder name :: rest) (inner ++ out)

/-! ## Expansions -/

namespace Expands

variable {values : Variables}

/-- Segments have no more than one expansion. -/
theorem unique {segments : List Segment} {out out' : List Char} (h : Expands values segments out)
    (h' : Expands values segments out') : out = out' := by
  induction h generalizing out' with
  | nil => cases h'; rfl
  | literal _ ih =>
    cases h' with
    | literal hrest => rw [ih hrest]
  | absent hnone _ ih =>
    cases h' with
    | absent _ hrest => rw [ih hrest]
    | present hsome => rw [hnone] at hsome; cases hsome
  | present hsome _ _ ihinner ihrest =>
    cases h' with
    | absent hnone => rw [hnone] at hsome; cases hsome
    | present hsome' hinner hrest =>
      cases hsome.symm.trans hsome'
      rw [ihinner hinner, ihrest hrest]

theorem append {first second : List Segment} {out out' : List Char}
    (h : Expands values first out) (h' : Expands values second out') :
    Expands values (first ++ second) (out ++ out') := by
  induction h with
  | nil => exact h'
  | literal _ ih => exact .literal ih
  | absent hnone _ ih => rw [List.append_assoc]; exact .absent hnone ih
  | present hsome hinner _ _ ih => rw [List.append_assoc]; exact .present hsome hinner ih

/-- The expansion of a list of segments is put together from those of its members. -/
theorem flatten {segments : List Segment} {pieces : List (List Char)}
    (h : List.Forall₂ (fun segment piece ↦ Expands values [segment] piece) segments pieces) :
    Expands values segments pieces.flatten := by
  induction h with
  | nil => exact .nil
  | cons hpiece _ ih => exact hpiece.append ih

/-- Segments without placeholders of variables stay as they are. -/
theorem of_absent {segments : List Segment}
    (h : ∀ name, .placeholder name ∈ segments → values.text? name = none) :
    Expands values segments (segments.flatMap Segment.text) := by
  induction segments with
  | nil => exact .nil
  | cons segment rest ih =>
    have hrest := ih fun name hmem ↦ h name (List.mem_cons_of_mem _ hmem)
    cases segment with
    | literal c => exact .literal hrest
    | placeholder name => exact .absent (h name List.mem_cons_self) hrest

/-- A text that names no variable stays as it is. -/
theorem of_names_absent {text : List Char} (h : ∀ name ∈ names text, values.text? name = none) :
    Expands values (Segment.scan text) text := by
  nth_rewrite 2 [← Segment.flatMap_text_scan text]
  exact of_absent fun name hmem ↦ h name (mem_names.mpr hmem)

/-- A text without placeholders stays as it is. -/
theorem of_names_eq_nil {text : List Char} (h : names text = []) :
    Expands values (Segment.scan text) text := by
  refine of_names_absent fun name hname ↦ ?_
  rw [h] at hname
  exact absurd hname List.not_mem_nil

end Expands

/-! ## The pass, unfolded once

The two equations of `expand` differ only in what becomes of a text one level down. `expandInner`
names that, so that each fact about a pass is one induction on the depth with one case for a
segment. -/

namespace Interpolator

variable {values : Variables} {missing : Missing}

/-- What a pass with `depth` more levels does to a text one level down. -/
def expandInner (values : Variables) (missing : Missing) :
    (depth : Nat) → (chain : List String) → List Char → Except VariableError (List Char)
  | 0, chain, _ => .error (.circular chain)
  | depth + 1, chain, text => expand values missing depth chain text

theorem expand_eq (depth : Nat) (chain : List String) (text : List Char) :
    expand values missing depth chain text =
      ((Segment.scan text).mapM
        (expandSegment values missing (expandInner values missing depth) chain)).map
        List.flatten := by
  cases depth <;> rfl

theorem expandInner_eq_ok_iff {depth : Nat} {chain : List String} {text out : List Char} :
    expandInner values missing depth chain text = .ok out ↔
      ∃ depth', depth = depth' + 1 ∧ expand values missing depth' chain text = .ok out := by
  cases depth <;> simp [expandInner]

theorem expand_eq_ok_iff {depth : Nat} {chain : List String} {text out : List Char} :
    expand values missing depth chain text = .ok out ↔
      ∃ pieces, List.Forall₂
        (fun segment piece ↦
          expandSegment values missing (expandInner values missing depth) chain segment = .ok piece)
        (Segment.scan text) pieces ∧ pieces.flatten = out := by
  rw [expand_eq, map_eq_ok_iff]
  simp only [mapM_eq_ok_iff]

/-- What a placeholder becomes: what is written, if its variable is absent and may be, and otherwise
the text of its variable, expanded if it has placeholders. -/
theorem expandSegment_placeholder_eq_ok_iff {name : String} {chain : List String}
    {inner : List String → List Char → Except VariableError (List Char)} {piece : List Char} :
    expandSegment values missing inner chain (.placeholder name) = .ok piece ↔
      (values.text? name = none ∧ missing = .keep ∧ piece = written name) ∨
      ∃ value, values.text? name = some value ∧ name ∉ chain ∧
        (names value ≠ [] → inner (chain ++ [name]) value = .ok piece) ∧
        (names value = [] → piece = value) := by
  cases hvalue : values.text? name with
  | none =>
    cases missing with
    | fail => simp [expandSegment, hvalue]
    | keep => simp [expandSegment, hvalue, eq_comm (a := piece)]
  | some value =>
    simp only [expandSegment, hvalue, reduceCtorEq, false_and, false_or, Option.some.injEq,
      exists_eq_left']
    by_cases hchain : name ∈ chain
    · simp [hchain]
    · by_cases hnames : names value = []
      · have hocc : ¬occursIn value := by rw [occursIn_iff, not_not, hnames]
        simp [hchain, hocc, hnames, eq_comm (a := piece)]
      · simp [hchain, occursIn_iff.mpr hnames, hnames]

/-- A pass ends in a text exactly when every placeholder does, and each does if it may stay as it is
or if its variable is not on the chain and has a text that ends one level down. -/
theorem exists_expand_eq_ok_iff {depth : Nat} {chain : List String} {text : List Char} :
    (∃ out, expand values missing depth chain text = .ok out) ↔
      ∀ name ∈ names text, (values.text? name = none → missing = .keep) ∧
        ∀ value, values.text? name = some value → name ∉ chain ∧
          (names value ≠ [] → ∃ depth', depth = depth' + 1 ∧
            ∃ out, expand values missing depth' (chain ++ [name]) value = .ok out) := by
  have hsegments : (∃ out, expand values missing depth chain text = .ok out) ↔
      ∀ segment ∈ Segment.scan text, ∃ piece,
        expandSegment values missing (expandInner values missing depth) chain segment
          = .ok piece := by
    rw [← exists_mapM_eq_ok_iff]
    simp only [expand_eq, map_eq_ok_iff]
    exact ⟨fun ⟨_, r, hr, _⟩ ↦ ⟨r, hr⟩, fun ⟨r, hr⟩ ↦ ⟨_, r, hr, rfl⟩⟩
  rw [hsegments]
  constructor
  · intro h name hname
    obtain ⟨piece, hpiece⟩ := h _ (mem_names.mp hname)
    rw [expandSegment_placeholder_eq_ok_iff] at hpiece
    rcases hpiece with ⟨hnone, hkeep, -⟩ | ⟨value, hvalue, hchain, hinner, -⟩
    · exact ⟨fun _ ↦ hkeep, fun value hvalue ↦ absurd (hnone.symm.trans hvalue) (by simp)⟩
    · refine ⟨fun hnone ↦ absurd (hnone.symm.trans hvalue) (by simp), fun value' hvalue' ↦ ?_⟩
      cases hvalue.symm.trans hvalue'
      refine ⟨hchain, fun hnames ↦ ?_⟩
      obtain ⟨depth', hdepth, hout⟩ := expandInner_eq_ok_iff.mp (hinner hnames)
      exact ⟨depth', hdepth, piece, hout⟩
  · intro h segment hsegment
    cases segment with
    | literal c => exact ⟨[c], rfl⟩
    | placeholder name =>
      obtain ⟨hnone, hsome⟩ := h name (mem_names.mpr hsegment)
      simp only [expandSegment_placeholder_eq_ok_iff]
      cases hvalue : values.text? name with
      | none => exact ⟨_, .inl ⟨rfl, hnone hvalue, rfl⟩⟩
      | some value =>
        obtain ⟨hchain, hinner⟩ := hsome value hvalue
        by_cases hnames : names value = []
        · exact ⟨value, .inr ⟨value, rfl, hchain, fun hne ↦ absurd hnames hne, fun _ ↦ rfl⟩⟩
        · obtain ⟨depth', hdepth, out, hout⟩ := hinner hnames
          exact ⟨out, .inr ⟨value, rfl, hchain,
            fun _ ↦ expandInner_eq_ok_iff.mpr ⟨depth', hdepth, hout⟩,
            fun hnil ↦ absurd hnil hnames⟩⟩

/-! ## A pass computes the expansion -/

theorem expands_of_expandSegment {chain : List String} {segment : Segment} {piece : List Char}
    {inner : List String → List Char → Except VariableError (List Char)}
    (hinner : ∀ chain text out, inner chain text = .ok out →
      Expands values (Segment.scan text) out)
    (h : expandSegment values missing inner chain segment = .ok piece) :
    Expands values [segment] piece := by
  cases segment with
  | literal c => cases h; exact .literal .nil
  | placeholder name =>
    rw [← List.append_nil piece]
    rcases expandSegment_placeholder_eq_ok_iff.mp h with
      ⟨hnone, -, rfl⟩ | ⟨value, hvalue, -, hexpand, hplain⟩
    · exact .absent hnone .nil
    · refine .present hvalue ?_ .nil
      by_cases hnames : names value = []
      · rw [hplain hnames]
        exact .of_names_eq_nil hnames
      · exact hinner _ _ _ (hexpand hnames)

theorem expands_of_expand {depth : Nat} {chain : List String} {text out : List Char}
    (h : expand values missing depth chain text = .ok out) :
    Expands values (Segment.scan text) out := by
  induction depth using Nat.strongRecOn generalizing chain text out with
  | ind depth ih =>
    obtain ⟨pieces, hpieces, rfl⟩ := expand_eq_ok_iff.mp h
    -- Below this level the chain is longer and the depth is less.
    refine .flatten (hpieces.imp fun segment piece hpiece ↦ ?_)
    refine expands_of_expandSegment (fun chain text out hout ↦ ?_) hpiece
    obtain ⟨depth', rfl, hout⟩ := expandInner_eq_ok_iff.mp hout
    exact ih depth' (Nat.lt_succ_self _) hout

end Interpolator
end Playbook
