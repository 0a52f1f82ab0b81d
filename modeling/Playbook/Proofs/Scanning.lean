import Playbook.Proofs.Segments

/-!
# What the scanner finds

The names of placeholders are described twice. A name has no brace and no quote and no blank at
either end (`Placeholder.IsProper`), and names are the texts that a regular expression matches:
words with blanks between them (`Placeholder.namePattern`). Both describe what the scanner takes for
a name.

The scanner is a search for that expression in braces, from left to right, each search starting
where the last match ended (`Segment.Searched`). A search of this kind might miss something inside
of what it has matched. It does not, as a name has no opening brace: what the scanner finds are all
places where a name stands in braces.
-/

namespace Playbook

/-! ## Patterns -/

/-- A regular expression. -/
inductive Pattern where
  /-- A character of a class. -/
  | one (allowed : Char → Bool)
  /-- One expression after another. -/
  | seq (first next : Pattern)
  /-- Any number of repetitions. -/
  | many (piece : Pattern)

namespace Pattern

/-- At least one repetition. -/
def some (piece : Pattern) : Pattern := .seq piece (.many piece)

/-- The texts that an expression matches. -/
inductive Matches : Pattern → List Char → Prop
  | one {allowed : Char → Bool} {c : Char} (h : allowed c) : Matches (.one allowed) [c]
  | seq {first next : Pattern} {text rest : List Char} (hfirst : Matches first text)
      (hnext : Matches next rest) : Matches (.seq first next) (text ++ rest)
  | manyNil {piece : Pattern} : Matches (.many piece) []
  | manyCons {piece : Pattern} {text rest : List Char} (hpiece : Matches piece text)
      (hrest : Matches (.many piece) rest) : Matches (.many piece) (text ++ rest)

variable {allowed : Char → Bool} {text : List Char}

theorem matches_one_iff : Matches (.one allowed) text ↔ ∃ c, allowed c ∧ text = [c] := by
  constructor
  · rintro ⟨h⟩
    exact ⟨_, h, rfl⟩
  · rintro ⟨c, h, rfl⟩
    exact .one h

theorem matches_seq_iff {first next : Pattern} : Matches (.seq first next) text ↔
    ∃ before after, Matches first before ∧ Matches next after ∧ text = before ++ after := by
  constructor
  · rintro ⟨⟩
    exact ⟨_, _, ‹_›, ‹_›, rfl⟩
  · rintro ⟨before, after, hfirst, hnext, rfl⟩
    exact .seq hfirst hnext

theorem matches_many_one_iff : Matches (.many (.one allowed)) text ↔ ∀ c ∈ text, allowed c := by
  constructor
  · intro h
    generalize hpattern : Pattern.many (.one allowed) = pattern at h
    induction h with
    | one => cases hpattern
    | seq => cases hpattern
    | manyNil => exact nofun
    | manyCons hpiece _ _ ih =>
      cases hpattern
      obtain ⟨c, hc, rfl⟩ := matches_one_iff.mp hpiece
      exact List.forall_mem_cons.mpr ⟨hc, ih rfl⟩
  · intro h
    induction text with
    | nil => exact .manyNil
    | cons c text ih =>
      obtain ⟨hc, htext⟩ := List.forall_mem_cons.mp h
      exact .manyCons (.one hc) (ih htext)

theorem matches_some_one_iff :
    Matches (some (.one allowed)) text ↔ text ≠ [] ∧ ∀ c ∈ text, allowed c := by
  rw [some, matches_seq_iff]
  constructor
  · rintro ⟨before, after, hfirst, hafter, rfl⟩
    obtain ⟨c, hc, rfl⟩ := matches_one_iff.mp hfirst
    exact ⟨nofun, List.forall_mem_cons.mpr ⟨hc, matches_many_one_iff.mp hafter⟩⟩
  · rintro ⟨hne, hall⟩
    obtain ⟨c, rest, rfl⟩ := List.exists_cons_of_ne_nil hne
    obtain ⟨hc, hrest⟩ := List.forall_mem_cons.mp hall
    exact ⟨[c], rest, .one hc, matches_many_one_iff.mpr hrest, rfl⟩

end Pattern

/-! ## Names -/

namespace Placeholder

open Pattern

/-- Whether a text can be the name of a placeholder. -/
structure IsProper (name : List Char) : Prop where
  ne_nil : name ≠ []
  allowed : ∀ c ∈ name, c ≠ '{' ∧ c ≠ '}' ∧ c ≠ '"' ∧ c ≠ '\''
  first : ∀ c ∈ name.head?, Text.isBlank c = false
  last : ∀ c ∈ name.getLast?, Text.isBlank c = false

variable {name text : List Char} {c : Char}

theorem isNameChar_iff : isNameChar c ↔ c ≠ '{' ∧ c ≠ '}' ∧ c ≠ '"' ∧ c ≠ '\'' := by
  simp [isNameChar, and_assoc]

theorem isName_iff : isName name ↔ IsProper name := by
  have hany : ∀ found : Option Char, (found.any fun c ↦ !Text.isBlank c) ↔
      found ≠ none ∧ ∀ c ∈ found, Text.isBlank c = false := by
    intro found
    cases found <;> simp
  rw [isName, Bool.and_eq_true, Bool.and_eq_true, List.all_eq_true, hany, hany]
  constructor
  · rintro ⟨⟨hall, hne, hfirst⟩, -, hlast⟩
    have hname : name ≠ [] := fun hnil ↦ hne (List.head?_eq_none_iff.mpr hnil)
    exact ⟨hname, fun c hc ↦ isNameChar_iff.mp (hall c hc), hfirst, hlast⟩
  · rintro ⟨hne, hall, hfirst, hlast⟩
    exact ⟨⟨fun c hc ↦ isNameChar_iff.mpr (hall c hc), mt List.head?_eq_none_iff.mp hne, hfirst⟩,
      mt List.getLast?_eq_none_iff.mp hne, hlast⟩

/-- Whether a character may be in a word of a name. -/
def isWordChar (c : Char) : Bool := isNameChar c && !Text.isBlank c

/-- The words of names. -/
def word : Pattern := .some (.one isWordChar)

/-- What stands between words. -/
def gap : Pattern := .some (.one Text.isBlank)

/-- The names of placeholders: words with gaps between them. -/
def namePattern : Pattern := .seq word (.many (.seq gap word))

/-- A name in braces. -/
def pattern : Pattern := .seq (.one (· = '{')) (.seq namePattern (.one (· = '}')))

/-! ### What the expression matches is a name -/

theorem isNameChar_of_isBlank (h : Text.isBlank c) : isNameChar c := by
  rw [isNameChar_iff]
  refine ⟨?_, ?_, ?_, ?_⟩ <;> (rintro rfl; exact absurd h (by decide))

theorem of_isWordChar (h : isWordChar c) : isNameChar c ∧ Text.isBlank c = false := by
  rwa [isWordChar, Bool.and_eq_true, Bool.not_eq_true'] at h

theorem of_matches_word (h : word.Matches text) :
    text ≠ [] ∧ ∀ c ∈ text, isNameChar c ∧ Text.isBlank c = false := by
  obtain ⟨hne, hall⟩ := matches_some_one_iff.mp h
  exact ⟨hne, fun c hc ↦ of_isWordChar (hall c hc)⟩

/-- What comes after the first word goes on to the end of a word. -/
theorem of_matches_many (h : (Pattern.many (.seq gap word)).Matches text) :
    (∀ c ∈ text, isNameChar c) ∧ ∀ c ∈ text.getLast?, Text.isBlank c = false := by
  generalize hmany : Pattern.many (.seq gap word) = many at h
  induction h with
  | one => cases hmany
  | seq => cases hmany
  | manyNil => exact ⟨nofun, nofun⟩
  | manyCons hpiece _ _ ih =>
    cases hmany
    obtain ⟨hchars, hlast⟩ := ih rfl
    obtain ⟨blanks, letters, hgap, hword, rfl⟩ := matches_seq_iff.mp hpiece
    obtain ⟨hne, hword⟩ := of_matches_word hword
    have hgap := (matches_some_one_iff.mp hgap).2
    constructor
    · rw [List.forall_mem_append, List.forall_mem_append]
      exact ⟨⟨fun c hc ↦ isNameChar_of_isBlank (hgap c hc), fun c hc ↦ (hword c hc).1⟩, hchars⟩
    · intro c hc
      rw [List.getLast?_append, List.getLast?_append_of_ne_nil _ hne, Option.mem_def,
        Option.or_eq_some_iff] at hc
      rcases hc with hc | ⟨-, hc⟩
      · exact hlast c hc
      · exact (hword c (List.mem_of_getLast? hc)).2

theorem isProper_of_matches (h : namePattern.Matches name) : IsProper name := by
  obtain ⟨letters, rest, hword, hrest, rfl⟩ := matches_seq_iff.mp h
  obtain ⟨hne, hword⟩ := of_matches_word hword
  obtain ⟨hchars, hlast⟩ := of_matches_many hrest
  refine ⟨List.append_ne_nil_of_left_ne_nil hne _, ?_, ?_, ?_⟩
  · rw [List.forall_mem_append]
    exact ⟨fun c hc ↦ isNameChar_iff.mp (hword c hc).1, fun c hc ↦ isNameChar_iff.mp (hchars c hc)⟩
  · intro c hc
    rw [List.head?_append_of_ne_nil _ hne] at hc
    exact (hword c (List.mem_of_mem_head? hc)).2
  · intro c hc
    rw [List.getLast?_append, Option.mem_def, Option.or_eq_some_iff] at hc
    rcases hc with hc | ⟨-, hc⟩
    · exact hlast c hc
    · exact (hword c (List.mem_of_getLast? hc)).2

/-! ### A name is matched -/

theorem matches_word_cons (hc : isWordChar c) (h : word.Matches text ∨ text = []) :
    word.Matches (c :: text) := by
  refine matches_some_one_iff.mpr ⟨nofun, List.forall_mem_cons.mpr ⟨hc, ?_⟩⟩
  rcases h with h | rfl
  · exact (matches_some_one_iff.mp h).2
  · exact nofun

theorem matches_gap_cons (hc : Text.isBlank c) (h : gap.Matches text ∨ text = []) :
    gap.Matches (c :: text) := by
  refine matches_some_one_iff.mpr ⟨nofun, List.forall_mem_cons.mpr ⟨hc, ?_⟩⟩
  rcases h with h | rfl
  · exact (matches_some_one_iff.mp h).2
  · exact nofun

/-- A text that ends in no blank is a name, after a gap if it starts with a blank. The induction is
from the right, so that the first character joins the first word or gap of what follows it. -/
theorem matches_cons (hall : ∀ x ∈ c :: text, isNameChar x)
    (hlast : ∀ x ∈ (c :: text).getLast?, Text.isBlank x = false) :
    if Text.isBlank c then (Pattern.seq gap namePattern).Matches (c :: text)
    else namePattern.Matches (c :: text) := by
  induction text generalizing c with
  | nil =>
    have hblank := hlast c rfl
    have hword : isWordChar c := by
      simp [isWordChar, hall c List.mem_cons_self, hblank]
    rw [hblank, if_neg Bool.false_ne_true]
    exact .seq (matches_word_cons hword (.inr rfl)) .manyNil
  | cons d text ih =>
    have hnext := ih (fun x hx ↦ hall x (List.mem_cons_of_mem c hx))
      (by rwa [List.getLast?_cons_cons] at hlast)
    by_cases hc : Text.isBlank c
    · rw [if_pos hc]
      by_cases hd : Text.isBlank d
      · rw [if_pos hd] at hnext
        obtain ⟨blanks, rest, hgap, hname, heq⟩ := matches_seq_iff.mp hnext
        rw [heq]
        exact .seq (matches_gap_cons hc (.inl hgap)) hname
      · rw [if_neg hd] at hnext
        exact .seq (matches_gap_cons hc (.inr rfl)) hnext
    · have hword : isWordChar c := by
        simp [isWordChar, hall c List.mem_cons_self, hc]
      rw [if_neg hc]
      by_cases hd : Text.isBlank d
      · rw [if_pos hd] at hnext
        obtain ⟨blanks, rest, hgap, hname, heq⟩ := matches_seq_iff.mp hnext
        obtain ⟨letters, more, hletters, hmore, rfl⟩ := matches_seq_iff.mp hname
        rw [heq, ← List.append_assoc]
        exact .seq (matches_word_cons hword (.inr rfl)) (.manyCons (.seq hgap hletters) hmore)
      · rw [if_neg hd] at hnext
        obtain ⟨letters, more, hletters, hmore, heq⟩ := matches_seq_iff.mp hnext
        rw [heq]
        exact .seq (matches_word_cons hword (.inl hletters)) hmore

theorem matches_namePattern_iff : namePattern.Matches name ↔ IsProper name := by
  refine ⟨isProper_of_matches, ?_⟩
  rintro ⟨hne, hall, hfirst, hlast⟩
  obtain ⟨c, text, rfl⟩ := List.exists_cons_of_ne_nil hne
  have hmatches := matches_cons (fun x hx ↦ isNameChar_iff.mpr (hall x hx)) hlast
  rwa [hfirst c rfl, if_neg Bool.false_ne_true] at hmatches

theorem written_injective : Function.Injective written := by
  intro name other h
  have hbody := (List.cons.inj h).2
  rw [List.append_cancel_right_eq] at hbody
  exact String.toList_injective hbody

theorem matches_pattern_iff :
    pattern.Matches text ↔ ∃ name : String, IsProper name.toList ∧ text = written name := by
  simp only [pattern, matches_seq_iff, matches_one_iff, matches_namePattern_iff, decide_eq_true_eq]
  constructor
  · rintro ⟨_, _, ⟨_, rfl, rfl⟩, ⟨name, _, hname, ⟨_, rfl, rfl⟩, rfl⟩, rfl⟩
    exact ⟨String.ofList name, by rwa [String.toList_ofList], by simp [written]⟩
  · rintro ⟨name, hname, rfl⟩
    exact ⟨_, _, ⟨_, rfl, rfl⟩, ⟨name.toList, _, hname, ⟨_, rfl, rfl⟩, rfl⟩, rfl⟩

theorem matches_written_iff {name : String} :
    pattern.Matches (written name) ↔ IsProper name.toList := by
  rw [matches_pattern_iff]
  constructor
  · rintro ⟨other, hother, heq⟩
    rwa [written_injective heq]
  · exact fun hname ↦ ⟨name, hname, rfl⟩

/-! ## Places -/

/-- Whether a placeholder stands in a text after so many characters. -/
def OccursAt (text : List Char) (place : Nat) (name : String) : Prop :=
  IsProper name.toList ∧ written name <+: text.drop place

theorem nameAt?_eq_some_iff_occursAt {name : String} :
    nameAt? text = some name.toList ↔ OccursAt text 0 name := by
  rw [nameAt?_eq_some_iff, isName_iff, OccursAt, List.drop_zero]
  refine and_congr_right fun _ ↦ exists_congr fun rest ↦ ?_
  rw [written, List.cons_append, List.append_assoc, eq_comm]
  rfl

theorem occursAt_append_iff {rest : List Char} {place : Nat} {name : String} :
    OccursAt (text ++ rest) (text.length + place) name ↔ OccursAt rest place name := by
  rw [OccursAt, List.drop_length_add_append, OccursAt]

/-- A name has no opening brace, so nothing starts inside of a placeholder. -/
theorem not_occursAt_written {rest : List Char} {place : Nat} {name other : String}
    (hname : IsProper name.toList) (hpos : 0 < place) (hlt : place < (written name).length) :
    ¬OccursAt (written name ++ rest) place other := by
  rintro ⟨-, after, hafter⟩
  obtain ⟨place, rfl⟩ := Nat.exists_eq_add_one.mpr hpos
  have hle : place + 1 ≤ (written name).length := Nat.le_of_lt hlt
  have htail : (written name).drop (place + 1) = (name.toList ++ ['}']).drop place := rfl
  obtain ⟨c, tail, hc⟩ : ∃ c tail, (name.toList ++ ['}']).drop place = c :: tail := by
    refine List.exists_cons_of_ne_nil fun hnil ↦ ?_
    rw [List.drop_eq_nil_iff] at hnil
    exact absurd hlt (Nat.not_lt_of_le (Nat.succ_le_succ hnil))
  rw [List.drop_append_of_le_length hle, htail, hc] at hafter
  have hbrace : c = '{' := (List.cons.inj hafter).1.symm
  have hmem : c ∈ name.toList ++ ['}'] := List.mem_of_mem_drop (hc ▸ List.mem_cons_self)
  rcases List.mem_append.mp hmem with hmem | hmem
  · exact (hname.allowed c hmem).1 hbrace
  · rw [hbrace] at hmem
    exact absurd hmem (by decide)

end Placeholder

namespace Segment

open Placeholder

/-! ## Searching -/

/-- What a search for placeholders from left to right yields: where the expression matches, the
search goes on after the match, and elsewhere after a single character. -/
inductive Searched : List Char → List Segment → Prop
  | done : Searched [] []
  | found {name : String} {rest : List Char} {segments : List Segment}
      (hmatch : pattern.Matches (written name)) (hrest : Searched rest segments) :
      Searched (written name ++ rest) (.placeholder name :: segments)
  | passed {c : Char} {rest : List Char} {segments : List Segment}
      (hnone : ∀ start, start <+: c :: rest → ¬pattern.Matches start)
      (hrest : Searched rest segments) : Searched (c :: rest) (.literal c :: segments)

theorem scanFrom_eq_scan_drop (skip : Nat) (cs : List Char) :
    scanFrom skip cs = scan (cs.drop skip) := by
  induction cs generalizing skip with
  | nil => simp [scan, scanFrom]
  | cons c cs ih =>
    cases skip with
    | zero => rfl
    | succ skip => rw [scanFrom, ih, List.drop_succ_cons]

theorem nameAt?_written_append {name : String} (hname : IsProper name.toList) (rest : List Char) :
    nameAt? (written name ++ rest) = some name.toList :=
  nameAt?_eq_some_iff_occursAt.mpr ⟨hname, List.prefix_append _ _⟩

theorem scan_written_append {name : String} (hname : IsProper name.toList) (rest : List Char) :
    scan (written name ++ rest) = .placeholder name :: scan rest := by
  have hat := nameAt?_written_append hname rest
  have hrest : (name.toList ++ ['}'] ++ rest).drop (name.toList.length + 1) = rest := by
    rw [← List.length_singleton (a := '}'), ← List.length_append, List.drop_left]
  rw [written, List.cons_append] at hat ⊢
  rw [scan, scanFrom, hat]
  change _ :: scanFrom _ _ = _
  rw [scanFrom_eq_scan_drop, hrest, String.ofList_toList]

theorem nameAt?_eq_none_iff {cs : List Char} :
    nameAt? cs = none ↔ ∀ start, start <+: cs → ¬pattern.Matches start := by
  rw [Option.eq_none_iff_forall_ne_some]
  constructor
  · rintro h start hstart hmatch
    obtain ⟨name, hname, rfl⟩ := matches_pattern_iff.mp hmatch
    exact h _ (nameAt?_eq_some_iff_occursAt.mpr ⟨hname, hstart⟩)
  · rintro h name hat
    have hoccurs : OccursAt cs 0 (String.ofList name) :=
      nameAt?_eq_some_iff_occursAt.mp (by rwa [String.toList_ofList])
    exact h _ hoccurs.2 (matches_pattern_iff.mpr ⟨_, hoccurs.1, rfl⟩)

theorem scan_cons_of_nameAt?_eq_none {c : Char} {cs : List Char} (h : nameAt? (c :: cs) = none) :
    scan (c :: cs) = .literal c :: scan cs := by
  rw [scan, scanFrom, h, scan]

theorem searched_scan (cs : List Char) : Searched cs (scan cs) := by
  induction hlength : cs.length using Nat.strongRecOn generalizing cs with
  | _ length ih =>
    subst hlength
    cases cs with
    | nil => exact .done
    | cons c cs =>
      cases hat : nameAt? (c :: cs) with
      | none =>
        rw [scan_cons_of_nameAt?_eq_none hat]
        exact .passed (nameAt?_eq_none_iff.mp hat) (ih _ (Nat.lt_succ_self _) cs rfl)
      | some name =>
        have hoccurs : OccursAt (c :: cs) 0 (String.ofList name) :=
          nameAt?_eq_some_iff_occursAt.mp (by rwa [String.toList_ofList])
        obtain ⟨hname, rest, hrest⟩ := hoccurs
        rw [List.drop_zero] at hrest
        rw [← hrest, scan_written_append hname]
        refine .found (matches_written_iff.mpr hname) (ih _ ?_ rest rfl)
        rw [← hrest, List.length_append]
        exact Nat.lt_add_of_pos_left (Nat.succ_pos _)

/-- **Searching.** The segments of a text are what a search for the expression yields. -/
theorem searched_iff {cs : List Char} {segments : List Segment} :
    Searched cs segments ↔ segments = scan cs := by
  constructor
  · intro h
    induction h with
    | done => rfl
    | found hmatch _ ih => rw [ih, scan_written_append (matches_written_iff.mp hmatch)]
    | passed hnone _ ih => rw [ih, scan_cons_of_nameAt?_eq_none (nameAt?_eq_none_iff.mpr hnone)]
  · rintro rfl
    exact searched_scan cs

/-! ## What is found -/

/-- The placeholders among segments with their places, the first segment being in a given place. -/
def placed : (place : Nat) → List Segment → List (Nat × String)
  | _, [] => []
  | place, .literal _ :: rest => placed (place + 1) rest
  | place, .placeholder name :: rest =>
    (place, name) :: placed (place + (written name).length) rest

/-- Whether a placeholder in its place ends before another one starts. -/
def Precedes (a b : Nat × String) : Prop := a.1 + (written a.2).length ≤ b.1

/-- Whether two placeholders in their places are the same or do not overlap. -/
def Apart (a b : Nat × String) : Prop := a = b ∨ Precedes a b ∨ Precedes b a

theorem le_of_mem_placed {start : Nat} {segments : List Segment} {entry : Nat × String}
    (h : entry ∈ placed start segments) : start ≤ entry.1 := by
  induction segments generalizing start with
  | nil => cases h
  | cons segment rest ih =>
    cases segment with
    | literal c => exact Nat.le_of_succ_le (ih h)
    | placeholder name =>
      rcases List.mem_cons.mp h with rfl | h
      · exact Nat.le_refl _
      · exact Nat.le_of_add_right_le (ih h)

/-- From left to right, each placeholder starts where the one before it has ended or later. -/
theorem pairwise_placed (start : Nat) (segments : List Segment) :
    (placed start segments).Pairwise Precedes := by
  induction segments generalizing start with
  | nil => exact .nil
  | cons segment rest ih =>
    cases segment with
    | literal c => exact ih _
    | placeholder name => exact .cons (fun _ h ↦ le_of_mem_placed h) (ih _)

theorem map_placed (start : Nat) (segments : List Segment) :
    (placed start segments).map Prod.snd = segments.filterMap name? := by
  induction segments generalizing start with
  | nil => rfl
  | cons segment rest ih =>
    cases segment with
    | literal c => exact ih _
    | placeholder name => exact congrArg (name :: ·) (ih _)

/-- A search finds the places where a placeholder stands. -/
theorem Searched.mem_placed_iff {text : List Char} {segments : List Segment}
    (h : Searched text segments) {start place : Nat} {name : String} :
    (place, name) ∈ placed start segments ↔ ∃ n, place = start + n ∧ OccursAt text n name := by
  induction h generalizing start with
  | done =>
    refine iff_of_false nofun ?_
    rintro ⟨n, -, -, hprefix⟩
    rw [List.drop_nil, List.prefix_nil] at hprefix
    cases hprefix
  | @found other rest segments hmatch _ ih =>
    have hother := matches_written_iff.mp hmatch
    rw [placed, List.mem_cons, ih]
    constructor
    · rintro (heq | ⟨n, rfl, hn⟩)
      · cases heq
        exact ⟨0, rfl, hother, List.prefix_append _ _⟩
      · exact ⟨_, Nat.add_assoc _ _ _, occursAt_append_iff.mpr hn⟩
    · rintro ⟨n, rfl, hn⟩
      rcases Nat.lt_or_ge n (written other).length with hlt | hge
      · rcases Nat.eq_zero_or_pos n with rfl | hpos
        · -- Two names that stand in the same place are the same.
          have hsame := nameAt?_eq_some_iff_occursAt.mpr hn
          rw [nameAt?_written_append hother, Option.some_inj] at hsame
          rw [String.toList_injective hsame]
          exact .inl rfl
        · exact absurd hn (not_occursAt_written hother hpos hlt)
      · obtain ⟨n, rfl⟩ := Nat.exists_eq_add_of_le hge
        exact .inr ⟨n, (Nat.add_assoc _ _ _).symm, occursAt_append_iff.mp hn⟩
  | @passed c rest segments hnone _ ih =>
    rw [placed, ih]
    constructor
    · rintro ⟨n, rfl, hn⟩
      have hlater : OccursAt ([c] ++ rest) ([c].length + n) name := occursAt_append_iff.mpr hn
      exact ⟨1 + n, Nat.add_assoc _ _ _, hlater⟩
    · rintro ⟨n, rfl, hn⟩
      cases n with
      | zero => exact absurd (matches_written_iff.mpr hn.1) (hnone _ hn.2)
      | succ n => exact ⟨n, (Nat.add_right_comm start 1 n).symm, hn⟩

theorem mem_placed_scan_iff {text : List Char} {place : Nat} {name : String} :
    (place, name) ∈ placed 0 (scan text) ↔ OccursAt text place name := by
  rw [(searched_scan text).mem_placed_iff]
  constructor
  · rintro ⟨n, rfl, hn⟩
    rwa [Nat.zero_add]
  · exact fun h ↦ ⟨place, (Nat.zero_add _).symm, h⟩

/-- Two placeholders of a text are the same or one of them ends before the other starts. -/
theorem apart_of_occursAt {text : List Char} {place place' : Nat} {name name' : String}
    (h : OccursAt text place name) (h' : OccursAt text place' name') :
    Apart (place, name) (place', name') := by
  have hordered := pairwise_placed 0 (scan text)
  have hapart : (placed 0 (scan text)).Pairwise Apart :=
    hordered.imp fun hprecedes ↦ .inr (.inl hprecedes)
  have hflip : (placed 0 (scan text)).Pairwise (flip Apart) :=
    hordered.imp fun hprecedes ↦ .inr (.inr hprecedes)
  exact hapart.forall_of_forall_of_flip (fun _ _ ↦ .inl rfl) hflip (mem_placed_scan_iff.mpr h)
    (mem_placed_scan_iff.mpr h')

theorem names_eq_map_placed (text : List Char) :
    names text = (placed 0 (scan text)).map Prod.snd := (map_placed 0 _).symm

theorem occursIn_iff_exists {text : List Char} :
    occursIn text ↔ ∃ place name, OccursAt text place name := by
  rw [occursIn_iff, names_eq_map_placed, Ne, List.map_eq_nil_iff]
  constructor
  · intro hne
    obtain ⟨⟨place, name⟩, hmem⟩ := List.exists_mem_of_ne_nil _ hne
    exact ⟨place, name, mem_placed_scan_iff.mp hmem⟩
  · rintro ⟨place, name, h⟩
    exact List.ne_nil_of_mem (mem_placed_scan_iff.mpr h)

/-- The first placeholder is the leftmost one. -/
theorem first?_eq_some_iff {text : List Char} {name : String} :
    first? text = some name ↔ ∃ place, OccursAt text place name ∧
      ∀ place' name', OccursAt text place' name' → place ≤ place' := by
  have hordered := pairwise_placed 0 (scan text)
  simp only [← mem_placed_scan_iff, first?, names_eq_map_placed]
  generalize placed 0 (scan text) = found at hordered ⊢
  cases found with
  | nil => simp
  | cons entry rest =>
    obtain ⟨hfirst, -⟩ := List.pairwise_cons.mp hordered
    have hleast : ∀ other ∈ entry :: rest, entry.1 ≤ other.1 := by
      intro other hother
      rcases List.mem_cons.mp hother with rfl | hrest
      · exact Nat.le_refl _
      · exact Nat.le_of_add_right_le (hfirst other hrest)
    rw [List.map_cons, List.head?_cons, Option.some_inj]
    constructor
    · rintro rfl
      exact ⟨entry.1, List.mem_cons_self, fun place' name' h ↦ hleast _ h⟩
    · rintro ⟨place, hmem, hle⟩
      rcases List.mem_cons.mp hmem with heq | hrest
      · rw [← heq]
      · -- A later placeholder starts after the first one has ended, so it is not the leftmost.
        have hlater := hfirst _ hrest
        have hnotLater := hle entry.1 entry.2 List.mem_cons_self
        exact absurd (Nat.le_trans hlater hnotLater) (by simp [written])

/-- **The scanner.** The segments of a text are what a search for the expression of a name in braces
yields, and nothing is lost in them. The placeholders among them are, from left to right and without
overlap, all places where a name stands in braces; no two such places overlap. There is a
placeholder if there is such a place, and the first one is in the leftmost. -/
theorem scan_finds_all (text : List Char) :
    (∀ segments, Searched text segments ↔ segments = scan text) ∧
      (scan text).flatMap Segment.text = text ∧
      (placed 0 (scan text)).Pairwise Precedes ∧
      (∀ place name, (place, name) ∈ placed 0 (scan text) ↔ OccursAt text place name) ∧
      (∀ place name place' name', OccursAt text place name → OccursAt text place' name' →
        Apart (place, name) (place', name')) ∧
      names text = (placed 0 (scan text)).map Prod.snd ∧
      (occursIn text ↔ ∃ place name, OccursAt text place name) ∧
      ∀ name, first? text = some name ↔ ∃ place, OccursAt text place name ∧
        ∀ place' name', OccursAt text place' name' → place ≤ place' :=
  ⟨fun _ ↦ searched_iff, flatMap_text_scan text, pairwise_placed 0 _, fun _ _ ↦ mem_placed_scan_iff,
    fun _ _ _ _ ↦ apart_of_occursAt, names_eq_map_placed text, occursIn_iff_exists,
    fun _ ↦ first?_eq_some_iff⟩

/-- A search goes on inside of braces that hold no name. -/
example : placed 0 (scan "\x7b\x7ba b\x7d\x7b c\x7d\x7bd\x7d".toList) =
    [(1, "a b"), (10, "d")] := by
  decide +kernel

end Segment
end Playbook
