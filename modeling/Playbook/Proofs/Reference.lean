import Playbook.Proofs.Expansion
import Mathlib.Data.List.Nodup

/-!
# References that a pass can follow

A *path* from a text goes from a placeholder of the text to one of the text of that variable, and so
on. A pass over the text ends in a text exactly when no path has more expandable names than there
are levels and, where absent variables are errors, no path comes to an absent variable; what it ends
in is then the expansion of the text.

## Depth, chain and cycles

The chain a pass carries is the path it has come along, and a name that comes up again in its own
chain is an error at any depth. No such test appears in the condition on paths, and none is needed:
a path that comes back to a name can be walked round and round, so it exceeds every depth.
-/

namespace Playbook

open Placeholder

/-! ## Paths -/

namespace Variables

variable (values : Variables)

/-- A path from a text: its first name is a placeholder of the text, each next one is a placeholder
of the text of the variable before it, and all of its names are those of variables. -/
def IsPath : List Char → List String → Prop
  | _, [] => True
  | text, name :: rest =>
    name ∈ names text ∧ ∃ value, values.text? name = some value ∧ IsPath value rest

/-- A variable is expandable if its text has placeholders. -/
def isExpandable (name : String) : Bool := (values.text? name).any occursIn

/-- No path from a text has more expandable names than `depth`. -/
def IsBounded (depth : Nat) (text : List Char) : Prop :=
  ∀ path, values.IsPath text path → path.countP values.isExpandable ≤ depth

/-- Neither a text nor the text of a variable on a path from it names an absent variable. -/
def IsComplete (text : List Char) : Prop :=
  (∀ name ∈ names text, values.text? name ≠ none) ∧
    ∀ path, values.IsPath text path → ∀ name ∈ path, ∀ value, values.text? name = some value →
      ∀ inner ∈ names value, values.text? inner ≠ none

variable {values}

theorem isExpandable_iff {name : String} {value : List Char}
    (hvalue : values.text? name = some value) : values.isExpandable name ↔ names value ≠ [] := by
  rw [isExpandable, hvalue, Option.any_some, occursIn_iff]

theorem names_ne_nil_of_isPath {text : List Char} {path : List String}
    (h : values.IsPath text path) (hne : path ≠ []) : names text ≠ [] := by
  cases path with
  | nil => exact absurd rfl hne
  | cons name rest => exact List.ne_nil_of_mem h.1

/-- Two paths join where the second starts at the text of the last variable of the first. -/
theorem isPath_append_cons_iff {text value : List Char} {path rest : List String} {name : String}
    (hvalue : values.text? name = some value) :
    values.IsPath text (path ++ name :: rest) ↔
      values.IsPath text (path ++ [name]) ∧ values.IsPath value rest := by
  induction path generalizing text with
  | nil => simp [IsPath, hvalue]
  | cons first path ih =>
    simp only [List.cons_append, IsPath, ih]
    constructor
    · rintro ⟨hfirst, inner, hinner, hpath, hrest⟩
      exact ⟨⟨hfirst, inner, hinner, hpath⟩, hrest⟩
    · rintro ⟨⟨hfirst, inner, hinner, hpath⟩, hrest⟩
      exact ⟨hfirst, inner, hinner, hpath, hrest⟩

/-! ### Cycles -/

/-- A path that comes back to the name it started from can be walked as often as one likes. -/
theorem exists_isPath_of_cycle {value : List Char} {cycle : List String} {name : String}
    (hvalue : values.text? name = some value) (hcycle : values.IsPath value (cycle ++ [name]))
    (rounds : Nat) :
    ∃ path, values.IsPath value path ∧ rounds ≤ path.countP values.isExpandable := by
  induction rounds with
  | zero => exact ⟨[], trivial, Nat.zero_le _⟩
  | succ rounds ih =>
    obtain ⟨path, hpath, hcount⟩ := ih
    have hname : values.isExpandable name :=
      (isExpandable_iff hvalue).mpr (names_ne_nil_of_isPath hcycle (by simp))
    -- One more round goes before the path there is, and it passes `name`.
    refine ⟨cycle ++ name :: path, (isPath_append_cons_iff hvalue).mpr ⟨hcycle, hpath⟩, ?_⟩
    rw [List.countP_append, List.countP_cons_of_pos hname]
    omega

theorem IsBounded.of_cons {depth : Nat} {text value : List Char} {name : String}
    (h : values.IsBounded depth text) (hname : name ∈ names text)
    (hvalue : values.text? name = some value) : values.IsBounded depth value := by
  intro path hpath
  have hcons := h (name :: path) ⟨hname, value, hvalue, hpath⟩
  rw [List.countP_cons] at hcons
  omega

/-- Where paths are bounded, none comes to a name twice. -/
theorem IsBounded.nodup {depth : Nat} {text : List Char} {path : List String}
    (h : values.IsBounded depth text) (hpath : values.IsPath text path) : path.Nodup := by
  induction path generalizing text with
  | nil => exact List.nodup_nil
  | cons name rest ih =>
    obtain ⟨hname, value, hvalue, hrest⟩ := hpath
    have hinner := h.of_cons hname hvalue
    refine List.nodup_cons.mpr ⟨fun hmem ↦ ?_, ih hinner hrest⟩
    -- A name that is met again closes a cycle, and enough rounds of it exceed the depth.
    obtain ⟨cycle, after, rfl⟩ := List.append_of_mem hmem
    have hcycle := ((isPath_append_cons_iff hvalue).mp hrest).1
    obtain ⟨path, hround, hcount⟩ := exists_isPath_of_cycle hvalue hcycle (depth + 1)
    exact absurd (hinner path hround) (by omega)

/-! ### One step at a time -/

/-- The paths that a pass may still follow: from `text`, with `depth` more levels, `chain` being the
path it has come along. -/
def IsWithin (values : Variables) (depth : Nat) (chain : List String) (text : List Char) : Prop :=
  ∀ path, values.IsPath text path →
    (chain ++ path).Nodup ∧ path.countP values.isExpandable ≤ depth

theorem isWithin_nil_iff {depth : Nat} {text : List Char} :
    values.IsWithin depth [] text ↔ values.IsBounded depth text :=
  ⟨fun h path hpath ↦ (h path hpath).2, fun h path hpath ↦ ⟨h.nodup hpath, h path hpath⟩⟩

theorem isWithin_iff {depth : Nat} {chain : List String} {text : List Char}
    (hchain : chain.Nodup) :
    values.IsWithin depth chain text ↔
      ∀ name ∈ names text, ∀ value, values.text? name = some value → name ∉ chain ∧
        (names value ≠ [] →
          ∃ depth', depth = depth' + 1 ∧ values.IsWithin depth' (chain ++ [name]) value) := by
  constructor
  · intro h name hname value hvalue
    have hcons : ∀ path, values.IsPath value path → (chain ++ [name] ++ path).Nodup ∧
        (name :: path).countP values.isExpandable ≤ depth := by
      intro path hpath
      rw [List.append_assoc]
      exact h (name :: path) ⟨hname, value, hvalue, hpath⟩
    -- The path of `name` alone says that the name is new and, if it is expandable, that a level
    -- is left for it; longer paths say what is left below.
    have hone := hcons [] trivial
    rw [List.append_nil, ← List.concat_eq_append, List.nodup_concat] at hone
    refine ⟨hone.1.1, fun hnames ↦ ?_⟩
    have hexp : values.isExpandable name := (isExpandable_iff hvalue).mpr hnames
    rw [List.countP_cons_of_pos hexp] at hone
    refine ⟨depth - 1, by omega, fun path hpath ↦ ⟨(hcons path hpath).1, ?_⟩⟩
    have hcount := (hcons path hpath).2
    rw [List.countP_cons_of_pos hexp] at hcount
    omega
  · intro h path hpath
    cases path with
    | nil => exact ⟨by rwa [List.append_nil], Nat.zero_le _⟩
    | cons name rest =>
      obtain ⟨hname, value, hvalue, hrest⟩ := hpath
      obtain ⟨hnew, hinner⟩ := h name hname value hvalue
      by_cases hnames : names value = []
      · -- A text without placeholders takes no level, and no path goes on from it.
        have hnil : rest = [] := by
          by_contra hne
          exact names_ne_nil_of_isPath hrest hne hnames
        have hexp : ¬values.isExpandable name := fun hexp ↦
          (isExpandable_iff hvalue).mp hexp hnames
        rw [hnil, ← List.concat_eq_append, List.nodup_concat, List.countP_cons_of_neg hexp]
        exact ⟨⟨hnew, hchain⟩, Nat.zero_le _⟩
      · obtain ⟨depth', rfl, hwithin⟩ := hinner hnames
        obtain ⟨hnodup, hcount⟩ := hwithin rest hrest
        rw [List.append_assoc] at hnodup
        rw [List.countP_cons_of_pos ((isExpandable_iff hvalue).mpr hnames)]
        exact ⟨hnodup, Nat.succ_le_succ hcount⟩

theorem isComplete_iff {text : List Char} :
    values.IsComplete text ↔
      ∀ name ∈ names text, ∃ value, values.text? name = some value ∧ values.IsComplete value := by
  constructor
  · rintro ⟨hnames, hpaths⟩ name hname
    obtain ⟨value, hvalue⟩ := Option.ne_none_iff_exists'.mp (hnames name hname)
    refine ⟨value, hvalue, ?_, ?_⟩
    · exact hpaths [name] ⟨hname, value, hvalue, trivial⟩ name List.mem_cons_self value hvalue
    · exact fun path hpath inner hinner ↦ hpaths (name :: path) ⟨hname, value, hvalue, hpath⟩ inner
        (List.mem_cons_of_mem _ hinner)
  · intro h
    refine ⟨fun name hname ↦ ?_, fun path hpath ↦ ?_⟩
    · obtain ⟨value, hvalue, -⟩ := h name hname
      rw [hvalue]
      exact Option.some_ne_none _
    · cases path with
      | nil => exact fun name hmem ↦ absurd hmem List.not_mem_nil
      | cons first rest =>
        obtain ⟨hfirst, value, hvalue, hrest⟩ := hpath
        obtain ⟨value', hvalue', hcomplete⟩ := h first hfirst
        cases hvalue.symm.trans hvalue'
        refine List.forall_mem_cons.mpr ⟨fun value' hvalue' ↦ ?_, hcomplete.2 rest hrest⟩
        cases hvalue.symm.trans hvalue'
        exact hcomplete.1

end Variables

/-! ## Where a pass ends -/

namespace Interpolator

open Variables

variable {values : Variables} {missing : Missing}

/-- What a pass needs of a text is what it needs of the variables named there, one level down. This
is `exists_expand_eq_ok_iff` with the condition on paths in the place of the pass. -/
theorem isWithin_and_isComplete_iff {depth : Nat} {chain : List String} {text : List Char}
    (hchain : chain.Nodup) :
    values.IsWithin depth chain text ∧ (missing = .fail → values.IsComplete text) ↔
      ∀ name ∈ names text, (values.text? name = none → missing = .keep) ∧
        ∀ value, values.text? name = some value → name ∉ chain ∧
          (names value ≠ [] → ∃ depth', depth = depth' + 1 ∧
            values.IsWithin depth' (chain ++ [name]) value ∧
              (missing = .fail → values.IsComplete value)) := by
  rw [isWithin_iff hchain, isComplete_iff]
  constructor
  · rintro ⟨hwithin, hcomplete⟩ name hname
    refine ⟨fun hnone ↦ ?_, fun value hvalue ↦ ?_⟩
    · cases missing with
      | keep => rfl
      | fail =>
        obtain ⟨value, hvalue, -⟩ := hcomplete rfl name hname
        exact absurd (hnone.symm.trans hvalue) (by simp)
    · obtain ⟨hnew, hinner⟩ := hwithin name hname value hvalue
      refine ⟨hnew, fun hnames ↦ ?_⟩
      obtain ⟨depth', hdepth, hbelow⟩ := hinner hnames
      refine ⟨depth', hdepth, hbelow, fun hfail ↦ ?_⟩
      obtain ⟨value', hvalue', hinner'⟩ := hcomplete hfail name hname
      cases hvalue.symm.trans hvalue'
      exact hinner'
  · intro h
    refine ⟨fun name hname value hvalue ↦ ?_, fun hfail name hname ↦ ?_⟩
    · obtain ⟨hnew, hinner⟩ := (h name hname).2 value hvalue
      refine ⟨hnew, fun hnames ↦ ?_⟩
      obtain ⟨depth', hdepth, hbelow, -⟩ := hinner hnames
      exact ⟨depth', hdepth, hbelow⟩
    · cases hvalue : values.text? name with
      | none => exact absurd ((h name hname).1 hvalue) (by rw [hfail]; decide)
      | some value =>
        refine ⟨value, rfl, ?_⟩
        by_cases hnames : names value = []
        · rw [isComplete_iff, hnames]
          exact fun name hmem ↦ absurd hmem List.not_mem_nil
        · obtain ⟨-, -, -, hcomplete⟩ := ((h name hname).2 value hvalue).2 hnames
          exact hcomplete hfail

/-- The induction is on the levels left; the chain grows by a name where they shrink by one. -/
theorem exists_expand_eq_ok_iff_isWithin {depth : Nat} {chain : List String} {text : List Char}
    (hchain : chain.Nodup) :
    (∃ out, expand values missing depth chain text = .ok out) ↔
      values.IsWithin depth chain text ∧ (missing = .fail → values.IsComplete text) := by
  induction depth using Nat.strongRecOn generalizing chain text with
  | ind depth ih =>
    rw [exists_expand_eq_ok_iff, isWithin_and_isComplete_iff hchain]
    -- Both sides ask the same of the names, so they differ only one level down.
    refine forall₂_congr fun name _ ↦ and_congr_right fun _ ↦ forall₂_congr fun value _ ↦
      and_congr_right fun hnew ↦ forall_congr' fun _ ↦ exists_congr fun depth' ↦
        and_congr_right fun hdepth ↦ ?_
    have hconcat : (chain ++ [name]).Nodup := by
      rw [← List.concat_eq_append, List.nodup_concat]
      exact ⟨hnew, hchain⟩
    exact ih depth' (by omega) hconcat

/-- **One pass is recursive expansion.** A pass over a text ends in a text exactly when the paths
from it are bounded by the depth and, where absent variables are errors, come to none. It then ends
in the expansion of the text, whose segments are all there is to the text; and since a path that
comes back to a name is not bounded, no path from the text does. -/
theorem pass_eq_ok_iff_expands (interpolator : Interpolator) (values : Variables)
    (text : List Char) :
    ((∃ out, interpolator.pass values text = .ok out) ↔
      values.IsBounded interpolator.maxDepth text ∧
        (interpolator.missing = .fail → values.IsComplete text)) ∧
    (∀ out, interpolator.pass values text = .ok out ↔
      (values.IsBounded interpolator.maxDepth text ∧
        (interpolator.missing = .fail → values.IsComplete text)) ∧
      Expands values (Segment.scan text) out) ∧
    (values.IsBounded interpolator.maxDepth text →
      ∀ path, values.IsPath text path → path.Nodup) ∧
    (Segment.scan text).flatMap Segment.text = text := by
  have hends : (∃ out, interpolator.pass values text = .ok out) ↔
      values.IsBounded interpolator.maxDepth text ∧
        (interpolator.missing = .fail → values.IsComplete text) := by
    rw [← isWithin_nil_iff]
    exact exists_expand_eq_ok_iff_isWithin List.nodup_nil
  refine ⟨hends, fun out ↦ ⟨fun hout ↦ ?_, fun ⟨hcond, hexpands⟩ ↦ ?_⟩,
    fun hbounded path hpath ↦ hbounded.nodup hpath, Segment.flatMap_text_scan text⟩
  · exact ⟨hends.mp ⟨out, hout⟩, expands_of_expand hout⟩
  · obtain ⟨out', hout'⟩ := hends.mpr hcond
    rw [hout', (expands_of_expand hout').unique hexpands]

end Interpolator
end Playbook
