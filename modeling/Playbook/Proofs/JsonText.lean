import Playbook.Json.Printer
import Mathlib.Tactic.SplitIfs

/-!
# The text of a JSON value is one line

Strings escape control characters and nothing else in a text is one. So whatever the strings in a
value hold, a line break among them, its text has none.
-/

namespace Playbook

open Number

/-- Whether a text has no control character. -/
def Visible (text : List Char) : Prop := ∀ c ∈ text, ' ' ≤ c

instance (text : List Char) : Decidable (Visible text) :=
  decidable_of_iff (text.all fun c ↦ decide (0x20 ≤ c.toNat)) <| by
    simp only [List.all_eq_true, decide_eq_true_eq]
    exact Iff.rfl

namespace Visible

variable {text other : List Char} {c : Char}

@[simp] theorem nil : Visible [] := nofun

@[simp] theorem cons_iff : Visible (c :: text) ↔ ' ' ≤ c ∧ Visible text :=
  List.forall_mem_cons

@[simp] theorem append_iff : Visible (text ++ other) ↔ Visible text ∧ Visible other :=
  List.forall_mem_append

theorem newline_notMem (h : Visible text) : '\n' ∉ text := fun hmem ↦ absurd (h _ hmem) (by decide)

end Visible

/-! ## Numbers -/

/-- Whether a character may be in the text of a number. -/
def Json.isNumberChar (c : Char) : Bool :=
  c.isDigit || c = '-' || c = '+' || c = '.' || c = 'e' || c = 'n' || c = 'u' || c = 'l'

/-- Whether a text has no other characters than those of numbers. -/
def Numeric (text : List Char) : Prop := ∀ c ∈ text, Json.isNumberChar c

namespace Numeric

variable {text other : List Char} {c : Char}

@[simp] theorem nil : Numeric [] := nofun

@[simp] theorem cons_iff : Numeric (c :: text) ↔ Json.isNumberChar c ∧ Numeric text :=
  List.forall_mem_cons

@[simp] theorem append_iff : Numeric (text ++ other) ↔ Numeric text ∧ Numeric other :=
  List.forall_mem_append

theorem of_subset (h : Numeric text) (hsubset : other ⊆ text) : Numeric other :=
  fun c hc ↦ h c (hsubset hc)

theorem replicate_zero (n : Nat) : Numeric (List.replicate n '0') := by
  intro c hc
  rw [List.eq_of_mem_replicate hc]
  decide

theorem digits (n : Nat) : Numeric (Number.digits n) := by
  intro c hc
  rw [Json.isNumberChar, Nat.isDigit_of_mem_toDigits (by decide) (by decide) hc]
  rfl

theorem decimal (n : Int) : Numeric (Number.decimal n) := by
  unfold Number.decimal
  split
  · exact cons_iff.mpr ⟨by decide, digits _⟩
  · exact digits _

theorem positional (h : Numeric text) (exponent : Int) :
    Numeric (Floating.positional text exponent) := by
  unfold Floating.positional
  split
  · exact append_iff.mpr ⟨h, replicate_zero _⟩
  · have hpadded : Numeric (padLeft '0' ((-exponent).toNat + 1) text) :=
      append_iff.mpr ⟨replicate_zero _, h⟩
    exact append_iff.mpr ⟨hpadded.of_subset (List.take_subset _ _),
      cons_iff.mpr ⟨by decide, hpadded.of_subset (List.drop_subset _ _)⟩⟩

theorem pointed (h : Numeric text) (exponent : Int) : Numeric (Json.pointed text exponent) := by
  refine append_iff.mpr ⟨h.positional exponent, ?_⟩
  split
  · exact cons_iff.mpr ⟨by decide, cons_iff.mpr ⟨by decide, nil⟩⟩
  · exact nil

theorem marked (h : Numeric text) (leading : Int) : Numeric (Json.marked text leading) := by
  have hrest : Numeric (if text.length ≤ 1 then [] else '.' :: text.drop 1) := by
    split
    · exact nil
    · exact cons_iff.mpr ⟨by decide, h.of_subset (List.drop_subset _ _)⟩
  have hsign : Numeric (if leading < 0 then [] else ['+']) := by
    split
    · exact nil
    · exact cons_iff.mpr ⟨by decide, nil⟩
  unfold Json.marked
  simp only [append_iff, cons_iff]
  exact ⟨⟨⟨h.of_subset (List.take_subset _ _), hrest⟩, by decide, hsign⟩, decimal leading⟩

theorem floating {f : BinaryFormat} (moderate : Json.Moderate) (x : Floating f) :
    Numeric (Json.floating moderate x) := by
  have hnull : Numeric ['n', 'u', 'l', 'l'] := by
    simp only [cons_iff, nil, and_true]
    decide
  cases x with
  | nan => exact hnull
  | infinite => exact hnull
  | finite negative significand exponent =>
    unfold Json.floating
    refine append_iff.mpr ⟨?_, ?_⟩
    · cases negative
      · exact nil
      · exact cons_iff.mpr ⟨by decide, nil⟩
    · split
      · exact (digits _).pointed _
      · exact (digits _).marked _

theorem number (n : Json.Number) : Numeric n.text := by
  cases n with
  | whole n => exact decimal n
  | double x => exact floating _ x
  | single x => exact floating _ x

/-- None of the characters of numbers is a control character. -/
theorem visible (h : Numeric text) : Visible text := by
  intro c hc
  have hnumber := h c hc
  simp only [Json.isNumberChar, Bool.or_eq_true, decide_eq_true_eq] at hnumber
  rcases hnumber with ((((((hdigit | rfl) | rfl) | rfl) | rfl) | rfl) | rfl) | rfl
  · rw [Char.isDigit, Bool.and_eq_true, decide_eq_true_eq] at hdigit
    exact Nat.le_trans (by decide) hdigit.1
  all_goals decide

end Numeric

/-! ## Strings and values -/

namespace Visible

theorem digits (n : Nat) : Visible (Number.digits n) := (Numeric.digits n).visible

theorem hexDigit (n : Nat) : ' ' ≤ Json.hexDigit n := by
  have hall : ∀ digit : Fin 16, ' ' ≤ (Nat.toDigits 16 digit).headD '0' := by decide
  exact hall ⟨n % 16, Nat.mod_lt n (by decide)⟩

theorem escape (c : Char) : Visible (Json.escape c) := by
  unfold Json.escape
  -- Only the last branch shows the character itself, and it is no control character there.
  split_ifs with h₁ h₂ h₃ h₄ h₅ h₆ h₇ hcontrol
  all_goals simp only [cons_iff, nil, and_true, hexDigit]
  all_goals first | decide | skip
  exact Nat.le_of_not_lt hcontrol

theorem quoted (s : String) : Visible (Json.quoted s) := by
  have hescaped : Visible (s.toList.flatMap Json.escape) := by
    intro c hc
    obtain ⟨original, -, hmem⟩ := List.mem_flatMap.mp hc
    exact escape original c hmem
  simp [Json.quoted, hescaped]

mutual

theorem compact : ∀ value : Json, Visible value.compact
  | .null => by simp [Json.compact]
  | .bool true => by simp [Json.compact]
  | .bool false => by simp [Json.compact]
  | .number n => (Numeric.number n).visible
  | .string s => quoted s
  | .array items => by simp [Json.compact, compactItems items]
  | .object members => by simp [Json.compact, compactMembers members]

theorem compactItems : ∀ items, Visible (Json.compactItems items)
  | [] => nil
  | [item] => compact item
  | item :: next :: rest => by
    simp [Json.compactItems, compact item, compactItems (next :: rest)]

theorem compactMembers : ∀ members, Visible (Json.compactMembers members)
  | [] => nil
  | [(name, value)] => by simp [Json.compactMembers, quoted name, compact value]
  | (name, value) :: next :: rest => by
    simp [Json.compactMembers, quoted name, compact value, compactMembers (next :: rest)]

end

end Visible

/-- **One line.** The text of a JSON value has no line break. -/
theorem Json.newline_notMem_render (value : Json) : '\n' ∉ value.render.toList := by
  rw [render, String.toList_ofList]
  exact (Visible.compact value).newline_notMem

end Playbook
