import Playbook.Number.Whole
import Playbook.Text.Blank

/-!
# Whole numbers are read back

The decimal of a whole number is a literal that stands for it. The digits alone are read back by a
fact about them; a sign is written for a negative number only, and digits are no sign. So a number
of a width is read back as itself, and the blanks that may stand around a literal are none of its
characters.
-/

namespace Playbook

namespace Number

/-! ## Digits -/

theorem isDigit_of_mem_digits {n : Nat} {c : Char} (h : c ∈ digits n) : c.isDigit :=
  Nat.isDigit_of_mem_toDigits (by decide) (by decide) h

theorem digits_ne_nil (n : Nat) : digits n ≠ [] := Nat.toDigits_ne_nil

theorem ofDigitChars_digits (n : Nat) : Nat.ofDigitChars 10 (digits n) 0 = n :=
  Nat.ofDigitChars_ten_toDigits

theorem natural?_digits (n : Nat) : natural? (digits n) = some n := by
  have hne : (digits n).isEmpty = false := List.isEmpty_eq_false_iff.mpr (digits_ne_nil n)
  have hall : (digits n).all Char.isDigit := List.all_eq_true.mpr fun c ↦ isDigit_of_mem_digits
  rw [natural?, hne, hall, ofDigitChars_digits]
  rfl

/-! ## Digits with zeros in front -/

theorem isDigit_of_mem_zeroPadded {width n : Nat} {c : Char} (h : c ∈ zeroPadded width n) :
    c.isDigit := by
  rcases List.mem_append.mp h with hzero | hdigit
  · rw [(List.mem_replicate.mp hzero).2]
    rfl
  · exact isDigit_of_mem_digits hdigit

theorem zeroPadded_ne_nil (width n : Nat) : zeroPadded width n ≠ [] :=
  List.append_ne_nil_of_right_ne_nil _ (digits_ne_nil n)

theorem ofDigitChars_zeroPadded (width n : Nat) :
    Nat.ofDigitChars 10 (zeroPadded width n) 0 = n := by
  rw [zeroPadded, padLeft, Nat.ofDigitChars_append, Nat.ofDigitChars_replicate_zero, Nat.mul_zero,
    ofDigitChars_digits]

theorem length_zeroPadded {width n : Nat} (h : (digits n).length ≤ width) :
    (zeroPadded width n).length = width := by
  rw [zeroPadded, padLeft, List.length_append, List.length_replicate, Nat.sub_add_cancel h]

/-! ## Signs -/

theorem exists_digits_eq_cons (n : Nat) : ∃ c cs, digits n = c :: cs ∧ c.isDigit := by
  obtain ⟨c, cs, h⟩ := List.exists_cons_of_ne_nil (digits_ne_nil n)
  exact ⟨c, cs, h, isDigit_of_mem_digits (h ▸ List.mem_cons_self)⟩

/-- Digits are an integer as they are: a sign is none of them. -/
theorem integer?_of_natural? {cs : List Char} {n : Nat} (h : natural? cs = some n) :
    integer? cs = some (n : Int) := by
  unfold integer?
  split
  · exact nomatch h
  · exact nomatch h
  · rw [h]
    rfl

theorem integer?_digits (n : Nat) : integer? (digits n) = some (n : Int) :=
  integer?_of_natural? (natural?_digits n)

theorem exists_decimal_eq_cons (n : Int) :
    ∃ c cs, decimal n = c :: cs ∧ (c = '-' ∨ c.isDigit) := by
  unfold decimal
  split
  · exact ⟨'-', _, rfl, .inl rfl⟩
  · obtain ⟨c, cs, hcons, hdigit⟩ := exists_digits_eq_cons n.natAbs
    exact ⟨c, cs, hcons, .inr hdigit⟩

/-- The decimal of a number stands for it. -/
theorem integer?_decimal (n : Int) : integer? (decimal n) = some n := by
  unfold decimal
  split
  next hneg =>
    have habs : -(n.natAbs : Int) = n := by omega
    rw [integer?, natural?_digits]
    exact congrArg some habs
  next hpos =>
    have habs : (n.natAbs : Int) = n := by omega
    rw [integer?_digits, habs]

/-! ## Widths -/

theorem toInt32?_toInt (n : Int32) : toInt32? n.toInt = some n := by
  have hle := n.toInt_le
  have hge := n.le_toInt
  rw [toInt32?, if_pos ⟨hge, hle⟩, Int32.ofInt_toInt]

theorem toInt64?_toInt (n : Int64) : toInt64? n.toInt = some n := by
  have hle := n.toInt_le
  have hge := n.le_toInt
  rw [toInt64?, if_pos ⟨hge, hle⟩, Int64.ofInt_toInt]

theorem toUInt32?_toNat (n : UInt32) : toUInt32? n.toNat = some n := by
  have hlt := n.toNat_lt_size
  rw [toUInt32?, if_pos ⟨by omega, by omega⟩, Int.toNat_natCast, UInt32.ofNat_toNat]

theorem toUInt64?_toNat (n : UInt64) : toUInt64? n.toNat = some n := by
  have hlt := n.toNat_lt_size
  rw [toUInt64?, if_pos ⟨by omega, by omega⟩, Int.toNat_natCast, UInt64.ofNat_toNat]

theorem int32?_decimal (n : Int32) : int32? (decimal n.toInt) = some n := by
  rw [int32?, integer?_decimal, Option.bind_some, toInt32?_toInt]

theorem int64?_decimal (n : Int64) : int64? (decimal n.toInt) = some n := by
  rw [int64?, integer?_decimal, Option.bind_some, toInt64?_toInt]

end Number

/-! ## Blanks -/

namespace Text

theorem isBlank_of_isDigit {c : Char} (h : c.isDigit) : isBlank c = false := by
  rw [Char.isDigit, Bool.and_eq_true, decide_eq_true_eq, decide_eq_true_eq] at h
  have hge : 48 ≤ c.toNat := h.1
  have hle : c.toNat ≤ 57 := h.2
  simp only [isBlank, Bool.or_eq_false_iff, Bool.and_eq_false_iff, decide_eq_false_iff_not,
    beq_eq_false_iff_ne]
  omega

/-- A text without blanks has none at its ends. -/
theorem trim_eq_self {cs : List Char} (h : ∀ c ∈ cs, isBlank c = false) : trim cs = cs := by
  have hdrop : ∀ text : List Char, (∀ c ∈ text, isBlank c = false) →
      text.dropWhile isBlank = text := by
    intro text htext
    cases text with
    | nil => rfl
    | cons c rest => rw [List.dropWhile_cons, htext c List.mem_cons_self, if_neg Bool.false_ne_true]
  rw [trim, trimStart, hdrop cs h, trimEnd, hdrop _ fun c hc ↦ h c (List.mem_reverse.mp hc),
    List.reverse_reverse]

theorem trim_decimal (n : Int) : trim (Number.decimal n) = Number.decimal n := by
  apply trim_eq_self
  have hdigits : ∀ c ∈ Number.digits n.natAbs, isBlank c = false :=
    fun c hc ↦ isBlank_of_isDigit (Number.isDigit_of_mem_digits hc)
  unfold Number.decimal
  split
  · exact List.forall_mem_cons.mpr ⟨by decide, hdigits⟩
  · exact hdigits

end Text
end Playbook
