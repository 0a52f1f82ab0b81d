import Playbook.Coercion
import Playbook.Proofs.Decimals
import Mathlib.Algebra.Ring.Int.Defs
import Mathlib.Data.List.Induction
import Mathlib.Data.List.TakeWhile

/-!
# The kind of a number

A text that is read as a number without being told its kind takes the narrowest one. What an integer
literal is and what it denotes is said by a grammar (`Number.Denotes`): digits, of which each one
counts ten times as much as the next, after a sign or none. Leading zeros add nothing, so that the
length of a literal tells nothing about its width; only the denoted integer does.

A literal that fits neither width is not cut down to one. It is a decimal without a point, and the
number it becomes is the one of the 64-bit format nearest to the integer.
-/

namespace Playbook

namespace Number

/-! ## Literals -/

/-- Digits denote a natural number: a digit denotes its own value, and one more digit counts once
where those before it count ten times. -/
inductive DenotesNatural : List Char → Nat → Prop
  | digit {c : Char} (h : c.isDigit) : DenotesNatural [c] (c.toNat - '0'.toNat)
  | append {cs : List Char} {n : Nat} {c : Char} (hcs : DenotesNatural cs n) (h : c.isDigit) :
      DenotesNatural (cs ++ [c]) (10 * n + (c.toNat - '0'.toNat))

/-- Digits denote an integer, with a sign in front or without one. -/
inductive Denotes : List Char → Int → Prop
  | unsigned {cs : List Char} {n : Nat} (h : DenotesNatural cs n) : Denotes cs n
  | plus {cs : List Char} {n : Nat} (h : DenotesNatural cs n) : Denotes ('+' :: cs) n
  | minus {cs : List Char} {n : Nat} (h : DenotesNatural cs n) : Denotes ('-' :: cs) (-n)

variable {cs : List Char} {n : Nat}

theorem ofDigitChars_append_singleton (cs : List Char) (c : Char) :
    Nat.ofDigitChars 10 (cs ++ [c]) 0 =
      10 * Nat.ofDigitChars 10 cs 0 + (c.toNat - '0'.toNat) := by
  rw [Nat.ofDigitChars_append, Nat.ofDigitChars_cons, Nat.ofDigitChars_nil]

namespace DenotesNatural

theorem ne_nil (h : DenotesNatural cs n) : cs ≠ [] := by
  rcases h with - | - <;> simp

theorem isDigit (h : DenotesNatural cs n) : ∀ c ∈ cs, c.isDigit := by
  induction h with
  | digit h => exact List.forall_mem_singleton.mpr h
  | append _ h ih => exact List.forall_mem_append.mpr ⟨ih, List.forall_mem_singleton.mpr h⟩

theorem ne_cons (h : DenotesNatural cs n) {c : Char} (hc : c.isDigit = false) (rest : List Char) :
    cs ≠ c :: rest := by
  rintro rfl
  exact absurd (h.isDigit c List.mem_cons_self) (by rw [hc]; decide)

theorem eq_ofDigitChars (h : DenotesNatural cs n) : n = Nat.ofDigitChars 10 cs 0 := by
  induction h with
  | digit h => rw [Nat.ofDigitChars_cons, Nat.ofDigitChars_nil, Nat.mul_zero, Nat.zero_add]
  | append _ _ ih => rw [ofDigitChars_append_singleton, ← ih]

/-- One or more digits denote what they are read as. -/
theorem of_isDigit (hne : cs ≠ []) (hdigits : ∀ c ∈ cs, c.isDigit) :
    DenotesNatural cs (Nat.ofDigitChars 10 cs 0) := by
  induction cs using List.reverseRecOn with
  | nil => exact absurd rfl hne
  | append_singleton cs c ih =>
    obtain ⟨hcs, hc⟩ := List.forall_mem_append.mp hdigits
    rw [ofDigitChars_append_singleton]
    rcases eq_or_ne cs [] with rfl | hmore
    · rw [Nat.ofDigitChars_nil, Nat.mul_zero, Nat.zero_add]
      exact .digit (hc c (List.mem_singleton_self c))
    · exact .append (ih hmore hcs) (hc c (List.mem_singleton_self c))

end DenotesNatural

theorem natural?_eq_some_iff : natural? cs = some n ↔ DenotesNatural cs n := by
  rw [natural?, Option.ite_none_right_eq_some, Bool.and_eq_true, Bool.not_eq_true',
    List.isEmpty_eq_false_iff, List.all_eq_true, Option.some_inj]
  constructor
  · rintro ⟨⟨hne, hdigits⟩, rfl⟩
    exact .of_isDigit hne hdigits
  · intro h
    exact ⟨⟨h.ne_nil, h.isDigit⟩, h.eq_ofDigitChars.symm⟩

/-- A sign is no digit, so a text is a literal in one way only. -/
theorem integer?_eq_some_iff {n : Int} : integer? cs = some n ↔ Denotes cs n := by
  constructor
  · intro h
    unfold integer? at h
    split at h <;> obtain ⟨_, hcast, rfl⟩ := Option.map_eq_some_iff.mp h <;>
      obtain ⟨n, hn, ⟨⟩⟩ := Option.bind_eq_some_iff.mp hcast
    · exact .minus (natural?_eq_some_iff.mp hn)
    · exact .plus (natural?_eq_some_iff.mp hn)
    · exact .unsigned (natural?_eq_some_iff.mp hn)
  · rintro (h | h | h)
    · exact integer?_of_natural? (natural?_eq_some_iff.mpr h)
    · rw [integer?, natural?_eq_some_iff.mpr h]
      rfl
    · rw [integer?, natural?_eq_some_iff.mpr h]
      rfl

theorem Denotes.unique {n m : Int} (h : Denotes cs n) (h' : Denotes cs m) : n = m := by
  rw [← integer?_eq_some_iff] at h h'
  exact Option.some_inj.mp (h.symm.trans h')

/-- Neither digits nor signs are blank. -/
theorem Denotes.isBlank_eq_false {n : Int} (h : Denotes cs n) :
    ∀ c ∈ cs, Text.isBlank c = false := by
  have hdigits : ∀ {ds : List Char} {k : Nat}, DenotesNatural ds k →
      ∀ c ∈ ds, Text.isBlank c = false :=
    fun hds c hc ↦ Text.isBlank_of_isDigit (hds.isDigit c hc)
  rcases h with h | h | h
  · exact hdigits h
  · exact List.forall_mem_cons.mpr ⟨by decide, hdigits h⟩
  · exact List.forall_mem_cons.mpr ⟨by decide, hdigits h⟩

/-! ## Widths -/

theorem toInt32?_eq_some_iff {n : Int} {m : Int32} : toInt32? n = some m ↔ m.toInt = n := by
  constructor
  · intro h
    obtain ⟨⟨hge, hle⟩, ⟨⟩⟩ := Option.ite_none_right_eq_some.mp h
    exact Int32.toInt_ofInt_of_le hge (Int.lt_add_one_of_le hle)
  · rintro rfl
    exact toInt32?_toInt m

theorem toInt64?_eq_some_iff {n : Int} {m : Int64} : toInt64? n = some m ↔ m.toInt = n := by
  constructor
  · intro h
    obtain ⟨⟨hge, hle⟩, ⟨⟩⟩ := Option.ite_none_right_eq_some.mp h
    exact Int64.toInt_ofInt_of_le hge (Int.lt_add_one_of_le hle)
  · rintro rfl
    exact toInt64?_toInt m

theorem int32?_eq_some_iff {m : Int32} : int32? cs = some m ↔ Denotes cs m.toInt := by
  simp only [int32?, Option.bind_eq_some_iff, integer?_eq_some_iff, toInt32?_eq_some_iff,
    exists_eq_right']

theorem int64?_eq_some_iff {m : Int64} : int64? cs = some m ↔ Denotes cs m.toInt := by
  simp only [int64?, Option.bind_eq_some_iff, integer?_eq_some_iff, toInt64?_eq_some_iff,
    exists_eq_right']

/-- A literal is refused by a width exactly if no number of the width is the denoted one. -/
theorem Denotes.eq_none_iff {α : Type} {read? : Option α} {toInt : α → Int} {n : Int}
    (h : Denotes cs n) (hread : ∀ m, read? = some m ↔ Denotes cs (toInt m)) :
    read? = none ↔ ¬∃ m, toInt m = n := by
  rw [Option.eq_none_iff_forall_ne_some, not_exists]
  refine forall_congr' fun m ↦ not_congr ?_
  rw [hread]
  exact ⟨fun hm ↦ hm.unique h, fun heq ↦ heq ▸ h⟩

theorem int32?_eq_none_iff {n : Int} (h : Denotes cs n) :
    int32? cs = none ↔ ¬∃ m : Int32, m.toInt = n := h.eq_none_iff fun _ ↦ int32?_eq_some_iff

theorem int64?_eq_none_iff {n : Int} (h : Denotes cs n) :
    int64? cs = none ↔ ¬∃ m : Int64, m.toInt = n := h.eq_none_iff fun _ ↦ int64?_eq_some_iff

theorem exists_toInt32_eq_iff {n : Int} : (∃ m : Int32, m.toInt = n) ↔ -2 ^ 31 ≤ n ∧ n < 2 ^ 31 := by
  constructor
  · rintro ⟨m, rfl⟩
    exact ⟨m.le_toInt, m.toInt_lt⟩
  · rintro ⟨hge, hlt⟩
    exact ⟨Int32.ofInt n, Int32.toInt_ofInt_of_le hge hlt⟩

theorem exists_toInt64_eq_iff {n : Int} : (∃ m : Int64, m.toInt = n) ↔ -2 ^ 63 ≤ n ∧ n < 2 ^ 63 := by
  constructor
  · rintro ⟨m, rfl⟩
    exact ⟨m.le_toInt, m.toInt_lt⟩
  · rintro ⟨hge, hlt⟩
    exact ⟨Int64.ofInt n, Int64.toInt_ofInt_of_le hge hlt⟩

/-! ## The nearest number of the 64-bit format -/

/-- Digits without a point are a decimal, with nothing after the point and no exponent. -/
theorem Decimal.unsigned?_of_denotesNatural (h : DenotesNatural cs n) (negative : Bool) :
    Decimal.unsigned? negative cs = some ⟨negative, n, 0⟩ := by
  have htake : cs.takeWhile Char.isDigit = cs := List.takeWhile_eq_self_iff.mpr h.isDigit
  have hdrop : cs.dropWhile Char.isDigit = [] := List.dropWhile_eq_nil_iff.mpr h.isDigit
  have hempty : ¬cs.isEmpty := fun hnil ↦ h.ne_nil (List.isEmpty_iff.mp hnil)
  rw [Decimal.unsigned?, Decimal.parts?, htake, hdrop]
  simp [hempty, Decimal.exponent?, ← h.eq_ofDigitChars]

/-- Digits have no letter case. -/
theorem toLower_of_isDigit {c : Char} (h : c.isDigit) : c.toLower = c := by
  rw [Char.isDigit, Bool.and_eq_true, decide_eq_true_eq, decide_eq_true_eq] at h
  have hupper : ¬(c.val ≥ 'A'.val ∧ c.val ≤ 'Z'.val) :=
    fun hletter ↦ absurd (UInt32.le_trans hletter.1 h.2) (by decide)
  exact dif_neg hupper

/-- Digits are none of the words for numbers, so they are read as a decimal. -/
theorem Floating.unsigned?_of_denotesNatural (h : DenotesNatural cs n) (f : BinaryFormat)
    (negative : Bool) :
    Floating.unsigned? f negative cs = some (Decimal.toFloating f ⟨negative, n, 0⟩) := by
  have hlower : cs.map Char.toLower = cs :=
    (List.map_congr_left fun c hc ↦ toLower_of_isDigit (h.isDigit c hc)).trans (List.map_id _)
  have hinfinity : ∀ rest, cs ≠ 'i' :: rest := h.ne_cons rfl
  have hnan : ∀ rest, cs ≠ 'n' :: rest := h.ne_cons rfl
  simp only [Floating.unsigned?, hlower, hinfinity, hnan, or_self, if_false,
    Decimal.unsigned?_of_denotesNatural h, Option.map_some]

/-- A sign is passed over, and digits without one start with no sign. -/
theorem Floating.exists_ofLiteral?_of_denotes {n : Int} (h : Denotes cs n) (f : BinaryFormat) :
    ∃ negative, (n ≠ 0 → negative = decide (n < 0)) ∧
      Floating.ofLiteral? f cs = some (Decimal.toFloating f ⟨negative, n.natAbs, 0⟩) := by
  rcases h with @⟨_, n, h⟩ | @⟨_, n, h⟩ | @⟨cs, n, h⟩
  · refine ⟨false, fun _ ↦ (decide_eq_false (Int.not_ofNat_neg n)).symm, ?_⟩
    unfold Floating.ofLiteral?
    split
    · exact absurd rfl (h.ne_cons rfl _)
    · exact absurd rfl (h.ne_cons rfl _)
    · exact Floating.unsigned?_of_denotesNatural h f false
  · exact ⟨false, fun _ ↦ (decide_eq_false (Int.not_ofNat_neg n)).symm,
      Floating.unsigned?_of_denotesNatural h f false⟩
  · refine ⟨true, fun hne ↦ (decide_eq_true ?_).symm, ?_⟩
    · omega
    · rw [Int.natAbs_neg]
      exact Floating.unsigned?_of_denotesNatural h f true

/-- Past the largest exponent there are only infinities. -/
theorem Floating.ofRatio_of_maxExponent_lt {f : BinaryFormat} {num den : Nat} (hnum : num ≠ 0)
    (h : f.maxExponent < exponentOf f num den) (negative : Bool) :
    ofRatio f negative num den = .infinite negative := by
  have hparts : ∀ significand exponent, f.maxExponent < exponent →
      ofParts f negative significand exponent = .infinite negative :=
    fun _ _ hlt ↦ dif_neg fun hholds ↦ absurd hholds.2.2.1 (Int.not_le.mpr hlt)
  rw [ofRatio, if_neg hnum]
  dsimp only
  split
  · exact hparts _ _ (Int.lt_add_one_of_le (Int.le_of_lt h))
  · exact hparts _ _ h

/-- A digit takes more than three bits. -/
theorem three_mul_le_log2 {n places : Nat} (hne : n ≠ 0) (hpos : 0 < places)
    (h : ¬(Number.digits n).length ≤ places) : 3 * places ≤ n.log2 := by
  rw [Number.digits, Nat.length_toDigits_le_iff (by decide) hpos] at h
  rw [Nat.le_log2 hne, Nat.pow_mul]
  exact Nat.le_trans (Nat.pow_le_pow_left (by decide) places) (Nat.le_of_not_lt h)

/-- A decimal without an exponent stands for its digits, also where their number alone tells that it
is infinite. -/
theorem Decimal.toFloating_whole (negative : Bool) (n : Nat) :
    Decimal.toFloating .double ⟨negative, n, 0⟩ = .ofRatio .double negative n 1 := by
  by_cases hzero : n = 0
  · rw [hzero]
    rfl
  by_cases hlong : (Number.digits n).length ≤ 400
  · have hfew : ¬maxPlaces < ((Number.digits n).length : Int) + 0 := by
      rw [maxPlaces]
      omega
    have hmany : ¬((Number.digits n).length : Int) + 0 < -maxPlaces := by
      rw [maxPlaces]
      omega
    simp only [toFloating, if_neg hzero, if_neg hfew, if_neg hmany, if_pos (Int.le_refl 0)]
    exact congrArg (Floating.ofRatio .double negative · 1) (Nat.mul_one n)
  · have hplaces : maxPlaces < ((Number.digits n).length : Int) + 0 := by
      rw [maxPlaces]
      omega
    have hlog : 3 * 400 ≤ n.log2 := three_mul_le_log2 hzero (by decide) hlong
    have hexponent : BinaryFormat.double.maxExponent < Floating.exponentOf .double n 1 := by
      have hone : Nat.log2 1 = 0 := rfl
      have hlow : BinaryFormat.double.maxExponent <
          (n.log2 : Int) - Nat.log2 1 - BinaryFormat.double.precision := by
        simp only [BinaryFormat.double, hone]
        omega
      refine Int.lt_of_lt_of_le hlow (Int.le_trans ?_ (Int.le_max_right _ _))
      split <;> omega
    simp only [Floating.ofRatio_of_maxExponent_lt hzero hexponent, toFloating, if_neg hzero,
      if_pos hplaces]

/-- A literal without blanks around it stands for the number nearest to what it denotes. The sign of
zero is left open here, as a zero can have a sign of its own. -/
theorem Floating.ofText?_of_denotes {n : Int} (h : Denotes cs n) (hne : n ≠ 0) :
    Floating.ofText? .double cs = some (.ofInt .double n) := by
  obtain ⟨negative, hnegative, hliteral⟩ := Floating.exists_ofLiteral?_of_denotes h .double
  rw [Floating.ofText?, Text.trim_eq_self h.isBlank_eq_false]
  simp only [hliteral, Decimal.toFloating_whole, hnegative hne, Floating.ofInt]

end Number

/-! ## The kind that is taken -/

namespace Value

open Number

variable {text : String}

theorem parseNumber_eq_int_iff {m : Int32} :
    parseNumber text = .ok (.int m) ↔ Denotes (Text.trim text.toList) m.toInt := by
  rw [← int32?_eq_some_iff]
  unfold parseNumber
  dsimp only
  split <;> simp_all

theorem parseNumber_eq_long_iff {m : Int64} :
    parseNumber text = .ok (.long m) ↔
      Denotes (Text.trim text.toList) m.toInt ∧ int32? (Text.trim text.toList) = none := by
  rw [← int64?_eq_some_iff]
  unfold parseNumber
  dsimp only
  split <;> simp_all

theorem parseNumber_of_none (h : int32? (Text.trim text.toList) = none)
    (h' : int64? (Text.trim text.toList) = none) :
    parseNumber text =
      match Floating.ofText? .double (Text.trim text.toList) with
      | some x => .ok (.double x)
      | none => .error (.invalidCast text "number") := by
  unfold parseNumber
  dsimp only
  rw [h, h']
  split <;> simp_all

/-- **The narrowest kind.** A number becomes 32 bits wide exactly if its text, without the blanks
around it, is an integer literal that denotes an integer of that width, and 64 bits wide exactly if
it denotes one of that width only. A literal that denotes any other integer becomes the nearest
number of the 64-bit format. A text that is no integer literal becomes some number of this format or
is refused as it was given. -/
theorem parseNumber_takes_narrowest (text : String) :
    (∀ n : Int, (∃ m : Int32, m.toInt = n ∧ parseNumber text = .ok (.int m)) ↔
      Denotes (Text.trim text.toList) n ∧ (-2 ^ 31 ≤ n ∧ n < 2 ^ 31)) ∧
    (∀ n : Int, (∃ m : Int64, m.toInt = n ∧ parseNumber text = .ok (.long m)) ↔
      Denotes (Text.trim text.toList) n ∧ (-2 ^ 63 ≤ n ∧ n < 2 ^ 63) ∧
        ¬(-2 ^ 31 ≤ n ∧ n < 2 ^ 31)) ∧
    (∀ n : Int, Denotes (Text.trim text.toList) n → ¬(-2 ^ 63 ≤ n ∧ n < 2 ^ 63) →
      parseNumber text = .ok (.double (.ofInt .double n))) ∧
    ((∀ n : Int, ¬Denotes (Text.trim text.toList) n) →
      (∃ x, parseNumber text = .ok (.double x)) ∨
        parseNumber text = .error (.invalidCast text "number")) := by
  refine ⟨fun n ↦ ?_, fun n ↦ ?_, fun n hdenotes hwide ↦ ?_, fun hnone ↦ ?_⟩
  · rw [← exists_toInt32_eq_iff]
    simp only [parseNumber_eq_int_iff]
    constructor
    · rintro ⟨m, rfl, hdenotes⟩
      exact ⟨hdenotes, m, rfl⟩
    · rintro ⟨hdenotes, m, rfl⟩
      exact ⟨m, rfl, hdenotes⟩
  · rw [← exists_toInt32_eq_iff, ← exists_toInt64_eq_iff]
    simp only [parseNumber_eq_long_iff]
    constructor
    · rintro ⟨m, rfl, hdenotes, hnarrow⟩
      exact ⟨hdenotes, ⟨m, rfl⟩, (int32?_eq_none_iff hdenotes).mp hnarrow⟩
    · rintro ⟨hdenotes, ⟨m, rfl⟩, hnarrow⟩
      exact ⟨m, rfl, hdenotes, (int32?_eq_none_iff hdenotes).mpr hnarrow⟩
  · have hint32 : int32? (Text.trim text.toList) = none := by
      rw [int32?_eq_none_iff hdenotes, exists_toInt32_eq_iff]
      omega
    have hint64 : int64? (Text.trim text.toList) = none := by
      rw [int64?_eq_none_iff hdenotes, exists_toInt64_eq_iff]
      exact hwide
    have hne : n ≠ 0 := by omega
    rw [parseNumber_of_none hint32 hint64, Floating.ofText?_of_denotes hdenotes hne]
  · have hint32 : int32? (Text.trim text.toList) = none :=
      Option.eq_none_iff_forall_ne_some.mpr fun m hm ↦ hnone _ (int32?_eq_some_iff.mp hm)
    have hint64 : int64? (Text.trim text.toList) = none :=
      Option.eq_none_iff_forall_ne_some.mpr fun m hm ↦ hnone _ (int64?_eq_some_iff.mp hm)
    rw [parseNumber_of_none hint32 hint64]
    split
    · exact .inl ⟨_, rfl⟩
    · exact .inr rfl

/-- At the limits: the smallest integer of 32 bits with a zero in front, the next one after the
largest, the next one after the largest of 64 bits, and an integer that is not written as one. -/
theorem parseNumber_takes_narrowest_limits :
    (∃ m : Int32, m.toInt = -2147483648 ∧ parseNumber " -02147483648 " = .ok (.int m)) ∧
      (∃ m : Int64, m.toInt = 2147483648 ∧ parseNumber "+2147483648" = .ok (.long m)) ∧
      Denotes (Text.trim "9223372036854775808".toList) 9223372036854775808 ∧
      ¬(-2 ^ 63 ≤ (9223372036854775808 : Int) ∧ (9223372036854775808 : Int) < 2 ^ 63) ∧
      parseNumber "9223372036854775808" = .ok (.double (.ofInt .double 9223372036854775808)) ∧
      (∀ n : Int, ¬Denotes (Text.trim "1e3".toList) n) ∧
      ((∃ x, parseNumber "1e3" = .ok (.double x)) ∨
        parseNumber "1e3" = .error (.invalidCast "1e3" "number")) := by
  have hint : Denotes (Text.trim " -02147483648 ".toList) (-2147483648) :=
    integer?_eq_some_iff.mp (by decide +kernel)
  have hlong : Denotes (Text.trim "+2147483648".toList) 2147483648 :=
    integer?_eq_some_iff.mp (by decide +kernel)
  have hwide : Denotes (Text.trim "9223372036854775808".toList) 9223372036854775808 :=
    integer?_eq_some_iff.mp (by decide +kernel)
  have hother : ∀ n : Int, ¬Denotes (Text.trim "1e3".toList) n := by
    intro n hdenotes
    have hnone : integer? (Text.trim "1e3".toList) = none := by decide +kernel
    exact nomatch hnone.symm.trans (integer?_eq_some_iff.mpr hdenotes)
  obtain ⟨hnarrow, -⟩ := parseNumber_takes_narrowest " -02147483648 "
  obtain ⟨-, hmiddle, -⟩ := parseNumber_takes_narrowest "+2147483648"
  obtain ⟨-, -, hdouble, -⟩ := parseNumber_takes_narrowest "9223372036854775808"
  obtain ⟨-, -, -, hrest⟩ := parseNumber_takes_narrowest "1e3"
  exact ⟨(hnarrow _).mpr ⟨hint, by decide⟩, (hmiddle _).mpr ⟨hlong, by decide⟩, hwide, by decide,
    hdouble _ hwide (by decide), hother, hrest hother⟩

end Value
end Playbook
