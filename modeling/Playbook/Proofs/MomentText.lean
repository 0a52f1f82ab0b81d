import Playbook.Coercion
import Playbook.Proofs.Decimals

/-!
# Moments are read back

The text of a moment is read as the moment. Each number is written with as many digits as it is read
with, or a character that is no digit comes after it: a year of more than four digits has a sign, so
that all of its digits are read, and the digits of a fraction are told by the end of the text. What
is read is every field that the text shows (`Fields.ofMoment`), and those fields make the moment,
also where a leap second is shown as the second 60.
-/

namespace Playbook

namespace Calendar

open Number (digits zeroPadded)

/-! ## Numbers -/

/-- Digits are read to their end if no more can be read or none come after them. -/
theorem leadingNumber?_append {width : Nat} {digits rest : List Char}
    (hdigits : ∀ c ∈ digits, c.isDigit) (hne : digits ≠ [])
    (hend : digits.length = width ∨
      digits.length ≤ width ∧ (rest.headD ' ').isDigit = false) :
    leadingNumber? width (digits ++ rest) = some (Nat.ofDigitChars 10 digits 0, rest) := by
  have hrest : (rest.take (width - digits.length)).takeWhile Char.isDigit = [] := by
    rcases hend with hwidth | ⟨-, hdigit⟩
    · rw [hwidth, Nat.sub_self, List.take_zero, List.takeWhile_nil]
    · cases rest with
      | nil => rw [List.take_nil, List.takeWhile_nil]
      | cons c rest =>
        have hc : c.isDigit = false := hdigit
        cases width - digits.length with
        | zero => rfl
        | succ left =>
          rw [List.take_succ_cons, List.takeWhile_cons, hc]
          rfl
  have hle : digits.length ≤ width := hend.elim Nat.le_of_eq And.left
  have htake : ((digits ++ rest).take width).takeWhile Char.isDigit = digits := by
    rw [List.take_append, List.take_of_length_le hle, List.takeWhile_append_of_pos hdigits, hrest,
      List.append_nil]
  have hempty : digits.isEmpty = false := List.isEmpty_eq_false_iff.mpr hne
  simp only [leadingNumber?, htake, hempty]
  rw [List.drop_left]
  rfl

theorem leadingNumber?_zeroPadded {width n : Nat} (limit : Nat) (rest : List Char)
    (hend : (zeroPadded width n).length = limit ∨
      (zeroPadded width n).length ≤ limit ∧ (rest.headD ' ').isDigit = false) :
    leadingNumber? limit (zeroPadded width n ++ rest) = some (n, rest) := by
  rw [leadingNumber?_append (fun _ ↦ Number.isDigit_of_mem_zeroPadded)
    (Number.zeroPadded_ne_nil width n) hend, Number.ofDigitChars_zeroPadded]

theorem longNumber?_zeroPadded (width n : Nat) {rest : List Char}
    (h : (rest.headD ' ').isDigit = false) :
    longNumber? (zeroPadded width n ++ rest) = some (n, rest) := by
  rw [longNumber?]
  refine leadingNumber?_zeroPadded _ _ (.inr ⟨?_, h⟩)
  rw [List.length_append]
  exact Nat.le_add_right _ _

theorem exists_zeroPadded_eq_cons (width n : Nat) :
    ∃ c cs, zeroPadded width n = c :: cs ∧ c.isDigit := by
  obtain ⟨c, cs, h⟩ := List.exists_cons_of_ne_nil (Number.zeroPadded_ne_nil width n)
  exact ⟨c, cs, h, Number.isDigit_of_mem_zeroPadded (h ▸ List.mem_cons_self)⟩

/-- A text that starts with no blank has none to pass over. -/
theorem trimStart_cons {c : Char} (cs : List Char) (h : Text.isBlank c = false) :
    Text.trimStart (c :: cs) = c :: cs := by
  rw [Text.trimStart, List.dropWhile_cons, h]
  rfl

theorem trimStart_zeroPadded_append (width n : Nat) (rest : List Char) :
    Text.trimStart (zeroPadded width n ++ rest) = zeroPadded width n ++ rest := by
  obtain ⟨c, cs, hcons, hdigit⟩ := exists_zeroPadded_eq_cons width n
  rw [hcons, List.cons_append]
  exact trimStart_cons _ (Text.isBlank_of_isDigit hdigit)

theorem twoDigits_eq_zeroPadded : ∀ n < 100, twoDigits .zeros n = zeroPadded 2 n := by
  decide +kernel

/-- A number of two digits is read back, whatever comes after it. -/
theorem read?_twoDigits {part : Part} (hpart : part.width? = some 2) {n : Nat} (h : n < 100)
    (rest : List Char) :
    part.read? (twoDigits .zeros n ++ rest) = some ((n : Int), rest) := by
  have hlength : (zeroPadded 2 n).length = 2 :=
    Number.length_zeroPadded ((Nat.length_toDigits_le_iff (by decide) (by decide)).mpr h)
  rw [twoDigits_eq_zeroPadded n h]
  unfold Part.read?
  rw [trimStart_zeroPadded_append]
  split
  · cases hpart
  · cases hpart
  · simp only [hpart, leadingNumber?_zeroPadded 2 rest (.inl hlength), Option.map_some]

/-! ## Years -/

/-- A year is written in four digits without a sign, or with a sign in four digits or more. -/
theorem yearText_cases (year : Int) :
    (∃ n : Nat, n < 10000 ∧ year = (n : Int) ∧ yearText .zeros year = zeroPadded 4 n) ∨
      (∃ n : Nat, year = (n : Int) ∧ yearText .zeros year = '+' :: zeroPadded 4 n) ∨
      ∃ n : Nat, year = -(n : Int) ∧ yearText .zeros year = '-' :: zeroPadded 4 n := by
  by_cases hshort : 0 ≤ year ∧ year < 10000
  · refine .inl ⟨year.natAbs, by omega, by omega, ?_⟩
    rw [yearText, if_pos hshort]
    rfl
  · by_cases hneg : year < 0
    · refine .inr (.inr ⟨year.natAbs, by omega, ?_⟩)
      rw [yearText, if_neg hshort, if_pos hneg]
      rfl
    · refine .inr (.inl ⟨year.natAbs, by omega, ?_⟩)
      rw [yearText, if_neg hshort, if_neg hneg]
      rfl

theorem leadingYear?_zeroPadded {n : Nat} (h : n < 10000) (rest : List Char) :
    leadingYear? (zeroPadded 4 n ++ rest) = some ((n : Int), rest) := by
  have hlength : (zeroPadded 4 n).length = 4 :=
    Number.length_zeroPadded ((Nat.length_toDigits_le_iff (by decide) (by decide)).mpr h)
  have hread := leadingNumber?_zeroPadded 4 rest (.inl hlength)
  obtain ⟨c, cs, hcons, hdigit⟩ := exists_zeroPadded_eq_cons 4 n
  rw [hcons, List.cons_append] at hread ⊢
  have hminus : c ≠ '-' := by rintro rfl; exact absurd hdigit (by decide)
  have hplus : c ≠ '+' := by rintro rfl; exact absurd hdigit (by decide)
  unfold leadingYear?
  split
  · exact absurd (List.cons.inj ‹_›).1 hminus
  · exact absurd (List.cons.inj ‹_›).1 hplus
  · rw [hread]
    rfl

/-- A year is read back if no digit comes after it. -/
theorem read?_yearText (year : Int) {rest : List Char} (h : (rest.headD ' ').isDigit = false) :
    Part.year.read? (yearText .zeros year ++ rest) = some (year, rest) := by
  rcases yearText_cases year with ⟨n, hn, rfl, htext⟩ | ⟨n, rfl, htext⟩ | ⟨n, rfl, htext⟩
  · rw [htext, Part.read?, trimStart_zeroPadded_append]
    exact leadingYear?_zeroPadded hn rest
  · rw [htext, List.cons_append, Part.read?, trimStart_cons _ (by decide)]
    simp only [leadingYear?, longNumber?_zeroPadded 4 n h, Option.map_some]
  · rw [htext, List.cons_append, Part.read?, trimStart_cons _ (by decide)]
    simp only [leadingYear?, longNumber?_zeroPadded 4 n h, Option.map_some]

/-! ## Fractions -/

/-- A group of digits stands for the fraction that was cut down to it, if nothing was lost. -/
theorem leadingFraction?_zeroPadded {width unit n : Nat} (hunit : Nat.pow 10 (9 - width) = unit)
    (hwidth : width ≤ 9) (hn : n % unit = 0) (h : (digits (n / unit)).length ≤ width) :
    leadingFraction? (zeroPadded width (n / unit)) = some (n, []) := by
  have hlength := Number.length_zeroPadded h
  have hread := leadingNumber?_zeroPadded 9 [] (.inr ⟨hlength ▸ hwidth, rfl⟩)
  rw [List.append_nil] at hread
  rw [leadingFraction?, hread, Option.bind_eq_bind, Option.bind_some]
  simp only [hlength, List.length_nil, Nat.sub_zero, List.dropWhile_nil, hunit,
    Nat.div_mul_cancel (Nat.dvd_of_mod_eq_zero hn)]

/-- A fraction that is there is read back to its last digit. -/
theorem exists_fractionText_eq_cons {n : Nat} (hpos : n ≠ 0) (h : n < 1000000000) :
    ∃ cs, fractionText n = '.' :: cs ∧ leadingFraction? cs = some (n, []) := by
  have hthree : Nat.pow 10 (9 - 3) = 1000000 := rfl
  have hsix : Nat.pow 10 (9 - 6) = 1000 := rfl
  have hnine : Nat.pow 10 (9 - 9) = 1 := rfl
  rw [fractionText, if_neg hpos]
  split
  next hmillis =>
    refine ⟨_, rfl, leadingFraction?_zeroPadded hthree (by decide) hmillis ?_⟩
    exact (Nat.length_toDigits_le_iff (by decide) (by decide)).mpr (by omega)
  split
  next hmicros =>
    refine ⟨_, rfl, leadingFraction?_zeroPadded hsix (by decide) hmicros ?_⟩
    exact (Nat.length_toDigits_le_iff (by decide) (by decide)).mpr (by omega)
  next =>
    have hlength : (digits (n / 1)).length ≤ 9 := by
      rw [Nat.div_one]
      exact (Nat.length_toDigits_le_iff (by decide) (by decide)).mpr h
    have hread := leadingFraction?_zeroPadded hnine (by decide) (Nat.mod_one n) hlength
    rw [Nat.div_one] at hread
    exact ⟨_, rfl, hread⟩

end Calendar

/-- The second shown is 60 in a leap second only. -/
theorem Time.secondShown_le (t : Time) : t.secondShown ≤ 60 := by
  have hsecond := t.second_lt
  have hnanosecond := t.nanosecond_lt
  rw [secondShown, Calendar.second]
  omega

/-! ## Fields -/

namespace Fields

open Calendar

/-- The fields with one more value. -/
def set (fields : Fields) (field : Field) (value : Int) : Fields :=
  fun other ↦ if other = field then some value else fields other

theorem put?_eq_set {fields : Fields} {field : Field} {value : Int}
    (hrange : field.range.1 ≤ value ∧ value ≤ field.range.2) (h : fields field = none) :
    fields.put? field value = some (fields.set field value) := by
  rw [put?, if_pos hrange, h]
  rfl

/-- An hour of the day makes two fields. -/
theorem putHour?_eq_set {fields : Fields} {hour : Nat} (h : hour < 24)
    (hhalf : fields .halfDay = none) (hhour : fields .hourInHalf = none) :
    fields.putHour? hour =
      some ((fields.set .halfDay (hour / 12)).set .hourInHalf (hour % 12)) := by
  have hfirst : fields.put? .halfDay ((hour : Int) / 12) = some (fields.set .halfDay (hour / 12)) :=
    put?_eq_set (by simp only [Field.range]; omega) hhalf
  have hsecond : (fields.set .halfDay (hour / 12)).put? .hourInHalf ((hour : Int) % 12) =
      some ((fields.set .halfDay (hour / 12)).set .hourInHalf (hour % 12)) :=
    put?_eq_set (by simp only [Field.range]; omega) hhour
  rw [putHour?, hfirst, Option.bind_eq_bind, Option.bind_some, hsecond]

/-- The fields that the text of a moment shows. -/
def ofMoment (m : Moment) : Fields
  | .year => some m.date.year
  | .month => some m.date.month
  | .day => some m.date.day
  | .halfDay => some (m.time.hour / 12)
  | .hourInHalf => some (m.time.hour % 12)
  | .minute => some m.time.minute
  | .second => some m.time.secondShown
  | .nanosecond => if m.time.fraction = 0 then none else some m.time.fraction
  | _ => none

theorem date_ofMoment (m : Moment) : (ofMoment m).date = .ok m.date := by
  have hdate : Date.of? m.date.year m.date.month m.date.day = some m.date := by
    rw [Date.of?, dif_pos m.date.year_mem, dif_pos m.date.month_mem, dif_pos m.date.day_mem]
  simp [date, ofMoment, fullYear?, hdate, existing, checked, agreesOnIsoWeek, agreesOnOrdinal,
    agrees, bind, Except.bind]

/-- A leap second is shown as the second 60, which makes the second 59 and a whole second more. -/
theorem time_ofMoment (m : Moment) : (ofMoment m).time = .ok m.time := by
  have htime : Time.of? m.time.hour m.time.minute m.time.second m.time.nanosecond =
      some m.time := by
    rw [Time.of?, dif_pos m.time.hour_lt, dif_pos m.time.minute_lt, dif_pos m.time.second_lt,
      dif_pos m.time.nanosecond_lt]
  have hnanosecond := m.time.nanosecond_lt
  have hsecond := m.time.second_lt
  have hshown : m.time.secondShown = m.time.second + m.time.nanosecond / 1000000000 := rfl
  have hrest : m.time.fraction = m.time.nanosecond % 1000000000 := rfl
  have hhour : ((m.time.hour : Int) / 12 * 12 + (m.time.hour : Int) % 12).toNat = m.time.hour := by
    omega
  have hminute : (m.time.minute : Int).toNat = m.time.minute := Int.toNat_natCast _
  have hstart : (min (m.time.secondShown : Int) 59).toNat = m.time.second := by omega
  have hfraction : ((if m.time.fraction = 0 then none
      else some (m.time.fraction : Int)).getD 0).toNat = m.time.fraction := by
    split
    next hzero => rw [hzero]; rfl
    next => rfl
  by_cases hleap : (m.time.secondShown : Int) = 60
  · have hsum : second + m.time.fraction = m.time.nanosecond := by
      rw [second]
      omega
    rw [hleap] at hstart
    simp only [time, ofMoment, Option.getD_some, hhour, hminute, hstart, hfraction, hleap, if_true,
      hsum, htime]
  · have hsum : 0 + m.time.fraction = m.time.nanosecond := by omega
    simp only [time, ofMoment, Option.getD_some, hhour, hminute, hstart, hfraction, hleap, if_false,
      hsum, htime]

theorem moment_ofMoment (m : Moment) : (ofMoment m).moment = .ok m := by
  rw [moment, date_ofMoment, time_ofMoment]
  rfl

end Fields

/-! ## Items -/

namespace Calendar

/-- The items that moments are written by. -/
def writtenItems : List Item :=
  yearMonthDay ++ .literal 'T' :: (hourMinuteSecond ++ [.fraction])

theorem items?_written : items? "%Y-%m-%dT%H:%M:%S%.f".toList = some writtenItems := rfl

variable {item : Item} {items : List Item} {text rest : List Char} {fields fields' : Fields}

theorem read?_cons (h : item.read? text fields = some (rest, fields')) :
    read? (item :: items) text fields = read? items rest fields' := by
  rw [read?, h]
  rfl

theorem Item.read?_literal (c : Char) (rest : List Char) (fields : Fields) :
    (Item.literal c).read? (c :: rest) fields = some (rest, fields) := by
  rw [Item.read?, if_neg nofun, Item.readSimple?, Text.after?, if_pos rfl]
  rfl

theorem Item.read?_number {part : Part} {n : Int} (hread : part.read? text = some (n, rest))
    (hput : part.put? fields n = some fields') :
    (Item.number part .zeros).read? text fields = some (rest, fields') := by
  rw [Item.read?, if_neg nofun, Item.readSimple?, hread, Option.bind_eq_bind, Option.bind_some]
  simp only [hput]
  rfl

/-- A number of two digits is kept as the field that it is a number of. -/
theorem Item.read?_twoDigits (part : Part) (field : Field) {n : Nat} {rest : List Char}
    (hpart : part.width? = some 2)
    (hput : ∀ value, part.put? fields value = fields.put? field value)
    (hrange : field.range.1 ≤ (n : Int) ∧ (n : Int) ≤ field.range.2) (h : n < 100)
    (hnone : fields field = none) :
    (Item.number part .zeros).read? (twoDigits .zeros n ++ rest) fields =
      some (rest, fields.set field n) :=
  Item.read?_number (Calendar.read?_twoDigits hpart h rest)
    ((hput n).trans (Fields.put?_eq_set hrange hnone))

theorem Item.read?_hour {hour : Nat} {rest : List Char} (h : hour < 24)
    (hhalf : fields .halfDay = none) (hhour : fields .hourInHalf = none) :
    (Item.number .hour .zeros).read? (twoDigits .zeros hour ++ rest) fields =
      some (rest, (fields.set .halfDay (hour / 12)).set .hourInHalf (hour % 12)) :=
  Item.read?_number (Calendar.read?_twoDigits rfl (Nat.lt_trans h (by decide)) rest)
    (Fields.putHour?_eq_set h hhalf hhour)

theorem daysIn_le (year : Int) (month : Nat) : daysIn year month ≤ 31 := by
  unfold daysIn
  split
  case h_12 => split <;> decide
  all_goals decide

/-- Items that read nothing off a text that starts with no blank. -/
def PassesOver (gap : List Item) : Prop :=
  ∀ items text fields, Text.trimStart text = text →
    read? (gap ++ items) text fields = read? items text fields

theorem passesOver_nil : PassesOver [] := fun _ _ _ _ ↦ rfl

theorem passesOver_blank (c : Char) : PassesOver [.blank c] := by
  intro items text fields h
  have hblank : (Item.blank c).read? text fields = some (text, fields) := by
    rw [Item.read?, if_neg nofun, Item.readSimple?, h]
  exact read?_cons hblank

/-- A gap before a character that stands for itself is passed over. -/
theorem read?_gap {gap : List Item} (hgap : PassesOver gap) {c : Char}
    (hc : Text.isBlank c = false) :
    read? (gap ++ .literal c :: items) (c :: text) fields = read? items text fields := by
  rw [hgap _ _ _ (trimStart_cons text hc), read?_cons (Item.read?_literal c text fields)]

/-- The items of a date and a time, with a gap before each sign that divides them and at the end. -/
def momentItems (gap : List Item) : List Item :=
  .number .year .zeros :: (gap ++ .literal '-' :: .number .month .zeros ::
    (gap ++ .literal '-' :: .number .day .zeros :: (gap ++ .literal 'T' :: .number .hour .zeros ::
      (gap ++ .literal ':' :: .number .minute .zeros ::
        (gap ++ .literal ':' :: .number .second .zeros :: .fraction :: gap)))))

/-- Without a fraction nothing is read for it, and the field stays unknown. -/
theorem Item.read?_fractionText {n : Nat} (h : n < 1000000000)
    (hnone : fields .nanosecond = none) :
    Item.fraction.read? (fractionText n) fields =
      some ([], if n = 0 then fields else fields.set .nanosecond n) := by
  rw [Item.read?, if_neg nofun]
  by_cases hzero : n = 0
  · rw [fractionText, if_pos hzero, if_pos hzero]
    rfl
  · obtain ⟨cs, htext, hread⟩ := exists_fractionText_eq_cons hzero h
    have hrange : (0 : Int) ≤ n ∧ (n : Int) ≤ 999999999 := by omega
    have hput := Fields.put?_eq_set hrange hnone
    rw [htext, if_neg hzero]
    simp only [Item.readSimple?, hread, Option.bind_eq_bind, Option.bind_some, hput]
    rfl

/-- What is read of the text of a moment is what it shows, whether blanks might stand in it or
not. -/
theorem scan?_momentItems {gap : List Item} (hgap : PassesOver gap) (m : Moment) :
    scan? (momentItems gap) m.text = some (.ofMoment m) := by
  have hyear : Field.year.range.1 ≤ m.date.year ∧ m.date.year ≤ Field.year.range.2 := by
    have hmin : Field.year.range.1 = -2147483648 := by decide
    have hmax : Field.year.range.2 = 2147483647 := by decide
    have hcovered := m.date.year_mem
    rw [minYear, maxYear] at hcovered
    omega
  have hmonth := m.date.month_mem
  have hday := m.date.day_mem
  have hdays := daysIn_le m.date.year m.date.month
  have hminute := m.time.minute_lt
  have hsecond := m.time.secondShown_le
  have hfraction : m.time.fraction < 1000000000 := Nat.mod_lt _ (by decide)
  have hread : read? (momentItems gap) m.text .empty = some ([], .ofMoment m) := by
    simp only [Moment.text, Moment.textWith, List.append_assoc, List.cons_append]
    rw [momentItems, read?_cons (Item.read?_number (read?_yearText _ rfl)
        (Fields.put?_eq_set hyear rfl)), read?_gap hgap (by decide),
      read?_cons (Item.read?_twoDigits .month .month rfl (fun _ ↦ rfl)
        (by simp only [Field.range]; omega) (by omega) rfl), read?_gap hgap (by decide),
      read?_cons (Item.read?_twoDigits .day .day rfl (fun _ ↦ rfl)
        (by simp only [Field.range]; omega) (by omega) rfl), read?_gap hgap (by decide),
      read?_cons (Item.read?_hour m.time.hour_lt rfl rfl), read?_gap hgap (by decide),
      read?_cons (Item.read?_twoDigits .minute .minute rfl (fun _ ↦ rfl)
        (by simp only [Field.range]; omega) (by omega) rfl), read?_gap hgap (by decide),
      read?_cons (Item.read?_twoDigits .second .second rfl (fun _ ↦ rfl)
        (by simp only [Field.range]; omega) (by omega) rfl),
      read?_cons (Item.read?_fractionText hfraction rfl), ← List.append_nil gap,
      hgap _ _ _ rfl, read?]
    rw [Option.some_inj, Prod.mk.injEq]
    refine ⟨rfl, funext fun field ↦ ?_⟩
    by_cases hzero : m.time.fraction = 0
    · cases field <;> simp only [Fields.ofMoment, hzero, if_true] <;> rfl
    · cases field <;> simp only [Fields.ofMoment, hzero, if_false] <;> rfl
  rw [scan?, hread]

theorem scan?_text (m : Moment) : scan? writtenItems m.text = some (.ofMoment m) :=
  scan?_momentItems passesOver_nil m

end Calendar

/-! ## Texts -/

namespace Moment

open Calendar

theorem isBlank_of_mem_zeroPadded (width n : Nat) :
    ∀ c ∈ Number.zeroPadded width n, Text.isBlank c = false := fun _ hc ↦
  Text.isBlank_of_isDigit (Number.isDigit_of_mem_zeroPadded hc)

theorem isBlank_of_mem_twoDigits {n : Nat} (h : n < 100) :
    ∀ c ∈ twoDigits .zeros n, Text.isBlank c = false := by
  rw [twoDigits_eq_zeroPadded n h]
  exact isBlank_of_mem_zeroPadded 2 n

theorem isBlank_of_mem_yearText (year : Int) :
    ∀ c ∈ yearText .zeros year, Text.isBlank c = false := by
  rcases yearText_cases year with ⟨n, -, -, htext⟩ | ⟨n, -, htext⟩ | ⟨n, -, htext⟩ <;> rw [htext]
  · exact isBlank_of_mem_zeroPadded 4 n
  · exact List.forall_mem_cons.mpr ⟨by decide, isBlank_of_mem_zeroPadded 4 n⟩
  · exact List.forall_mem_cons.mpr ⟨by decide, isBlank_of_mem_zeroPadded 4 n⟩

theorem isBlank_of_mem_fractionText (n : Nat) :
    ∀ c ∈ fractionText n, Text.isBlank c = false := by
  have hpoint : Text.isBlank '.' = false := by decide
  rw [fractionText]
  split
  · exact List.forall_mem_nil _
  split
  · exact List.forall_mem_cons.mpr ⟨hpoint, isBlank_of_mem_zeroPadded 3 _⟩
  split
  · exact List.forall_mem_cons.mpr ⟨hpoint, isBlank_of_mem_zeroPadded 6 _⟩
  · exact List.forall_mem_cons.mpr ⟨hpoint, isBlank_of_mem_zeroPadded 9 _⟩

/-- No blank is in the text of a moment, so that none is cut off. -/
theorem trim_text (m : Moment) : Text.trim m.text = m.text := by
  have hmonth : m.date.month < 100 := Nat.lt_of_le_of_lt m.date.month_mem.2 (by decide)
  have hday : m.date.day < 100 :=
    Nat.lt_of_le_of_lt (Nat.le_trans m.date.day_mem.2 (daysIn_le _ _)) (by decide)
  have hhour : m.time.hour < 100 := Nat.lt_trans m.time.hour_lt (by decide)
  have hminute : m.time.minute < 100 := Nat.lt_trans m.time.minute_lt (by decide)
  have hsecond : m.time.secondShown < 100 := Nat.lt_of_le_of_lt m.time.secondShown_le (by decide)
  apply Text.trim_eq_self
  simp only [text, textWith, List.forall_mem_append, List.forall_mem_cons]
  and_intros
  · exact isBlank_of_mem_yearText _
  · decide
  · exact isBlank_of_mem_twoDigits hmonth
  · decide
  · exact isBlank_of_mem_twoDigits hday
  · decide
  · exact isBlank_of_mem_twoDigits hhour
  · decide
  · exact isBlank_of_mem_twoDigits hminute
  · decide
  · exact isBlank_of_mem_twoDigits hsecond
  · exact isBlank_of_mem_fractionText _

/-- The text of a moment is what the first of the default patterns writes. -/
theorem format?_written (m : Moment) :
    m.format? "%Y-%m-%dT%H:%M:%S%.f" = some (String.ofList m.text) := by
  have hitems : m.items? writtenItems = some m.text := by
    simp [items?, writtenItems, yearMonthDay, hourMinuteSecond, hourMinute, item?, part, text,
      textWith]
  rw [format?, items?_written, Option.bind_eq_bind, Option.bind_some, hitems]
  rfl

/-- **Moments are read back.** What the first of the default patterns writes for a moment, whatever
its year and its fraction are and with its leap second if it has one, is read as the moment when no
pattern is given. -/
theorem parse_render_dateTime (m : Moment) :
    m.format? "%Y-%m-%dT%H:%M:%S%.f" = some (Value.dateTime m).render ∧
      Moment.parse (Value.dateTime m).render none = .ok m := by
  have hfirst : ofPattern? m.text "%Y-%m-%dT%H:%M:%S%.f" = some m := by
    rw [ofPattern?, items?_written, Option.bind_some, Moment.scan?, scan?_text, Option.bind_some,
      Fields.moment_ofMoment]
    rfl
  have hfound : ofPatterns? m.text defaultPatterns defaultDatePatterns = some m := by
    rw [ofPatterns?, defaultPatterns, List.findSome?_cons, hfirst]
  refine ⟨m.format?_written, ?_⟩
  rw [Value.render, Value.text, Moment.parse]
  simp only [String.toList_ofList, trim_text, hfound]

-- A year before the year 0 has a sign, and a leap second is the second 60.
example :
    let time : Time := { hour := 23, minute := 59, second := 59, nanosecond := 1500000000 }
    (Value.dateTime ⟨{ year := -5, month := 12, day := 31 }, time⟩).render =
      "-0005-12-31T23:59:60.500" := by
  decide

end Moment
end Playbook
