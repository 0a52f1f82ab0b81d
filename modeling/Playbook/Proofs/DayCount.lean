import Playbook.Calendar.Shift
import Mathlib.Logic.Function.Iterate
import Mathlib.Order.Monotone.Basic

/-!
# Days in a row

The days of the calendar follow one another without end: after the last day of a month comes the
first of the next month, and after the last month of a year the first of the next year. The number
of a day goes up by one with each day, so that numbers stand for walks along the calendar
(`Day.number_walk`).

A number leads back to its day. The years of a number are found by dividing out cycles of 400, 100,
4 and 1 years, where the last century of a cycle and the last year of four have a day more and would
be counted twice without the cut at 3. The place in the year is found by taking off one month after
the other (`Day.ofNumber?_number`). The whole seconds of a day are told apart by the time of day, so
that a number of seconds leads back to its moment too (`Moment.ofTimestamp?_timestamp`).
-/

namespace Playbook

namespace Calendar

/-- Whether a year is covered. -/
abbrev Covers (year : Int) : Prop := minYear ≤ year ∧ year ≤ maxYear

/-! ## Lengths of months and years -/

theorem one_le_daysIn (year : Int) {month : Nat} (h : 1 ≤ month ∧ month ≤ 12) :
    1 ≤ daysIn year month := by
  unfold daysIn
  split
  -- Only the length of the second month depends on the year.
  case h_12 => split <;> decide
  case h_13 => grind
  all_goals decide

theorem daysBefore_mono (year : Int) {month later : Nat} (h : month ≤ later) :
    daysBefore year month ≤ daysBefore year later := by
  induction h with
  | refl => exact Nat.le_refl _
  | step _ ih => exact Nat.le_trans ih (Nat.le_add_right _ _)

theorem daysBefore_add_daysIn_le (year : Int) {month : Nat} (h : month ≤ 12) :
    daysBefore year month + daysIn year month ≤ daysInYear year := by
  rw [← daysBefore_thirteen]
  exact daysBefore_mono year (Nat.succ_le_succ h)

/-- A year ends with the 31 days of its last month. -/
theorem daysBefore_twelve (year : Int) : daysBefore year 12 + 31 = daysInYear year :=
  daysBefore_thirteen year

theorem daysBeforeYear_succ (year : Int) :
    daysBeforeYear (year + 1) = daysBeforeYear year + daysInYear year := by
  simp only [daysBeforeYear, daysInYear, isLeap, Bool.and_eq_true, Bool.or_eq_true,
    decide_eq_true_eq]
  split <;> omega

theorem daysBeforeYear_mono {year later : Int} (h : year ≤ later) :
    daysBeforeYear year ≤ daysBeforeYear later := by
  refine monotone_int_of_le_succ (fun year ↦ ?_) h
  rw [daysBeforeYear_succ]
  omega

/-! ## Years and places in them -/

theorem exists_cycles (year : Int) : ∃ cycles centuries fours years : Int,
    year = 400 * cycles + 100 * centuries + 4 * fours + years + 1 ∧
      (0 ≤ centuries ∧ centuries ≤ 3) ∧ (0 ≤ fours ∧ fours ≤ 24) ∧ 0 ≤ years ∧ years ≤ 3 := by
  refine ⟨(year - 1) / 400, (year - 1) % 400 / 100, (year - 1) % 100 / 4, (year - 1) % 4, ?_⟩
  omega

/-- The days of a year have the year that is computed from their numbers. -/
theorem yearOf_eq {year number : Int} (hgt : daysBeforeYear year < number)
    (hle : number ≤ daysBeforeYear year + daysInYear year) : yearOf number = year := by
  obtain ⟨cycles, centuries, fours, years, hyear, hcenturies, hfours, hyears⟩ :=
    exists_cycles year
  have hbefore : daysBeforeYear year =
      146097 * cycles + 36524 * centuries + 1461 * fours + 365 * years := by
    rw [daysBeforeYear, hyear]
    omega
  -- Only the last year of four can be longer, and that of a century only in the last century.
  have hlength : daysInYear year ≤ 365 ∨
      daysInYear year ≤ 366 ∧ years = 3 ∧ (fours = 24 → centuries = 3) := by
    simp only [daysInYear, isLeap, Bool.and_eq_true, Bool.or_eq_true, decide_eq_true_eq]
    split <;> omega
  have hcycle : (number - 1) / 146097 = cycles := by omega
  have hcentury : min ((number - 1) % 146097 / 36524) 3 = centuries := by omega
  have hfour : ((number - 1) % 146097 - 36524 * centuries) / 1461 = fours := by omega
  have hone : min (((number - 1) % 146097 - 36524 * centuries - 1461 * fours) / 365) 3 = years := by
    omega
  simp only [yearOf, hcycle, hcentury, hfour, hone]
  rw [hyear]

/-- Months are taken off until the one that has the day. -/
theorem locate?_range' {year : Int} {month day first count : Nat}
    (hmonth : first ≤ month ∧ month < first + count) (hday : 1 ≤ day ∧ day ≤ daysIn year month) :
    locate? year (List.range' first count) (daysBefore year month + day - daysBefore year first) =
      some (month, day) := by
  induction count generalizing first with
  | zero => omega
  | succ count ih =>
    rw [List.range'_succ, locate?]
    by_cases hfirst : first = month
    · subst hfirst
      rw [Nat.add_sub_cancel_left, if_pos hday.2]
    · have hnext : first + 1 ≤ month := by omega
      have hbefore : daysBefore year (first + 1) ≤ daysBefore year month :=
        daysBefore_mono year hnext
      have hsucc : daysBefore year (first + 1) = daysBefore year first + daysIn year first := rfl
      rw [if_neg (by omega), Nat.sub_sub, ← hsucc]
      exact ih ⟨hnext, by omega⟩

end Calendar

open Calendar

/-! ## Days -/

/-- A day of the calendar, of any year. -/
structure Day where
  /-- The year. -/
  year : Int
  /-- The month, 1 to 12. -/
  month : Nat
  /-- The day of the month, from 1. -/
  day : Nat
  /-- The month exists. -/
  month_mem : 1 ≤ month ∧ month ≤ 12
  /-- The month has the day. -/
  day_mem : 1 ≤ day ∧ day ≤ daysIn year month

namespace Day

/-- The day after a day. -/
def next (d : Day) : Day :=
  if hday : d.day < daysIn d.year d.month then
    { d with day := d.day + 1, day_mem := ⟨Nat.le_add_left 1 d.day, hday⟩ }
  else if hmonth : d.month < 12 then
    have hnext : 1 ≤ d.month + 1 ∧ d.month + 1 ≤ 12 := ⟨Nat.le_add_left 1 d.month, hmonth⟩
    ⟨d.year, d.month + 1, 1, hnext, Nat.le_refl _, one_le_daysIn d.year hnext⟩
  else
    have hfirst : 1 ≤ 1 ∧ 1 ≤ 12 := ⟨Nat.le_refl 1, Nat.le_trans d.month_mem.1 d.month_mem.2⟩
    ⟨d.year + 1, 1, 1, hfirst, Nat.le_refl 1, one_le_daysIn _ hfirst⟩

/-- The day before a day. -/
def previous (d : Day) : Day :=
  if hday : 1 < d.day then
    { d with
      day := d.day - 1
      day_mem := ⟨Nat.le_sub_one_of_lt hday, Nat.le_trans (Nat.sub_le _ _) d.day_mem.2⟩ }
  else if hmonth : 1 < d.month then
    have hprevious : 1 ≤ d.month - 1 ∧ d.month - 1 ≤ 12 :=
      ⟨Nat.le_sub_one_of_lt hmonth, Nat.le_trans (Nat.sub_le _ _) d.month_mem.2⟩
    ⟨d.year, d.month - 1, daysIn d.year (d.month - 1), hprevious,
      one_le_daysIn d.year hprevious, Nat.le_refl _⟩
  else ⟨d.year - 1, 12, 31, by decide, by decide, Nat.le_refl _⟩

/-- The day that so many days lead to. -/
def walk (d : Day) (direction : Direction) (days : Nat) : Day :=
  match direction with
  | .past => previous^[days] d
  | .future => next^[days] d

variable (d : Day)

/-- The date of a day whose year is covered. -/
def date (h : Covers d.year) : Date := ⟨d.year, d.month, d.day, h, d.month_mem, d.day_mem⟩

/-- The date of a day, if its year is covered. -/
def date? : Option Date := if h : Covers d.year then some (d.date h) else none

/-- The place of a day in its year, counted from 1. -/
def ordinal : Nat := daysBefore d.year d.month + d.day

/-- The number of a day. -/
def number : Int := daysBeforeYear d.year + d.ordinal

theorem one_le_ordinal : 1 ≤ d.ordinal := Nat.le_trans d.day_mem.1 (Nat.le_add_left _ _)

theorem ordinal_le : d.ordinal ≤ daysInYear d.year :=
  Nat.le_trans (Nat.add_le_add_left d.day_mem.2 _) (daysBefore_add_daysIn_le _ d.month_mem.2)

/-- A day lies in the years that have its number between them. -/
theorem year_mem_of_number {d : Day} {first last : Int} (hgt : daysBeforeYear first < d.number)
    (hle : d.number ≤ daysBeforeYear last) : first ≤ d.year ∧ d.year < last := by
  have hone := d.one_le_ordinal
  have hlength := d.ordinal_le
  have hnext := daysBeforeYear_succ d.year
  rw [number] at hgt hle
  constructor
  · by_contra hlt
    have hbefore : d.year + 1 ≤ first := by omega
    have hmono := daysBeforeYear_mono hbefore
    omega
  · by_contra hge
    have hmono := daysBeforeYear_mono (Int.not_lt.mp hge)
    omega

/-! ## Walking and counting -/

theorem number_next : d.next.number = d.number + 1 := by
  have hday := d.day_mem
  have hmonth := d.month_mem
  unfold next
  split
  · simp only [number, ordinal]
    omega
  next hlast =>
    split
    · simp only [number, ordinal, daysBefore]
      omega
    next hlater =>
      have htwelve : d.month = 12 := by omega
      have hend : d.ordinal = daysInYear d.year := by
        rw [← daysBefore_twelve, ordinal]
        rw [htwelve] at hlast hday ⊢
        exact congrArg _ (Nat.le_antisymm hday.2 (Nat.le_of_not_lt hlast))
      simp only [number, hend, daysBeforeYear_succ]
      rfl

theorem number_previous : d.previous.number = d.number - 1 := by
  have hday := d.day_mem
  have hmonth := d.month_mem
  unfold previous
  split
  · simp only [number, ordinal]
    omega
  next hfirst =>
    have hone : d.day = 1 := by omega
    split
    next hlater =>
      obtain ⟨before, hbefore⟩ : ∃ before, d.month = before + 1 := ⟨d.month - 1, by omega⟩
      simp only [number, ordinal, hone, hbefore, Nat.add_sub_cancel, daysBefore]
      omega
    next hearlier =>
      have hjanuary : d.month = 1 := by omega
      have hyear := daysBeforeYear_succ (d.year - 1)
      rw [Int.sub_add_cancel] at hyear
      simp only [number, ordinal, hone, hjanuary, hyear, ← daysBefore_twelve]
      simp [daysBefore, daysIn]

theorem number_walk (direction : Direction) (days : Nat) :
    (d.walk direction days).number = d.number + direction.signed days := by
  induction days with
  | zero => cases direction <;> simp [walk, Direction.signed]
  | succ days ih =>
    cases direction with
    | past =>
      simp only [walk, Direction.signed, Function.iterate_succ_apply', number_previous] at ih ⊢
      omega
    | future =>
      simp only [walk, Direction.signed, Function.iterate_succ_apply', number_next] at ih ⊢
      omega

/-! ## From numbers to days -/

theorem of?_eq : Date.of? d.year d.month d.day = d.date? := by
  rw [Date.of?, date?]
  split
  · rw [dif_pos d.month_mem, dif_pos d.day_mem, date]
  · rfl

theorem ofOrdinal?_ordinal : Date.ofOrdinal? d.year d.ordinal = d.date? := by
  have hlocate : locate? d.year (List.range' 1 12) d.ordinal = some (d.month, d.day) :=
    locate?_range' ⟨d.month_mem.1, Nat.lt_succ_of_le d.month_mem.2⟩ d.day_mem
  rw [← of?_eq, Date.ofOrdinal?]
  exact congrArg (· >>= _) hlocate

/-- A number leads back to its day. -/
theorem ofNumber?_number : Date.ofNumber? d.number = d.date? := by
  have hge := d.one_le_ordinal
  have hle := d.ordinal_le
  have hyear : yearOf d.number = d.year := by
    apply yearOf_eq <;> rw [number] <;> omega
  have hordinal : (d.number - daysBeforeYear d.year).toNat = d.ordinal := by
    rw [number]
    omega
  rw [Date.ofNumber?, hyear, hordinal, ofOrdinal?_ordinal]

end Day

theorem Date.ofNumber?_number (d : Date) : Date.ofNumber? d.number = some d := by
  have hday := Day.ofNumber?_number ⟨d.year, d.month, d.day, d.month_mem, d.day_mem⟩
  rwa [Day.date?, dif_pos d.year_mem] at hday

/-! ## Whole seconds -/

namespace Time

theorem seconds_lt (t : Time) : t.seconds < 86400 := by
  have hhour := t.hour_lt
  have hminute := t.minute_lt
  have hsecond := t.second_lt
  rw [seconds]
  omega

/-- Each second of a day has a time. -/
theorem exists_seconds_eq {seconds : Nat} (h : seconds < 86400) :
    ∃ t : Time, t.nanosecond = 0 ∧ t.seconds = seconds := by
  have hhour : seconds / 3600 < 24 := by omega
  have hminute : seconds % 3600 / 60 < 60 := by omega
  have hsecond : seconds % 60 < 60 := by omega
  refine ⟨⟨_, _, _, 0, hhour, hminute, hsecond, .inl (by decide)⟩, rfl, ?_⟩
  simp only [Time.seconds]
  omega

theorem of?_seconds {t : Time} (h : t.nanosecond = 0) :
    Time.of? (t.seconds / 3600) (t.seconds % 3600 / 60) (t.seconds % 60) 0 = some t := by
  obtain ⟨hour, minute, second, nanosecond, hhour, hminute, hsecond, hnanosecond⟩ := t
  obtain rfl : nanosecond = 0 := h
  have hh : (hour * 3600 + minute * 60 + second) / 3600 = hour := by omega
  have hm : (hour * 3600 + minute * 60 + second) % 3600 / 60 = minute := by omega
  have hs : (hour * 3600 + minute * 60 + second) % 60 = second := by omega
  simp only [seconds, hh, hm, hs]
  rw [of?, dif_pos hhour, dif_pos hminute, dif_pos hsecond, dif_pos hnanosecond]

end Time

namespace Moment

/-- A number of seconds leads back to its moment. -/
theorem ofTimestamp?_timestamp {m : Moment} (h : m.time.nanosecond = 0) :
    ofTimestamp? m.timestamp = some m := by
  have hlt := m.time.seconds_lt
  have hday : m.timestamp / 86400 + epoch = m.date.number := by
    rw [timestamp]
    omega
  have hrest : (m.timestamp % 86400).toNat = m.time.seconds := by
    rw [timestamp]
    omega
  rw [ofTimestamp?, hday, Date.ofNumber?_number]
  simp only [Option.bind_eq_bind, Option.bind_some, hrest, Time.of?_seconds h]

/-- Each second from 1970 to before 2100 has a moment. -/
theorem exists_timestamp_eq {seconds : Nat} (h : seconds < 4102444800) :
    ∃ m : Moment, m.timestamp = seconds ∧ m.time.nanosecond = 0 ∧
      1970 ≤ m.date.year ∧ m.date.year < 2100 := by
  obtain ⟨t, hwhole, ht⟩ := Time.exists_seconds_eq (Nat.mod_lt seconds (by decide : 0 < 86400))
  let first : Day := ⟨1970, 1, 1, by decide, by decide⟩
  let day := first.walk .future (seconds / 86400)
  have hnumber : day.number = 719163 + (seconds / 86400 : Nat) := first.number_walk .future _
  have hyear : 1970 ≤ day.year ∧ day.year < 2100 := by
    have hfirst : daysBeforeYear 1970 = 719162 := by decide
    have hlast : daysBeforeYear 2100 = 766644 := by decide
    apply Day.year_mem_of_number <;> omega
  have hcovers : Covers day.year := by
    simp only [Covers, minYear, maxYear]
    omega
  refine ⟨⟨day.date hcovers, t⟩, ?_, hwhole, hyear⟩
  have hdate : (day.date hcovers).number = day.number := rfl
  rw [timestamp, hdate, hnumber, ht, epoch]
  omega

end Moment

end Playbook
