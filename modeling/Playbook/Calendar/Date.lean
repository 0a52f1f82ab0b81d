/-!
# Dates

Days of the proleptic Gregorian calendar, with the year 0 before the year 1. A `Date` is a day that
exists: its month has it and its year is one of those covered. Days are also numbered through, which
is what weekdays, weeks and moving by days go by; the first day of the year 1, a Monday, has the
number 1.
-/

namespace Playbook

namespace Calendar

/-- The first year covered. -/
def minYear : Int := -262143

/-- The last year covered. -/
def maxYear : Int := 262142

/-- Every fourth year is a leap year, but of the full centuries only every fourth one. -/
def isLeap (year : Int) : Bool := year % 4 = 0 && (year % 100 ≠ 0 || year % 400 = 0)

/-- The days of a month. There is no month 0, and it has no days. -/
def daysIn (year : Int) (month : Nat) : Nat :=
  match month with
  | 1 | 3 | 5 | 7 | 8 | 10 | 12 => 31
  | 4 | 6 | 9 | 11 => 30
  | 2 => if isLeap year then 29 else 28
  | _ => 0

/-- The days of a year. -/
def daysInYear (year : Int) : Nat := if isLeap year then 366 else 365

/-- The days of the year before a month starts. -/
def daysBefore (year : Int) : (month : Nat) → Nat
  | 0 => 0
  | month + 1 => daysBefore year month + daysIn year month

/-- The months have the days of the year. -/
theorem daysBefore_thirteen (year : Int) : daysBefore year 13 = daysInYear year := by
  simp only [daysBefore, daysIn, daysInYear]
  split <;> rfl

/-- The number of the day before a year starts. -/
def daysBeforeYear (year : Int) : Int :=
  365 * (year - 1) + (year - 1) / 4 - (year - 1) / 100 + (year - 1) / 400

/-- The year a day number falls in. Whole cycles of 400 years are taken off first, then centuries,
cycles of 4 years and years; the last century of a cycle and the last year of four are a day longer
than the ones before. -/
def yearOf (number : Int) : Int :=
  let cycles := (number - 1) / 146097
  let inCycle := (number - 1) % 146097
  let centuries := min (inCycle / 36524) 3
  let inCentury := inCycle - 36524 * centuries
  let fours := inCentury / 1461
  let inFour := inCentury - 1461 * fours
  400 * cycles + 100 * centuries + 4 * fours + min (inFour / 365) 3 + 1

/-- Month and day of the `ordinal`-th day from the start of the first of the given months. -/
def locate? (year : Int) : (months : List Nat) → (ordinal : Nat) → Option (Nat × Nat)
  | [], _ => none
  | month :: rest, ordinal =>
    if ordinal ≤ daysIn year month then some (month, ordinal)
    else locate? year rest (ordinal - daysIn year month)

end Calendar

open Calendar

/-- A day of the calendar. -/
structure Date where
  /-- The year. -/
  year : Int
  /-- The month, 1 to 12. -/
  month : Nat
  /-- The day of the month, from 1. -/
  day : Nat
  /-- The year is covered. -/
  year_mem : minYear ≤ year ∧ year ≤ maxYear := by decide
  /-- The month exists. -/
  month_mem : 1 ≤ month ∧ month ≤ 12 := by decide
  /-- The month has the day. -/
  day_mem : 1 ≤ day ∧ day ≤ daysIn year month := by decide
  deriving DecidableEq

namespace Date

/-- The first day of the year 1. -/
def dayOne : Date where
  year := 1
  month := 1
  day := 1

/-- The day that clocks count their seconds from. -/
def epoch : Date where
  year := 1970
  month := 1
  day := 1

/-- The date with the given year, month and day, if there is one. -/
def of? (year : Int) (month day : Nat) : Option Date :=
  if hy : minYear ≤ year ∧ year ≤ maxYear then
    if hm : 1 ≤ month ∧ month ≤ 12 then
      if hd : 1 ≤ day ∧ day ≤ daysIn year month then some ⟨year, month, day, hy, hm, hd⟩
      else none
    else none
  else none

/-- The date with the given place in its year, counted from 1. -/
def ofOrdinal? (year : Int) (ordinal : Nat) : Option Date := do
  let (month, day) ← locate? year [1, 2, 3, 4, 5, 6, 7, 8, 9, 10, 11, 12] ordinal
  of? year month day

/-- The date with the given number. -/
def ofNumber? (number : Int) : Option Date :=
  let year := yearOf number
  ofOrdinal? year (number - daysBeforeYear year).toNat

variable (d : Date)

/-- The place of a date in its year, counted from 1. -/
def ordinal : Nat := daysBefore d.year d.month + d.day

/-- The number of a date. -/
def number : Int := daysBeforeYear d.year + d.ordinal

/-- The quarter, 1 to 4. -/
def quarter : Nat := (d.month - 1) / 3 + 1

/-- The days since the last Monday. -/
def weekday : Nat := ((d.number - 1) % 7).toNat

/-- The days since the last Sunday. -/
def weekdayFromSunday : Nat := (d.weekday + 1) % 7

/-- The week of the year, where week 1 starts at the first Monday and the days before it are in
week 0. -/
def weekFromMonday : Nat := (d.ordinal + 6 - d.weekday) / 7

/-- The week of the year, where week 1 starts at the first Sunday and the days before it are in
week 0. -/
def weekFromSunday : Nat := (d.ordinal + 6 - d.weekdayFromSunday) / 7

end Date

namespace Calendar

/-- The weekday a year starts with, in days since Monday. -/
def firstWeekday (year : Int) : Nat := (daysBeforeYear year % 7).toNat

/-- The weeks of a year when a week belongs to the year of its Thursday: a year has a week more
than 52 if it starts or ends with a Thursday. -/
def weeksIn (year : Int) : Nat :=
  if firstWeekday year = 3 ∨ (isLeap year ∧ firstWeekday year = 2) then 53 else 52

end Calendar

namespace Date

/-- Year and number of the week of a date when a week belongs to the year of its Thursday. -/
def isoWeek (d : Date) : Int × Nat :=
  let week := (d.ordinal + 9 - d.weekday) / 7
  if week = 0 then (d.year - 1, weeksIn (d.year - 1))
  else if weeksIn d.year < week then (d.year + 1, 1)
  else (d.year, week)

/-- The date with a weekday in a week, when a week belongs to the year of its Thursday. -/
def ofIsoWeek? (year : Int) (week weekday : Nat) : Option Date :=
  if 1 ≤ week ∧ week ≤ weeksIn year then
    let fourth := daysBeforeYear year + 4
    let monday := fourth - (fourth - 1) % 7
    ofNumber? (monday + 7 * ((week : Int) - 1) + weekday)
  else none

end Date
end Playbook
