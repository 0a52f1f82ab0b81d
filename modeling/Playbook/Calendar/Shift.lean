import Playbook.Calendar.Moment

/-!
# Shifting a date

A shift counts years, months and days. Years and months move the month, and a day the new month
does not have becomes its last one; then the days move along the calendar. Every date on the way has
to be one that is covered.
-/

namespace Playbook

/-- Whether a shift leads back or ahead. -/
inductive Direction where
  | past
  | future
  deriving DecidableEq

/-- How far to move. -/
structure Shift where
  /-- The years. -/
  years : UInt32
  /-- The months. -/
  months : UInt32
  /-- The days. -/
  days : UInt64
  deriving DecidableEq

namespace Direction

/-- A distance with the sign of its direction. -/
def signed (direction : Direction) (distance : Nat) : Int :=
  match direction with
  | .past => -(distance : Int)
  | .future => distance

end Direction

namespace Date

/-- The date moved by months, its day cut down to the length of the new month. -/
def addMonths? (d : Date) (months : Int) : Option Date :=
  let months := 12 * d.year + (d.month - 1 : Nat) + months
  let month := (months % 12).toNat + 1
  of? (months / 12) month (min d.day (Calendar.daysIn (months / 12) month))

/-- The date moved by days. -/
def addDays? (d : Date) (days : Int) : Option Date := ofNumber? (d.number + days)

end Date

namespace Shift

/-- No distance at all. -/
def zero : Shift := ⟨0, 0, 0⟩

/-- Years and months together. -/
def monthCount (shift : Shift) : Nat := 12 * shift.years.toNat + shift.months.toNat

/-- The moment moved, its time of day kept. Months have to be countable in 32 bits. -/
def move? (shift : Shift) (direction : Direction) (m : Moment) : Option Moment :=
  if shift.monthCount < UInt32.size then do
    let date ← m.date.addMonths? (direction.signed shift.monthCount)
    let date ← date.addDays? (direction.signed shift.days.toNat)
    some ⟨date, m.time⟩
  else none

end Shift
end Playbook
