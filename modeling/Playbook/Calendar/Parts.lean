import Playbook.Calendar.Moment

/-!
# Dates and times in parts

A date or a time of day given part by part, where the parts need not fit together.
-/

namespace Playbook

/-- The parts of a date. -/
structure DateParts where
  /-- The year. -/
  year : Int32
  /-- The month. -/
  month : UInt32
  /-- The day of the month. -/
  day : UInt32
  deriving DecidableEq

/-- The date with these parts, if there is one. -/
def DateParts.date? (parts : DateParts) : Option Date :=
  Date.of? parts.year.toInt parts.month.toNat parts.day.toNat

/-- The parts of a time of day. -/
structure TimeParts where
  /-- The hour. -/
  hour : UInt32
  /-- The minute. -/
  minute : UInt32
  /-- The second. -/
  second : UInt32
  /-- The millisecond; from 1000 up it is one of a leap second. -/
  millisecond : UInt32
  deriving DecidableEq

/-- The time of day with these parts, if there is one. -/
def TimeParts.time? (parts : TimeParts) : Option Time :=
  Time.of? parts.hour.toNat parts.minute.toNat parts.second.toNat
    (parts.millisecond.toNat * 1000000)

end Playbook
