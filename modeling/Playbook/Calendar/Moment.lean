import Playbook.Calendar.Date

/-!
# Moments

A moment is a date with a time of day, without a time zone. A leap second is the second 59 with
nanoseconds from a whole second up.
-/

namespace Playbook

/-- The nanoseconds of a second. -/
def Calendar.second : Nat := 1000000000

/-- A time of day. -/
structure Time where
  /-- The hour, 0 to 23. -/
  hour : Nat
  /-- The minute, 0 to 59. -/
  minute : Nat
  /-- The second, 0 to 59. -/
  second : Nat
  /-- The nanoseconds. -/
  nanosecond : Nat
  /-- The hour exists. -/
  hour_lt : hour < 24 := by decide
  /-- The minute exists. -/
  minute_lt : minute < 60 := by decide
  /-- The second exists. -/
  second_lt : second < 60 := by decide
  /-- Only the second 59 may be followed by a leap second. -/
  nanosecond_lt : nanosecond < 1000000000 ∨ (second = 59 ∧ nanosecond < 2000000000) := by decide
  deriving DecidableEq

namespace Time

/-- The time with the given parts, if there is one. -/
def of? (hour minute second nanosecond : Nat) : Option Time :=
  if hh : hour < 24 then
    if hm : minute < 60 then
      if hs : second < 60 then
        if hn : nanosecond < 1000000000 ∨ (second = 59 ∧ nanosecond < 2000000000) then
          some ⟨hour, minute, second, nanosecond, hh, hm, hs, hn⟩
        else none
      else none
    else none
  else none

/-- The start of a day. -/
def midnight : Time where
  hour := 0
  minute := 0
  second := 0
  nanosecond := 0

variable (t : Time)

/-- The second, a leap second counting as 60. -/
def secondShown : Nat := t.second + t.nanosecond / Calendar.second

/-- The nanoseconds since the second shown. -/
def fraction : Nat := t.nanosecond % Calendar.second

/-- Whether the time is past noon. -/
def isAfternoon : Bool := 12 ≤ t.hour

/-- The hour on a clock face, 1 to 12. -/
def hourOnClock : Nat := if t.hour % 12 = 0 then 12 else t.hour % 12

/-- The whole seconds since midnight. -/
def seconds : Nat := t.hour * 3600 + t.minute * 60 + t.second

end Time

/-- A date with a time of day. -/
structure Moment where
  /-- The date. -/
  date : Date
  /-- The time of day. -/
  time : Time
  deriving DecidableEq

namespace Moment

/-- The number of the first day of 1970. -/
def epoch : Int := 719163

/-- The whole seconds since the start of 1970. -/
def timestamp (m : Moment) : Int := (m.date.number - epoch) * 86400 + m.time.seconds

/-- The moment a number of whole seconds after the start of 1970. -/
def ofTimestamp? (seconds : Int) : Option Moment := do
  let date ← Date.ofNumber? (seconds / 86400 + epoch)
  let rest := (seconds % 86400).toNat
  let time ← Time.of? (rest / 3600) (rest % 3600 / 60) (rest % 60) 0
  some ⟨date, time⟩

end Moment
end Playbook
