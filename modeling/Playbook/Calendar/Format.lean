import Playbook.Calendar.Moment
import Playbook.Calendar.Pattern
import Playbook.Number.Whole

/-!
# Writing moments

A moment is written item by item. It has no time zone, so the items that need one cannot be
written.
-/

namespace Playbook

namespace Calendar

/-- A number after its sign, filled up to a width in characters. -/
def fill (padding : Padding) (width : Nat) (sign digits : List Char) : List Char :=
  match padding with
  | .zeros => sign ++ Number.padLeft '0' (width - sign.length) digits
  | .spaces => Number.padLeft ' ' width (sign ++ digits)
  | .nothing => sign ++ digits

/-- A number in two characters. A number from 100 up shows its tens as the character that many
places after `0`. -/
def twoDigits (padding : Padding) (n : Nat) : List Char :=
  let ones := Char.ofNat ('0'.toNat + n % 10)
  if n < 10 then fill padding 2 [] [ones] else [Char.ofNat ('0'.toNat + n / 10), ones]

/-- A year in four digits, with a sign if it needs more or is before the year 0. -/
def yearText (padding : Padding) (year : Int) : List Char :=
  if 0 ≤ year ∧ year < 10000 then fill padding 4 [] (Number.digits year.natAbs)
  else fill padding 5 [if year < 0 then '-' else '+'] (Number.digits year.natAbs)

/-- A whole number with a sign only if it is negative. -/
def numberText (padding : Padding) (width : Nat) (n : Int) : List Char :=
  fill padding width (if n < 0 then ['-'] else []) (Number.digits n.natAbs)

/-- The fraction of a second in groups of three digits after a point, or nothing. -/
def fractionText (nanoseconds : Nat) : List Char :=
  if nanoseconds = 0 then []
  else if nanoseconds % 1000000 = 0 then '.' :: Number.zeroPadded 3 (nanoseconds / 1000000)
  else if nanoseconds % 1000 = 0 then '.' :: Number.zeroPadded 6 (nanoseconds / 1000)
  else '.' :: Number.zeroPadded 9 nanoseconds

/-- A name in full or cut to three letters. -/
def nameText (names : List String) (full : Bool) (place : Nat) : List Char :=
  let name := (names.getD place "").toList
  if full then name else name.take 3

end Calendar

namespace Moment

open Calendar

/-- A number shown of a moment. The century is shown in eight bits. -/
def part (m : Moment) (padding : Padding) : Part → List Char
  | .year => yearText padding m.date.year
  | .century => twoDigits padding (m.date.year / 100 % 256).toNat
  | .yearInCentury => twoDigits padding (m.date.year % 100).toNat
  | .isoYear => yearText padding m.date.isoWeek.1
  | .isoYearInCentury => twoDigits padding (m.date.isoWeek.1 % 100).toNat
  | .quarter => Number.digits m.date.quarter
  | .month => twoDigits padding m.date.month
  | .day => twoDigits padding m.date.day
  | .weekFromSunday => twoDigits padding m.date.weekFromSunday
  | .weekFromMonday => twoDigits padding m.date.weekFromMonday
  | .isoWeek => twoDigits padding m.date.isoWeek.2
  | .weekdayFromSunday => Number.digits m.date.weekdayFromSunday
  | .weekdayFromMonday => Number.digits (m.date.weekday + 1)
  | .ordinal => numberText padding 3 m.date.ordinal
  | .hour => twoDigits padding m.time.hour
  | .hourOnClock => twoDigits padding m.time.hourOnClock
  | .minute => twoDigits padding m.time.minute
  | .second => twoDigits padding m.time.secondShown
  | .nanosecond => numberText padding 9 m.time.fraction
  | .timestamp => numberText padding 9 m.timestamp

/-- An item written for a moment. -/
def item? (m : Moment) : Item → Option (List Char)
  | .literal c | .blank c => some [c]
  | .number part padding => some (m.part padding part)
  | .monthName full => some (nameText monthNames full (m.date.month - 1))
  | .weekdayName full => some (nameText weekdayNames full m.date.weekday)
  | .halfDay upper =>
    let text := if m.time.isAfternoon then ['P', 'M'] else ['A', 'M']
    some (if upper then text else text.map Char.toLower)
  | .fraction => some (fractionText m.time.fraction)
  | .fractionDigits point digits =>
    some ((if point then ['.'] else []) ++ (Number.zeroPadded 9 m.time.fraction).take digits)
  | .zoneName | .zoneOffset _ | .zoned => none

/-- The items written one after the other. -/
def items? (m : Moment) (items : List Item) : Option (List Char) :=
  (items.mapM m.item?).map List.flatten

/-- A moment written by a pattern. -/
def format? (m : Moment) (pattern : String) : Option String := do
  let items ← Calendar.items? pattern.toList
  let text ← m.items? items
  some (String.ofList text)

/-- Date and time with a separator between them, and the fraction of the second if there is one. -/
def textWith (separator : Char) (m : Moment) : List Char :=
  yearText .zeros m.date.year ++ '-' :: twoDigits .zeros m.date.month ++
    '-' :: twoDigits .zeros m.date.day ++ separator :: twoDigits .zeros m.time.hour ++
    ':' :: twoDigits .zeros m.time.minute ++ ':' :: twoDigits .zeros m.time.secondShown ++
    fractionText m.time.fraction

/-- The text of a moment: date and time with a `T` between them. -/
def text : Moment → List Char := textWith 'T'

end Moment
end Playbook
