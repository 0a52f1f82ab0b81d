import Playbook.Text.Blank

/-!
# Date patterns

A pattern says how moments are written and read. Most characters stand for themselves; a percent
sign starts a directive, which stands for one item or for a few of them. A directive with a number
may say how the number is padded. A pattern with an unknown directive is no pattern at all.
-/

namespace Playbook.Calendar

/-- What fills a number up to its usual width. -/
inductive Padding where
  | zeros
  | spaces
  | nothing
  deriving DecidableEq

/-- The numbers that can be shown of a moment. -/
inductive Part where
  | year
  | century
  | yearInCentury
  | isoYear
  | isoYearInCentury
  | quarter
  | month
  | day
  | weekFromSunday
  | weekFromMonday
  | isoWeek
  /-- The weekday from 0, a Sunday, to 6. -/
  | weekdayFromSunday
  /-- The weekday from 1, a Monday, to 7. -/
  | weekdayFromMonday
  | ordinal
  | hour
  | hourOnClock
  | minute
  | second
  | nanosecond
  | timestamp
  deriving DecidableEq

/-- An item of a pattern. -/
inductive Item where
  /-- A character that stands for itself. -/
  | literal (c : Char)
  /-- A blank: written as it is, and read as any run of blanks. -/
  | blank (c : Char)
  /-- A number. -/
  | number (part : Part) (padding : Padding)
  /-- The name of the month, in full or cut to three letters. -/
  | monthName (full : Bool)
  /-- The name of the weekday, in full or cut to three letters. -/
  | weekdayName (full : Bool)
  /-- Whether it is before or after noon, in upper or lower case. -/
  | halfDay (upper : Bool)
  /-- A point and the fraction of the second in as few groups of three digits as it takes, or
  nothing if there is no fraction. -/
  | fraction
  /-- The fraction of the second in a fixed number of digits, with a point or without. -/
  | fractionDigits (point : Bool) (digits : Nat)
  /-- The name of a time zone. -/
  | zoneName
  /-- The offset of a time zone. A lenient one may be a `Z` or lack its minutes. -/
  | zoneOffset (lenient : Bool)
  /-- A whole moment with an offset. -/
  | zoned
  deriving DecidableEq

/-! ## Directives -/

/-- Hour and minute, a colon between them. -/
def hourMinute : List Item := [.number .hour .zeros, .literal ':', .number .minute .zeros]

/-- Hour, minute and second, colons between them. -/
def hourMinuteSecond : List Item := hourMinute ++ [.literal ':', .number .second .zeros]

/-- Month, day and year in its century, slashes between them. -/
def monthDayYear : List Item :=
  [.number .month .zeros, .literal '/', .number .day .zeros, .literal '/',
    .number .yearInCentury .zeros]

/-- Year, month and day, hyphens between them. -/
def yearMonthDay : List Item :=
  [.number .year .zeros, .literal '-', .number .month .zeros, .literal '-', .number .day .zeros]

/-- The items of a directive of one character. -/
def directive? (c : Char) : Option (List Item) :=
  match c with
  | 'A' => some [.weekdayName true]
  | 'B' => some [.monthName true]
  | 'C' => some [.number .century .zeros]
  | 'D' | 'x' => some monthDayYear
  | 'F' => some yearMonthDay
  | 'G' => some [.number .isoYear .zeros]
  | 'H' => some [.number .hour .zeros]
  | 'I' => some [.number .hourOnClock .zeros]
  | 'M' => some [.number .minute .zeros]
  | 'P' => some [.halfDay false]
  | 'R' => some hourMinute
  | 'S' => some [.number .second .zeros]
  | 'T' | 'X' => some hourMinuteSecond
  | 'U' => some [.number .weekFromSunday .zeros]
  | 'V' => some [.number .isoWeek .zeros]
  | 'W' => some [.number .weekFromMonday .zeros]
  | 'Y' => some [.number .year .zeros]
  | 'Z' => some [.zoneName]
  | 'a' => some [.weekdayName false]
  | 'b' | 'h' => some [.monthName false]
  | 'c' =>
    some ([.weekdayName false, .blank ' ', .monthName false, .blank ' ', .number .day .spaces,
      .blank ' '] ++ hourMinuteSecond ++ [.blank ' ', .number .year .zeros])
  | 'd' => some [.number .day .zeros]
  | 'e' => some [.number .day .spaces]
  | 'f' => some [.number .nanosecond .zeros]
  | 'g' => some [.number .isoYearInCentury .zeros]
  | 'j' => some [.number .ordinal .zeros]
  | 'k' => some [.number .hour .spaces]
  | 'l' => some [.number .hourOnClock .spaces]
  | 'm' => some [.number .month .zeros]
  | 'n' => some [.blank '\n']
  | 'p' => some [.halfDay true]
  | 'q' => some [.number .quarter .nothing]
  | 'r' =>
    some ([.number .hourOnClock .zeros, .literal ':', .number .minute .zeros, .literal ':',
      .number .second .zeros, .blank ' ', .halfDay true])
  | 's' => some [.number .timestamp .nothing]
  | 't' => some [.blank '\t']
  | 'u' => some [.number .weekdayFromMonday .nothing]
  | 'v' =>
    some [.number .day .spaces, .literal '-', .monthName false, .literal '-', .number .year .zeros]
  | 'w' => some [.number .weekdayFromSunday .nothing]
  | 'y' => some [.number .yearInCentury .zeros]
  | 'z' => some [.zoneOffset false]
  | '+' => some [.zoned]
  | '%' => some [.literal '%']
  | _ => none

/-- The items of a directive of one character with another padding. Only a directive for a single
number has one. -/
def padded? (padding : Padding) (c : Char) : Option (List Item) :=
  match directive? c with
  | some [.number part _] => some [.number part padding]
  | _ => none

/-- The item for a character that stands for itself. -/
def plain (c : Char) : Item := if Text.isBlank c then .blank c else .literal c

/-- The items of a pattern. -/
def items? : List Char → Option (List Item)
  | [] => some []
  | '%' :: '-' :: c :: rest => do return (← padded? .nothing c) ++ (← items? rest)
  | '%' :: '0' :: c :: rest => do return (← padded? .zeros c) ++ (← items? rest)
  | '%' :: '_' :: c :: rest => do return (← padded? .spaces c) ++ (← items? rest)
  | '%' :: '#' :: 'z' :: rest => do return .zoneOffset true :: (← items? rest)
  | '%' :: ':' :: 'z' :: rest => do return .zoneOffset false :: (← items? rest)
  | '%' :: ':' :: ':' :: 'z' :: rest => do return .zoneOffset false :: (← items? rest)
  | '%' :: ':' :: ':' :: ':' :: 'z' :: rest => do return .zoneOffset false :: (← items? rest)
  | '%' :: '.' :: 'f' :: rest => do return .fraction :: (← items? rest)
  | '%' :: '.' :: '3' :: 'f' :: rest => do return .fractionDigits true 3 :: (← items? rest)
  | '%' :: '.' :: '6' :: 'f' :: rest => do return .fractionDigits true 6 :: (← items? rest)
  | '%' :: '.' :: '9' :: 'f' :: rest => do return .fractionDigits true 9 :: (← items? rest)
  | '%' :: '3' :: 'f' :: rest => do return .fractionDigits false 3 :: (← items? rest)
  | '%' :: '6' :: 'f' :: rest => do return .fractionDigits false 6 :: (← items? rest)
  | '%' :: '9' :: 'f' :: rest => do return .fractionDigits false 9 :: (← items? rest)
  | '%' :: c :: rest => do return (← directive? c) ++ (← items? rest)
  | ['%'] => none
  | c :: rest => do return plain c :: (← items? rest)

/-! ## Names -/

/-- The names of the months. -/
def monthNames : List String :=
  ["January", "February", "March", "April", "May", "June", "July", "August", "September",
    "October", "November", "December"]

/-- The names of the weekdays. -/
def weekdayNames : List String :=
  ["Monday", "Tuesday", "Wednesday", "Thursday", "Friday", "Saturday", "Sunday"]

end Playbook.Calendar
