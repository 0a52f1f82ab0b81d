import Playbook.Calendar.Fields
import Playbook.Calendar.Pattern
import Playbook.Text.Search

/-!
# Reading moments

A text is read against the items of a pattern, from left to right and without going back. A number
may have blanks in front and takes as many digits as it can have; names are read in any letter case;
a blank of the pattern stands for any run of blanks, also for none. What is read is kept as
`Fields`.
-/

namespace Playbook.Calendar

/-! ## Numbers -/

/-- Up to `width` leading digits as a number, at least one, and what follows them. -/
def leadingNumber? (width : Nat) (cs : List Char) : Option (Nat × List Char) :=
  let digits := (cs.take width).takeWhile Char.isDigit
  if digits.isEmpty then none else some (Nat.ofDigitChars 10 digits 0, cs.drop digits.length)

/-- All leading digits as a number, at least one, and what follows them. -/
def longNumber? (cs : List Char) : Option (Nat × List Char) := leadingNumber? cs.length cs

/-- A year: four digits at most, or any number of them after a sign. -/
def leadingYear? : List Char → Option (Int × List Char)
  | '-' :: cs => (longNumber? cs).map fun (n, rest) ↦ (-(n : Int), rest)
  | '+' :: cs => (longNumber? cs).map fun (n, rest) ↦ ((n : Int), rest)
  | cs => (leadingNumber? 4 cs).map fun (n, rest) ↦ ((n : Int), rest)

/-- The digits a number may have. -/
def Part.width? : Part → Option Nat
  | .year | .isoYear | .timestamp => none
  | .quarter | .weekdayFromSunday | .weekdayFromMonday => some 1
  | .ordinal => some 3
  | .nanosecond => some 9
  | _ => some 2

/-- Reads a number of a moment. -/
def Part.read? (part : Part) (cs : List Char) : Option (Int × List Char) :=
  let cs := Text.trimStart cs
  match part with
  | .year | .isoYear => leadingYear? cs
  | _ =>
    match part.width? with
    | some width => (leadingNumber? width cs).map fun (n, rest) ↦ ((n : Int), rest)
    | none => (longNumber? cs).map fun (n, rest) ↦ ((n : Int), rest)

/-- Keeps a number of a moment. -/
def Part.put? (part : Part) (fields : Fields) (n : Int) : Option Fields :=
  match part with
  | .year => fields.put? .year n
  | .century => fields.put? .century n
  | .yearInCentury => fields.put? .yearInCentury n
  | .isoYear => fields.put? .isoYear n
  | .isoYearInCentury => fields.put? .isoYearInCentury n
  | .quarter => fields.put? .quarter n
  | .month => fields.put? .month n
  | .day => fields.put? .day n
  | .weekFromSunday => fields.put? .weekFromSunday n
  | .weekFromMonday => fields.put? .weekFromMonday n
  | .isoWeek => fields.put? .isoWeek n
  | .weekdayFromSunday => if n ≤ 6 then fields.put? .weekday ((n + 6) % 7) else none
  | .weekdayFromMonday => fields.put? .weekday (n - 1)
  | .ordinal => fields.put? .ordinal n
  | .hour => fields.putHour? n
  | .hourOnClock => if 1 ≤ n ∧ n ≤ 12 then fields.put? .hourInHalf (n % 12) else none
  | .minute => fields.put? .minute n
  | .second => fields.put? .second n
  | .nanosecond => fields.put? .nanosecond n
  | .timestamp => fields.put? .timestamp n

/-- The fraction of a second: up to nine digits count and further ones are passed over. -/
def leadingFraction? (cs : List Char) : Option (Nat × List Char) := do
  let (n, rest) ← leadingNumber? 9 cs
  let digits := cs.length - rest.length
  some (n * Nat.pow 10 (9 - digits), rest.dropWhile Char.isDigit)

/-- The fraction of a second in exactly `digits` digits. -/
def exactFraction? (digits : Nat) (cs : List Char) : Option (Nat × List Char) := do
  let (n, rest) ← leadingNumber? digits cs
  if cs.length - rest.length = digits then some (n * Nat.pow 10 (9 - digits), rest) else none

/-! ## Names -/

/-- What follows a word that may be written in any letter case. -/
def afterWord? (word cs : List Char) : Option (List Char) :=
  if (cs.take word.length).map Char.toLower = word.map Char.toLower then
    some (cs.drop word.length)
  else none

/-- The place of the name a text starts with. Three letters are enough; a full name may go on. -/
def leadingName? (full : Bool) : (names : List String) → (place : Nat) → List Char →
    Option (Nat × List Char)
  | [], _, _ => none
  | name :: names, place, cs =>
    match afterWord? (name.toList.take 3) cs with
    | none => leadingName? full names (place + 1) cs
    | some rest =>
      if full then some (place, (afterWord? (name.toList.drop 3) rest).getD rest)
      else some (place, rest)

/-- Before or after noon. -/
def leadingHalfDay? (cs : List Char) : Option (Nat × List Char) :=
  match afterWord? ['a', 'm'] cs with
  | some rest => some (0, rest)
  | none => (afterWord? ['p', 'm'] cs).map fun rest ↦ (1, rest)

/-! ## Time zones -/

/-- The sign of an offset. -/
def leadingSign? : List Char → Option (Int × List Char)
  | '+' :: rest => some (1, rest)
  | '-' :: rest | '\u2212' :: rest => some (-1, rest)
  | _ => none

/-- The offset of a time zone in seconds: a sign, two digits for the hours and two for the minutes,
with colons and blanks between them. It may also be a `Z` when that is allowed, and lack its minutes
when that is. -/
def leadingOffset? (zulu hoursOnly : Bool) (cs : List Char) : Option (Int × List Char) :=
  match zulu, cs with
  | true, 'Z' :: rest | true, 'z' :: rest => some (0, rest)
  | _, _ => do
    let (sign, rest) ← leadingSign? cs
    let (hours, rest) ← exactNumber? rest
    let rest := rest.dropWhile fun c ↦ c = ':' || Text.isBlank c
    if rest.isEmpty then
      if hoursOnly then some (sign * (hours * 3600), rest) else none
    else
      let (minutes, rest) ← exactNumber? rest
      if minutes < 60 then some (sign * (hours * 3600 + minutes * 60), rest) else none
where
  /-- Two digits. -/
  exactNumber? : List Char → Option (Int × List Char)
    | a :: b :: rest =>
      if a.isDigit ∧ b.isDigit then some (Nat.ofDigitChars 10 [a, b] 0, rest) else none
    | _ => none

/-! ## Items -/

/-- Reads one item that is no whole moment. -/
def Item.readSimple? (item : Item) (cs : List Char) (fields : Fields) :
    Option (List Char × Fields) :=
  match item with
  | .literal c => (Text.after? [c] cs).map fun rest ↦ (rest, fields)
  | .blank _ => some (Text.trimStart cs, fields)
  | .number part _ => do
    let (n, rest) ← part.read? cs
    return (rest, ← part.put? fields n)
  | .monthName full => do
    let (place, rest) ← leadingName? full monthNames 1 cs
    return (rest, ← fields.put? .month place)
  | .weekdayName full => do
    let (place, rest) ← leadingName? full weekdayNames 0 cs
    return (rest, ← fields.put? .weekday place)
  | .halfDay _ => do
    let (half, rest) ← leadingHalfDay? cs
    return (rest, ← fields.put? .halfDay half)
  | .fraction =>
    match cs with
    | '.' :: cs => do
      let (n, rest) ← leadingFraction? cs
      return (rest, ← fields.put? .nanosecond n)
    | _ => some (cs, fields)
  | .fractionDigits true digits =>
    match cs with
    | '.' :: cs => do
      let (n, rest) ← exactFraction? digits cs
      return (rest, ← fields.put? .nanosecond n)
    | _ => some (cs, fields)
  | .fractionDigits false digits => do
    let (n, rest) ← exactFraction? digits cs
    return (rest, ← fields.put? .nanosecond n)
  | .zoneName => some (cs.dropWhile fun c ↦ !Text.isBlank c, fields)
  | .zoneOffset lenient => do
    let (offset, rest) ← leadingOffset? lenient lenient (Text.trimStart cs)
    return (rest, ← fields.put? .offset offset)
  | .zoned => none

/-- Reads items that are no whole moments, one after the other. -/
def readSimple? : List Item → List Char → Fields → Option (List Char × Fields)
  | [], cs, fields => some (cs, fields)
  | item :: items, cs, fields => do
    let (rest, fields) ← item.readSimple? cs fields
    readSimple? items rest fields

/-- The time of a moment, with blanks allowed before the colons and at the end. -/
def spacedTime : List Item :=
  [.number .hour .zeros, .blank ' ', .literal ':', .number .minute .zeros, .blank ' ',
    .literal ':', .number .second .zeros, .fraction, .blank ' ']

/-- The date of a moment, with blanks allowed before the hyphens. -/
def spacedDate : List Item :=
  [.number .year .zeros, .blank ' ', .literal '-', .number .month .zeros, .blank ' ',
    .literal '-', .number .day .zeros]

/-- Reads a whole moment with an offset, where `UTC` is one. -/
def readZoned? (cs : List Char) (fields : Fields) : Option (List Char × Fields) := do
  let (rest, fields) ← readSimple? spacedDate cs fields
  let (separator, rest) ← rest.head?.map fun c ↦ (c, rest.drop 1)
  if separator = 'T' ∨ separator = 't' ∨ separator = ' ' then
    let (rest, fields) ← readSimple? spacedTime rest fields
    let (offset, rest) ←
      match afterWord? ['u', 't', 'c'] rest with
      | some rest => some (0, rest)
      | none => leadingOffset? true false rest
    return (rest, ← fields.put? .offset offset)
  else none

/-- Reads one item. -/
def Item.read? (item : Item) (cs : List Char) (fields : Fields) : Option (List Char × Fields) :=
  if item = .zoned then readZoned? cs fields else item.readSimple? cs fields

/-- Reads items one after the other. -/
def read? : List Item → List Char → Fields → Option (List Char × Fields)
  | [], cs, fields => some (cs, fields)
  | item :: items, cs, fields => do
    let (rest, fields) ← item.read? cs fields
    read? items rest fields

/-- The fields of a text that the items read to its end. -/
def scan? (items : List Item) (cs : List Char) : Option Fields :=
  match read? items cs .empty with
  | some ([], fields) => some fields
  | _ => none

end Playbook.Calendar

namespace Playbook

open Calendar

/-- The moment a text is by the items of a pattern. -/
def Moment.scan? (items : List Item) (cs : List Char) : Option Moment :=
  (Calendar.scan? items cs).bind fun fields ↦ fields.moment.toOption

/-- The date a text is by the items of a pattern. -/
def Date.scan? (items : List Item) (cs : List Char) : Option Date :=
  (Calendar.scan? items cs).bind fun fields ↦ fields.date.toOption

end Playbook
