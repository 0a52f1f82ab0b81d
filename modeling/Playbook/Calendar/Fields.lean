import Playbook.Calendar.Moment

/-!
# Fields of a moment

What a text says about a moment is a set of fields, some of which may say the same thing twice. A
field is kept only within its range, and two values for one field contradict each other. From the
fields a date is made in the first of five ways they suffice for, a time of day likewise, and then
every field that played no part has to agree.
-/

namespace Playbook

namespace Calendar

/-- The things a text can say about a moment. -/
inductive Field where
  | year
  | century
  | yearInCentury
  | isoYear
  | isoYearInCentury
  | quarter
  | month
  | day
  | weekFromSunday
  | weekFromMonday
  | isoWeek
  | weekday
  | ordinal
  | halfDay
  | hourInHalf
  | minute
  | second
  | nanosecond
  | timestamp
  | offset
  deriving DecidableEq

/-- The smallest and the largest value of a field. -/
def Field.range : Field → Int × Int
  | .year | .isoYear | .offset => (Int32.minValue.toInt, Int32.maxValue.toInt)
  | .century => (0, Int32.maxValue.toInt)
  | .yearInCentury | .isoYearInCentury => (0, 99)
  | .quarter => (1, 4)
  | .month => (1, 12)
  | .day => (1, 31)
  | .weekFromSunday | .weekFromMonday => (0, 53)
  | .isoWeek => (1, 53)
  | .weekday => (0, 6)
  | .ordinal => (1, 366)
  | .halfDay => (0, 1)
  | .hourInHalf => (0, 11)
  | .minute => (0, 59)
  | .second => (0, 60)
  | .nanosecond => (0, 999999999)
  | .timestamp => (0, Int64.maxValue.toInt)

/-- Why fields make no moment. -/
inductive Fault where
  /-- They do not say enough. -/
  | insufficient
  /-- They contradict each other. -/
  | impossible
  /-- There is no such date or time. -/
  | outOfRange
  deriving DecidableEq

end Calendar

open Calendar

/-- The values of the fields that are known. -/
abbrev Fields := Field → Option Int

namespace Fields

/-- Nothing known. -/
def empty : Fields := fun _ ↦ none

/-- The fields with one more value, if it is in range and contradicts no other. -/
def put? (fields : Fields) (field : Field) (value : Int) : Option Fields :=
  if field.range.1 ≤ value ∧ value ≤ field.range.2 then
    match fields field with
    | none => some fun other ↦ if other = field then some value else fields other
    | some known => if known = value then some fields else none
  else none

/-- The fields with the hour of the day, which is a half of the day and an hour in it. -/
def putHour? (fields : Fields) (hour : Int) : Option Fields := do
  let fields ← fields.put? .halfDay (hour / 12)
  fields.put? .hourInHalf (hour % 12)

/-- Whether a field has a value or is not known. -/
def agrees (fields : Fields) (field : Field) (value : Int) : Bool :=
  match fields field with
  | none => true
  | some known => known = value

variable (fields : Fields)

/-! ## Dates -/

/-- A full year from a year, a century and a year in its century, or none if nothing is said. With
a century or a year in it a year is not before the year 0. A year in its century that stands alone
is one from 1970 to 2069. -/
def fullYear? : (year century inCentury : Option Int) → Except Fault (Option Int)
  | year, none, none => .ok year
  | some year, century, inCentury =>
    if year < 0 then .error .impossible
    else if century.getD (year / 100) = year / 100 ∧ inCentury.getD (year % 100) = year % 100 then
      .ok (some year)
    else .error .impossible
  | none, some century, some inCentury => .ok (some (century * 100 + inCentury))
  | none, none, some inCentury =>
    .ok (some (inCentury + if inCentury < 70 then 2000 else 1900))
  | none, some _, none => .error .insufficient

/-- Whether a date has the year, month and day of the fields. -/
def agreesOnDay (d : Date) : Bool :=
  fields.agrees .year d.year && fields.agrees .month d.month && fields.agrees .day d.day &&
    (if 0 ≤ d.year then
      fields.agrees .century (d.year / 100) && fields.agrees .yearInCentury (d.year % 100)
    else (fields .century).isNone && (fields .yearInCentury).isNone)

/-- Whether a date has the week and weekday of the fields, weeks belonging to the year of their
Thursday. -/
def agreesOnIsoWeek (d : Date) : Bool :=
  let (year, week) := d.isoWeek
  fields.agrees .isoYear year && fields.agrees .isoWeek week && fields.agrees .weekday d.weekday &&
    (if 0 ≤ year then fields.agrees .isoYearInCentury (year % 100)
    else (fields .isoYearInCentury).isNone)

/-- Whether a date has the place in the year and the weeks of the fields. -/
def agreesOnOrdinal (d : Date) : Bool :=
  fields.agrees .ordinal d.ordinal && fields.agrees .weekFromSunday d.weekFromSunday &&
    fields.agrees .weekFromMonday d.weekFromMonday

/-- The date with a weekday in a week of a year, when weeks start `start` days after Monday. -/
def weekDate (year week weekday start : Int) : Except Fault Date :=
  let firstStart := 1 + (start - firstWeekday year) % 7
  let ordinal := firstStart + (week - 1) * 7 + (weekday - start) % 7
  if (Date.ofOrdinal? year 1).isNone then .error .outOfRange
  else if ordinal ≤ 0 then .error .impossible
  else match Date.ofOrdinal? year ordinal.toNat with
    | some d => .ok d
    | none => .error .impossible

/-- A date that may be missing. -/
def existing : Option Date → Except Fault Date
  | some d => .ok d
  | none => .error .outOfRange

/-- A date that other fields agree with. -/
def checked (d : Date) (agreed : Bool) : Except Fault Date :=
  if agreed ∧ fields.agrees .quarter d.quarter then .ok d else .error .impossible

/-- The date the fields make. -/
def date : Except Fault Date := do
  let year ← fullYear? (fields .year) (fields .century) (fields .yearInCentury)
  let isoYear ← fullYear? (fields .isoYear) none (fields .isoYearInCentury)
  match year, fields .month, fields .day with
  | some year, some month, some day =>
    let d ← existing (Date.of? year month.toNat day.toNat)
    fields.checked d (fields.agreesOnIsoWeek d && fields.agreesOnOrdinal d)
  | _, _, _ =>
  match year, fields .ordinal with
  | some year, some ordinal =>
    let d ← existing (Date.ofOrdinal? year ordinal.toNat)
    fields.checked d
      (fields.agreesOnDay d && fields.agreesOnIsoWeek d && fields.agreesOnOrdinal d)
  | _, _ =>
  match year, fields .weekFromSunday, fields .weekday with
  | some year, some week, some weekday =>
    let d ← weekDate year week weekday 6
    fields.checked d
      (fields.agreesOnDay d && fields.agreesOnIsoWeek d && fields.agreesOnOrdinal d)
  | _, _, _ =>
  match year, fields .weekFromMonday, fields .weekday with
  | some year, some week, some weekday =>
    let d ← weekDate year week weekday 0
    fields.checked d
      (fields.agreesOnDay d && fields.agreesOnIsoWeek d && fields.agreesOnOrdinal d)
  | _, _, _ =>
  match isoYear, fields .isoWeek, fields .weekday with
  | some year, some week, some weekday =>
    let d ← existing (Date.ofIsoWeek? year week.toNat weekday.toNat)
    fields.checked d (fields.agreesOnDay d && fields.agreesOnOrdinal d)
  | _, _, _ => .error .insufficient

/-! ## Times of day -/

/-- The time of day the fields make. Seconds may be left out, but then so may their fraction only.
The second 60 is a leap second. -/
def time : Except Fault Time :=
  match fields .halfDay, fields .hourInHalf, fields .minute with
  | some half, some hour, some minute =>
    let second := (fields .second).getD 0
    let leap := if second = 60 then Calendar.second else 0
    match fields .second, fields .nanosecond with
    | none, some _ => .error .insufficient
    | _, nanosecond =>
      match Time.of? (half * 12 + hour).toNat minute.toNat (min second 59).toNat
          (leap + (nanosecond.getD 0).toNat) with
      | some t => .ok t
      | none => .error .outOfRange
  | _, _, _ => .error .insufficient

/-! ## Moments -/

/-- The moment of a timestamp that the other fields agree with. A leap second has the timestamp of
the second before or of the second after it. -/
def ofTimestamp (timestamp : Int) : Except Fault Moment :=
  match Moment.ofTimestamp? timestamp with
  | none => .error .outOfRange
  | some m =>
    let start : Option (Fields × Moment) :=
      if fields .second = some 60 then
        if m.time.second = 59 then some (fields, m)
        else if m.time.second = 0 then
          (Moment.ofTimestamp? (timestamp - 1)).map fun m ↦ (fields, m)
        else none
      else (fields.put? .second m.time.second).map fun fields ↦ (fields, m)
    let filled : Option Fields := do
      let (fields, m) ← start
      let fields ← fields.put? .year m.date.year
      let fields ← fields.put? .ordinal m.date.ordinal
      let fields ← fields.putHour? m.time.hour
      fields.put? .minute m.time.minute
    match filled with
    | none => .error .impossible
    | some fields => do
      let date ← fields.date
      let time ← fields.time
      .ok ⟨date, time⟩

/-- The moment the fields make. A timestamp has to agree with date and time of day, and stands in
for them where they say too little. -/
def moment : Except Fault Moment :=
  match fields.date, fields.time, fields .timestamp with
  | .ok date, .ok time, given =>
    let m : Moment := ⟨date, time⟩
    match given with
    | none => .ok m
    | some given =>
      if given = m.timestamp ∨ (Calendar.second ≤ time.nanosecond ∧ given = m.timestamp + 1) then
        .ok m
      else .error .impossible
  | .error .outOfRange, _, some _ | _, .error .outOfRange, some _ => .error .outOfRange
  | .error .impossible, _, some _ | _, .error .impossible, some _ => .error .impossible
  | _, _, some timestamp => fields.ofTimestamp timestamp
  | .error fault, _, none => .error fault
  | _, .error fault, none => .error fault

end Fields
end Playbook
