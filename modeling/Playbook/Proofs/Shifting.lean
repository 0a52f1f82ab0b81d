import Playbook.Proofs.DayCount
import Playbook.Step.Run

/-!
# Shifts follow the calendar

A shift first moves by whole months, counted through from the first month of the year 0, and cuts
the day down to the length of the month it comes to; then it walks day by day. The program walks by
numbers instead. Both come to the same day, because a walk of `n` days changes the number of a day
by `n` and a number leads back to its day.
-/

namespace Playbook

open Calendar

/-- The day of a month that is counted from the first month of the year 0. A day that the month does
not have is its last one. -/
def Day.inMonth (months : Int) (day : Nat) (h : 1 ≤ day) : Day where
  year := months / 12
  month := (months % 12).toNat + 1
  day := min day (daysIn (months / 12) ((months % 12).toNat + 1))
  month_mem := by omega
  day_mem := ⟨Nat.le_min.mpr ⟨h, one_le_daysIn _ (by omega)⟩, Nat.min_le_right _ _⟩

namespace Date

variable (d : Date)

theorem addMonths?_eq (months : Int) :
    d.addMonths? months =
      (Day.inMonth (12 * d.year + (d.month - 1) + months) d.day d.day_mem.1).date? := by
  have hmonth : ((d.month - 1 : Nat) : Int) = (d.month : Int) - 1 := Int.ofNat_sub d.month_mem.1
  rw [← Day.of?_eq, addMonths?, hmonth]
  rfl

theorem addDays?_date {day : Day} (h : Covers day.year) (direction : Direction) (days : Nat) :
    (day.date h).addDays? (direction.signed days) = (day.walk direction days).date? := by
  rw [← Day.ofNumber?_number, Day.number_walk]
  rfl

end Date

/-- A shift counts its months, comes to a day by them and walks from there. -/
theorem Shift.move?_eq {shift : Shift} {direction : Direction} {m : Moment} {start : Day}
    (hstart : m.date.addMonths? (direction.signed shift.monthCount) = start.date?) :
    shift.move? direction m =
      if h : shift.monthCount < UInt32.size ∧ Covers start.year ∧
          Covers (start.walk direction shift.days.toNat).year then
        some ⟨(start.walk direction shift.days.toNat).date h.2.2, m.time⟩
      else none := by
  rw [move?, hstart]
  by_cases hcount : shift.monthCount < UInt32.size
  case neg => rw [if_neg hcount, dif_neg fun h ↦ hcount h.1]
  rw [if_pos hcount]
  by_cases hyear : Covers start.year
  case neg =>
    rw [Day.date?, dif_neg hyear, dif_neg fun h ↦ hyear h.2.1]
    rfl
  rw [Day.date?, dif_pos hyear, Option.bind_eq_bind, Option.bind_some, Date.addDays?_date]
  by_cases hend : Covers (start.walk direction shift.days.toNat).year
  · rw [Day.date?, dif_pos hend, dif_pos ⟨hcount, hyear, hend⟩]
    rfl
  · rw [Day.date?, dif_neg hend, dif_neg fun h ↦ hend h.2.2]
    rfl

theorem Shift.move_eq {shift : Shift} {direction : Direction} {m : Moment} {start : Day}
    (hstart : m.date.addMonths? (direction.signed shift.monthCount) = start.date?) :
    shift.move direction m =
      if h : shift.monthCount < UInt32.size ∧ Covers start.year ∧
          Covers (start.walk direction shift.days.toNat).year then
        .ok ⟨(start.walk direction shift.days.toNat).date h.2.2, m.time⟩
      else .error (.date (.shiftedOut m shift)) := by
  rw [move, move?_eq hstart]
  by_cases h : shift.monthCount < UInt32.size ∧ Covers start.year ∧
      Covers (start.walk direction shift.days.toNat).year
  · rw [dif_pos h, dif_pos h]
  · rw [dif_neg h, dif_neg h]

/-- **Shifts follow the calendar.** Years and months move the month, and a day that the new month
does not have becomes its last one; then the days lead along the calendar in the same direction. The
shift succeeds exactly when its months can be counted, the new month is in a year that is covered,
and so is the day at the end. The time of day stays what it is. -/
theorem Shift.move_follows_calendar (shift : Shift) (direction : Direction) (m : Moment) :
    let count := 12 * shift.years.toNat + shift.months.toNat
    let months := 12 * m.date.year + (m.date.month - 1) + direction.signed count
    ∃ start : Day,
      start.year = months / 12 ∧ (start.month : Int) = months % 12 + 1 ∧
      start.day = min m.date.day (daysIn start.year start.month) ∧
      shift.move direction m =
        if h : count < UInt32.size ∧ Covers (months / 12) ∧
            Covers (start.walk direction shift.days.toNat).year then
          .ok ⟨(start.walk direction shift.days.toNat).date h.2.2, m.time⟩
        else .error (.date (.shiftedOut m shift)) := by
  intro count months
  let start := Day.inMonth months m.date.day m.date.day_mem.1
  have hmonth : (start.month : Int) = months % 12 + 1 := by
    have hnonneg : 0 ≤ months % 12 := by omega
    simp only [start, Day.inMonth]
    omega
  exact ⟨start, rfl, hmonth, rfl, move_eq (m.date.addMonths?_eq _)⟩

-- The month after the last day of January ends with its leap day.
example : (⟨0, 1, 0⟩ : Shift).move? .future ⟨{ year := 2024, month := 1, day := 31 }, .midnight⟩ =
    some ⟨{ year := 2024, month := 2, day := 29 }, .midnight⟩ := by
  decide

end Playbook
