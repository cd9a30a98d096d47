import EntityQuery.Calendar.Moment
import Mathlib.Algebra.GroupWithZero.Nat
import Mathlib.Tactic.ByContra
import Mathlib.Tactic.SplitIfs

/-!
# Instants in the calendar

Days are counted from the start of the year zero, so that a moment by a clock that is ahead of
universal time becomes a number of seconds. The calendar holds the instants from the start of its
first year to the end of its last one. A clock is less than a day ahead or behind, so that only
moments on the first and on the last day of the calendar can lie outside of it by universal time.

## Main definitions

* `Date.number`: the days before a date
* `Moment.instant`, `CalendarHolds`: the seconds before a moment, and the instants of the calendar

## Main results

* `Date.daysBeforeYear_succ`: a year has as many days as its months
* `Date.isFirst_iff`, `Date.isLast_iff`: the first and the last day of the calendar
* `Moment.inCalendar_iff`: a moment lies within the calendar if its instant does
-/

namespace EntityQuery

namespace Date

/-! ## Days -/

/-- The days from the start of the year zero to that of another year. -/
def daysBeforeYear (year : Int) : Int :=
  365 * year + (year + 3) / 4 - (year + 99) / 100 + (year + 399) / 400

/-- The days of a year in front of a month. -/
def daysBeforeMonth (year : Int) (month : Nat) : Nat :=
  ((List.range month).map (daysIn year)).sum

/-- The days from the start of the year zero to a date. -/
def number (date : Date) : Int :=
  daysBeforeYear date.year + daysBeforeMonth date.year date.month + (date.day - 1)

/-- A year has as many days as its months. -/
theorem daysBeforeYear_succ (year : Int) :
    daysBeforeYear (year + 1) = daysBeforeYear year + daysBeforeMonth year 13 := by
  have months : daysBeforeMonth year 13 = if isLeap year then 366 else 365 := by
    simp only [daysBeforeMonth, List.range_succ, List.range_zero, List.nil_append, List.map_append,
      List.map_cons, List.map_nil, List.sum_append, List.sum_cons, List.sum_nil, daysIn]
    split <;> rfl
  rw [months]
  unfold daysBeforeYear isLeap
  simp only [Bool.and_eq_true, Bool.or_eq_true, beq_iff_eq, bne_iff_ne]
  split_ifs
  · omega
  · omega

theorem daysBeforeYear_mono {year later : Int} (h : year ≤ later) :
    daysBeforeYear year ≤ daysBeforeYear later := by
  unfold daysBeforeYear
  omega

theorem daysBeforeMonth_succ (year : Int) (month : Nat) :
    daysBeforeMonth year (month + 1) = daysBeforeMonth year month + daysIn year month := by
  unfold daysBeforeMonth
  rw [List.range_succ, List.map_append, List.sum_append]
  rfl

theorem daysBeforeMonth_mono (year : Int) {month later : Nat} (h : month ≤ later) :
    daysBeforeMonth year month ≤ daysBeforeMonth year later := by
  induction h with
  | refl => exact Nat.le_refl _
  | step _ ih =>
    rw [daysBeforeMonth_succ]
    omega

theorem month_bounds (date : Date) : 1 ≤ date.month ∧ date.month ≤ 12 := by
  obtain ⟨year, month, day, -, -, day_pos, day_le⟩ := date
  unfold daysIn at day_le
  simp only
  split at day_le <;> omega

variable (date : Date)

/-- A date lies in its month. -/
theorem day_bounds : 1 ≤ date.day ∧
    daysBeforeMonth date.year date.month + date.day ≤
      daysBeforeMonth date.year (date.month + 1) := by
  obtain ⟨year, month, day, -, -, day_pos, day_le⟩ := date
  rw [daysBeforeMonth_succ]
  exact ⟨day_pos, Nat.add_le_add_left day_le _⟩

/-- A date lies in its year. -/
theorem number_bounds :
    daysBeforeYear date.year ≤ date.number ∧ date.number < daysBeforeYear (date.year + 1) := by
  obtain ⟨day_pos, day_le⟩ := date.day_bounds
  have month_le := daysBeforeMonth_mono date.year
    (show date.month + 1 ≤ 13 from Nat.succ_le_succ date.month_bounds.2)
  rw [daysBeforeYear_succ, number]
  omega

/-- The first day of the calendar is the first of its first year. -/
theorem isFirst_iff : date.isFirst ↔ date.number = daysBeforeYear firstYear := by
  have from_first : firstYear ≤ date.year := date.exists_day.1
  obtain ⟨day_pos, -⟩ := date.day_bounds
  obtain ⟨month_pos, -⟩ := date.month_bounds
  simp only [isFirst, Bool.and_eq_true, beq_iff_eq]
  constructor
  · rintro ⟨⟨year_eq, month_eq⟩, day_eq⟩
    have january : daysBeforeMonth firstYear 1 = 0 := rfl
    rw [number, year_eq, month_eq, day_eq, january]
    omega
  · intro first
    have year_eq : date.year = firstYear := by
      by_contra other
      have later := daysBeforeYear_mono (show firstYear + 1 ≤ date.year by omega)
      have from_year := date.number_bounds.1
      have days : daysBeforeYear firstYear < daysBeforeYear (firstYear + 1) := by decide
      omega
    rw [number, year_eq] at first
    have month_eq : date.month = 1 := by
      by_contra other
      have later := daysBeforeMonth_mono firstYear (show 2 ≤ date.month by omega)
      have january : daysBeforeMonth firstYear 2 = 31 := rfl
      omega
    exact ⟨⟨year_eq, month_eq⟩, by omega⟩

/-- The last day of the calendar is the last of its last year. -/
theorem isLast_iff : date.isLast ↔ date.number + 1 = daysBeforeYear (lastYear + 1) := by
  have to_last : date.year ≤ lastYear := date.exists_day.2.1
  obtain ⟨day_pos, day_le⟩ := date.day_bounds
  obtain ⟨-, month_le⟩ := date.month_bounds
  have december : daysBeforeMonth lastYear 13 = daysBeforeMonth lastYear 12 + 31 := rfl
  simp only [isLast, Bool.and_eq_true, beq_iff_eq]
  rw [daysBeforeYear_succ]
  constructor
  · rintro ⟨⟨year_eq, month_eq⟩, day_eq⟩
    rw [number, year_eq, month_eq, day_eq, december]
    omega
  · intro last
    have year_eq : date.year = lastYear := by
      by_contra other
      have earlier := daysBeforeYear_mono (show date.year + 1 ≤ lastYear by omega)
      have in_year := date.number_bounds.2
      omega
    rw [number, year_eq] at last
    rw [year_eq] at day_le
    have month_eq : date.month = 12 := by
      by_contra other
      have earlier := daysBeforeMonth_mono lastYear (show date.month + 1 ≤ 12 by omega)
      omega
    rw [month_eq] at last
    exact ⟨⟨year_eq, month_eq⟩, by omega⟩

/-- A date lies in the calendar. -/
theorem number_in_calendar :
    daysBeforeYear firstYear ≤ date.number ∧ date.number < daysBeforeYear (lastYear + 1) := by
  obtain ⟨year_ge, year_le, -⟩ := date.exists_day
  obtain ⟨from_year, in_year⟩ := date.number_bounds
  exact ⟨Int.le_trans (daysBeforeYear_mono year_ge) from_year,
    Int.lt_of_lt_of_le in_year (daysBeforeYear_mono (Int.add_le_add_right year_le 1))⟩

end Date

/-! ## Instants -/

/-- The seconds of universal time from the start of the year zero to a moment by a clock that is
ahead of universal time by `offset` seconds. -/
def Moment.instant (moment : Moment) (offset : Int) : Int :=
  Moment.secondsPerDay * moment.date.number + moment.clock.seconds - offset

/-- The instants from the start of the first year of the calendar to the end of its last one. -/
def CalendarHolds (instant : Int) : Prop :=
  Moment.secondsPerDay * Date.daysBeforeYear Date.firstYear ≤ instant ∧
    instant < Moment.secondsPerDay * Date.daysBeforeYear (Date.lastYear + 1)

theorem Clock.seconds_lt (clock : Clock) : clock.seconds < Moment.secondsPerDay := by
  have hour_lt := clock.hour.isLt
  have minute_lt := clock.minute.isLt
  have second_lt := clock.second.isLt
  unfold Clock.seconds Moment.secondsPerDay
  omega

/-- A moment lies within the calendar by universal time if its instant does, as no clock is a day
ahead or behind. -/
theorem Moment.inCalendar_iff {moment : Moment} {offset : Int}
    (less : offset.natAbs < Moment.secondsPerDay) :
    moment.InCalendar offset ↔ CalendarHolds (moment.instant offset) := by
  obtain ⟨number_ge, number_lt⟩ := moment.date.number_in_calendar
  have seconds_lt := moment.clock.seconds_lt
  unfold InCalendar CalendarHolds instant
  rw [Date.isFirst_iff, Date.isLast_iff]
  unfold secondsPerDay at *
  omega

end EntityQuery
