import Mathlib.Algebra.Ring.Int.Defs
import Mathlib.Algebra.Ring.Nat
import Mathlib.Tactic.Common
import Mathlib.Tactic.IntervalCases

/-!
# The Gregorian calendar

Dates of the calendar, the date after one, and the number of days since the
beginning of its first year.
-/

namespace NanoClr

namespace Gregorian

/-- The years with a twenty-ninth of February. -/
def IsLeapYear (year : Nat) : Prop :=
  year % 4 = 0 ∧ (year % 100 = 0 → year % 400 = 0)

instance (year : Nat) : Decidable (IsLeapYear year) :=
  inferInstanceAs (Decidable (_ ∧ _))

/-- The days of a year. -/
def yearLength (year : Nat) : Nat :=
  if IsLeapYear year then 366 else 365

/-- The days of a month. -/
def monthLength (year month : Nat) : Nat :=
  match month with
  | 2 => if IsLeapYear year then 29 else 28
  | 4 | 6 | 9 | 11 => 30
  | _ => 31

theorem one_le_monthLength (year month : Nat) : 1 ≤ monthLength year month := by
  unfold monthLength
  split <;> try decide
  split <;> decide

/-- A date of the calendar. -/
structure Date where
  year : Nat
  month : Nat
  day : Nat
  year_pos : 1 ≤ year
  month_pos : 1 ≤ month
  month_le : month ≤ 12
  day_pos : 1 ≤ day
  day_le : day ≤ monthLength year month

namespace Date

@[ext] theorem ext
    {date date' : Date}
    (year : date.year = date'.year)
    (month : date.month = date'.month)
    (day : date.day = date'.day) :
    date = date' := by
  cases date
  cases date'
  cases year
  cases month
  cases day
  rfl

/-- The first day of a year. -/
def newYear (year : Nat) (positive : 1 ≤ year) : Date where
  year := year
  month := 1
  day := 1
  year_pos := positive
  month_pos := Nat.le_refl 1
  month_le := by decide
  day_pos := Nat.le_refl 1
  day_le := by
    change 1 ≤ 31
    decide

/-- The date after one. -/
def next (date : Date) : Date :=
  if more : date.day < monthLength date.year date.month then
    { date with
      day := date.day + 1
      day_pos := Nat.succ_pos date.day
      day_le := more }
  else if later : date.month < 12 then
    { year := date.year
      month := date.month + 1
      day := 1
      year_pos := date.year_pos
      month_pos := Nat.succ_pos date.month
      month_le := later
      day_pos := Nat.le_refl 1
      day_le := one_le_monthLength date.year (date.month + 1) }
  else newYear (date.year + 1) (Nat.succ_pos date.year)

/-- Dates in their order. -/
def Before (date date' : Date) : Prop :=
  date.year < date'.year ∨
    (date.year = date'.year ∧
      (date.month < date'.month ∨
        (date.month = date'.month ∧ date.day < date'.day)))

end Date

/-! ## Counting days -/

/-- The days of all years before one. -/
def daysBeforeYear (year : Nat) : Nat :=
  365 * (year - 1) + (year - 1) / 4 - (year - 1) / 100 + (year - 1) / 400

/-- The days of a year before one of its months. -/
def daysBeforeMonth (year : Nat) : Nat → Nat
  | 0 | 1 => 0
  | month + 1 => daysBeforeMonth year month + monthLength year month

/-- How many multiples of a number there are up to the next one. -/
theorem div_succ_eq (year divisor : Nat) :
    (year + 1) / divisor =
      year / divisor + if (year + 1) % divisor = 0 then 1 else 0 := by
  rw [Nat.succ_div]
  simp only [Nat.dvd_iff_mod_eq_zero]

theorem daysBeforeYear_succ
    {year : Nat}
    (positive : 1 ≤ year) :
    daysBeforeYear (year + 1) = daysBeforeYear year + yearLength year := by
  obtain ⟨before, rfl⟩ := Nat.exists_eq_add_of_le' positive
  have fewer : before / 100 ≤ before := Nat.div_le_self before 100
  have fours := div_succ_eq before 4
  have hundreds := div_succ_eq before 100
  have fourHundreds := div_succ_eq before 400
  rw [daysBeforeYear, daysBeforeYear, yearLength, Nat.add_sub_cancel,
    Nat.add_sub_cancel, fours, hundreds, fourHundreds]
  by_cases leap : IsLeapYear (before + 1)
  · rw [if_pos leap, if_pos leap.1]
    by_cases century : (before + 1) % 100 = 0
    · rw [if_pos century, if_pos (leap.2 century)]
      omega
    · rw [if_neg century, if_neg (by omega)]
      omega
  · rw [if_neg leap]
    by_cases four : (before + 1) % 4 = 0
    · have century : (before + 1) % 100 = 0 ∧ (before + 1) % 400 ≠ 0 := by
        by_contra other
        exact leap ⟨four, fun century => by
          by_contra notLeap
          exact other ⟨century, notLeap⟩⟩
      rw [if_pos four, if_pos century.1, if_neg century.2]
      omega
    · rw [if_neg four, if_neg (by omega), if_neg (by omega)]
      omega

theorem daysBeforeMonth_succ
    {year month : Nat}
    (positive : 1 ≤ month) :
    daysBeforeMonth year (month + 1) =
      daysBeforeMonth year month + monthLength year month := by
  cases month with
  | zero => exact absurd positive (by decide)
  | succ month => rfl

/-- The months make up the year. -/
theorem daysBeforeMonth_year (year : Nat) :
    daysBeforeMonth year 13 = yearLength year := by
  simp only [daysBeforeMonth, monthLength, yearLength]
  split <;> rfl

theorem daysBeforeYear_le
    {year year' : Nat}
    (positive : 1 ≤ year)
    (before : year ≤ year') :
    daysBeforeYear year ≤ daysBeforeYear year' := by
  induction before with
  | refl => exact Nat.le_refl _
  | @step later before inductionHypothesis =>
      rw [Nat.succ_eq_add_one,
        daysBeforeYear_succ (Nat.le_trans positive before)]
      exact Nat.le_trans inductionHypothesis (Nat.le_add_right _ _)

theorem daysBeforeMonth_le
    {year month month' : Nat}
    (positive : 1 ≤ month)
    (before : month ≤ month') :
    daysBeforeMonth year month ≤ daysBeforeMonth year month' := by
  induction before with
  | refl => exact Nat.le_refl _
  | @step later before inductionHypothesis =>
      rw [Nat.succ_eq_add_one,
        daysBeforeMonth_succ (Nat.le_trans positive before)]
      exact Nat.le_trans inductionHypothesis (Nat.le_add_right _ _)

namespace Date

variable {date date' : Date}

/-- The days of the year before a date. -/
def dayOfYear (date : Date) : Nat :=
  daysBeforeMonth date.year date.month + (date.day - 1)

/-- The days before a date. -/
def dayNumber (date : Date) : Nat :=
  daysBeforeYear date.year + date.dayOfYear

theorem dayOfYear_lt (date : Date) :
    date.dayOfYear < yearLength date.year := by
  have months := @daysBeforeMonth_le date.year _ 13 (Nat.succ_pos _)
    (Nat.succ_le_succ date.month_le)
  rw [daysBeforeMonth_succ date.month_pos, daysBeforeMonth_year] at months
  have some_ := date.day_pos
  have most := date.day_le
  rw [dayOfYear]
  omega

/-- The number of the date after one. -/
theorem dayNumber_next (date : Date) :
    date.next.dayNumber = date.dayNumber + 1 := by
  have some_ := date.day_pos
  unfold next
  split
  case isTrue more =>
    change daysBeforeYear date.year +
      (daysBeforeMonth date.year date.month + (date.day + 1 - 1)) = _
    rw [dayNumber, dayOfYear]
    omega
  case isFalse noMore =>
    have isLast : date.day = monthLength date.year date.month :=
      Nat.le_antisymm date.day_le (Nat.not_lt.mp noMore)
    split
    case isTrue later =>
      change daysBeforeYear date.year +
        (daysBeforeMonth date.year (date.month + 1) + (1 - 1)) = _
      rw [daysBeforeMonth_succ date.month_pos, dayNumber, dayOfYear]
      omega
    case isFalse noLater =>
      have isDecember : date.month = 12 :=
        Nat.le_antisymm date.month_le (Nat.not_lt.mp noLater)
      have months := daysBeforeMonth_year date.year
      rw [daysBeforeMonth_succ (by decide), ← isDecember] at months
      change daysBeforeYear (date.year + 1) + (0 + (1 - 1)) = _
      rw [daysBeforeYear_succ date.year_pos, dayNumber, dayOfYear]
      omega

/-- The number tells the order of dates. -/
theorem dayNumber_lt_of_before
    (before : date.Before date') :
    date.dayNumber < date'.dayNumber := by
  have some_ := date.day_pos
  have most := date.day_le
  rcases before with year | ⟨sameYear, month | ⟨sameMonth, day⟩⟩
  · have years := @daysBeforeYear_le _ date'.year (Nat.succ_pos date.year) year
    have inYear := date.dayOfYear_lt
    rw [daysBeforeYear_succ date.year_pos] at years
    rw [dayNumber, dayNumber]
    omega
  · have months := @daysBeforeMonth_le date.year _ date'.month
      (Nat.succ_pos date.month) month
    rw [daysBeforeMonth_succ date.month_pos] at months
    rw [dayNumber, dayNumber, dayOfYear, dayOfYear, ← sameYear]
    omega
  · rw [dayNumber, dayNumber, dayOfYear, dayOfYear, ← sameYear, ← sameMonth]
    omega

/-- Every number is that of a date. -/
theorem exists_dayNumber (number : Nat) :
    ∃ date : Date, date.dayNumber = number := by
  induction number with
  | zero => exact ⟨newYear 1 (Nat.le_refl 1), rfl⟩
  | succ number inductionHypothesis =>
      obtain ⟨date, isNumber⟩ := inductionHypothesis
      exact ⟨date.next, isNumber ▸ date.dayNumber_next⟩

/-! ## Days of the week -/

/-- The day of the week, counted from Sunday; the calendar begins with a
Monday. -/
def dayOfWeek (date : Date) : Nat :=
  (date.dayNumber + 1) % 7

/-- The first of January 1970 was a Thursday. -/
example : (newYear 1970 (by decide)).dayOfWeek = 4 := by decide

end Date

end Gregorian

end NanoClr
