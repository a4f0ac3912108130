import NanoClr.Calendar.SystemTime

/-!
# The calendar of the system time

The conversions of the system time follow the Gregorian calendar, in the years
from 1601 to 3000.
-/

namespace NanoClr

namespace Calendar

open Gregorian

/-! ## Years and months -/

/-- The days before the year 1601. -/
def baseNumber : Nat := daysBeforeYear 1601

theorem baseNumber_eq : baseNumber = 584388 := by decide

theorem tdiv_eq {year divisor : Nat} (positive : 1 ≤ year) :
    ((year : Int) - 1).tdiv divisor = ((year - 1) / divisor : Nat) := by
  obtain ⟨before, rfl⟩ := Nat.exists_eq_add_of_le' positive
  rw [Nat.add_sub_cancel, Int.natCast_add, Int.natCast_one,
    Int.add_sub_cancel]
  rfl

theorem yearsToDays_eq
    {year : Nat}
    (positive : 1 ≤ year) :
    YEARS_TO_DAYS year = (daysBeforeYear year : Int) - baseNumber := by
  have fours : ((year : Int) - 1).tdiv 4 = ((year - 1) / 4 : Nat) :=
    tdiv_eq positive
  have hundreds : ((year : Int) - 1).tdiv 100 = ((year - 1) / 100 : Nat) :=
    tdiv_eq positive
  have fourHundreds :
      ((year : Int) - 1).tdiv 400 = ((year - 1) / 400 : Nat) :=
    tdiv_eq positive
  have fewer : (year - 1) / 100 ≤ year - 1 := Nat.div_le_self _ _
  rw [YEARS_TO_DAYS, NUMBER_OF_YEARS, NUMBER_OF_LEAP_YEARS, baseNumber_eq,
    daysBeforeYear]
  rw [fours, hundreds, fourHundreds, BASE_YEAR, BASE_YEAR_LEAPYEAR_ADJUST,
    DAYS_IN_NORMAL_YEAR]
  omega

theorem isLeapYear_eq (year : Nat) :
    IS_LEAP_YEAR year = decide (IsLeapYear year) := by
  have zero (divisor : Nat) :
      (year : Int).tmod divisor = 0 ↔ year % divisor = 0 := by
    rw [← Int.ofNat_tmod]
    exact Int.natCast_eq_zero
  have fours : (year : Int).tmod 4 = 0 ↔ year % 4 = 0 := zero 4
  have hundreds : (year : Int).tmod 100 = 0 ↔ year % 100 = 0 := zero 100
  have fourHundreds : (year : Int).tmod 400 = 0 ↔ year % 400 = 0 := zero 400
  rw [IS_LEAP_YEAR, Bool.eq_iff_iff]
  simp only [Bool.or_eq_true, Bool.and_eq_true, decide_eq_true_eq, ne_eq,
    fours, hundreds, fourHundreds]
  unfold IsLeapYear
  omega

theorem monthToDays_eq
    {year month : Nat}
    (positive : 1 ≤ month)
    (atMost : month ≤ 13) :
    MONTH_TO_DAYS year month = daysBeforeMonth year month := by
  rw [MONTH_TO_DAYS, isLeapYear_eq]
  by_cases leap : IsLeapYear year
  · interval_cases month <;>
      simp [cummulativeDaysForMonth, daysBeforeMonth, monthLength, leap]
  · interval_cases month <;>
      simp [cummulativeDaysForMonth, daysBeforeMonth, monthLength, leap]

/-! ## The guesses -/

section Guesses

variable {date : Date}

theorem toUInt32_natCast {days : Nat} (fits : days < 2 ^ 32) :
    toUInt32 days = days := by
  rw [toUInt32]
  omega

theorem subtractDays_eq
    {time days : Nat}
    (fits : time < 2 ^ 64)
    (within : days ≤ time) :
    subtractDays time days = time - days := by
  rw [subtractDays]
  omega

theorem toNat_ofNat_small {value : Nat} (fits : value < 2 ^ 16) :
    (UInt16.ofNat value).toNat = value :=
  UInt16.toNat_ofNat_of_lt' fits

/-- The year by 365 days is the year or the one after it. -/
theorem yearGuess
    (since : 1601 ≤ date.year)
    (upTo : date.year ≤ 3100) :
    baseNumber ≤ daysBeforeYear date.year ∧
      ((date.dayNumber - baseNumber) / 365 + 1601 = date.year ∨
        (date.dayNumber - baseNumber) / 365 + 1601 = date.year + 1) := by
  have inYear := date.dayOfYear_lt
  have atMost : yearLength date.year ≤ 366 := by
    unfold yearLength
    split <;> decide
  have begins : baseNumber ≤ daysBeforeYear date.year :=
    daysBeforeYear_le (by decide) since
  refine ⟨begins, ?_⟩
  rw [baseNumber_eq] at begins ⊢
  rw [Date.dayNumber]
  rw [daysBeforeYear] at begins ⊢
  omega

theorem daysBeforeYear_lt
    {year : Nat}
    (upTo : year ≤ 3101) :
    daysBeforeYear year < 2 ^ 32 := by
  rw [daysBeforeYear]
  omega

theorem toUInt32_yearsToDays
    {year : Nat}
    (since : 1601 ≤ year)
    (upTo : year ≤ 3101) :
    toUInt32 (YEARS_TO_DAYS year) = daysBeforeYear year - baseNumber := by
  have before := @daysBeforeYear_le 1601 year (by decide) since
  have fits := daysBeforeYear_lt upTo
  rw [yearsToDays_eq (by omega), baseNumber, toUInt32]
  omega

theorem yearOf_dayNumber
    (since : 1601 ≤ date.year)
    (upTo : date.year ≤ 3100) :
    yearOf (date.dayNumber - baseNumber) = .ofNat date.year := by
  obtain ⟨begins, guess⟩ := yearGuess since upTo
  have inYear := date.dayOfYear_lt
  have nextYear := daysBeforeYear_succ date.year_pos
  have number : date.dayNumber = daysBeforeYear date.year + date.dayOfYear :=
    rfl
  have base : BASE_YEAR.toNat = 1601 := rfl
  unfold yearOf
  rw [DAYS_IN_NORMAL_YEAR, base]
  dsimp only
  rcases guess with exactly | tooLate
  · rw [exactly, toNat_ofNat_small (by omega),
      toUInt32_yearsToDays since (by omega), if_neg (by omega)]
  · rw [tooLate, toNat_ofNat_small (by omega),
      toUInt32_yearsToDays (by omega) (by omega), if_pos (by omega)]
    rw [UInt16.ofNat_add]
    exact UInt16.add_sub_cancel _ _

/-- The month by 31 days is the month or the one before it. -/
theorem monthGuess (date : Date) :
    date.dayOfYear / 31 + 1 = date.month ∨
      date.dayOfYear / 31 + 1 + 1 = date.month := by
  have some_ := date.day_pos
  have most := date.day_le
  have positive := date.month_pos
  have atMost := date.month_le
  rw [Date.dayOfYear]
  generalize date.month = month at *
  by_cases leap : IsLeapYear date.year
  · interval_cases month <;>
      simp only [daysBeforeMonth, monthLength, leap, if_true] at most ⊢ <;>
      omega
  · interval_cases month <;>
      simp only [daysBeforeMonth, monthLength, leap, if_false] at most ⊢ <;>
      omega

theorem daysBeforeMonth_lt
    {year month : Nat}
    (positive : 1 ≤ month)
    (atMost : month ≤ 13) :
    daysBeforeMonth year month < 2 ^ 32 := by
  have months := @daysBeforeMonth_le year _ 13 positive atMost
  have whole : yearLength year < 2 ^ 32 := by
    unfold yearLength
    split <;> decide
  rw [daysBeforeMonth_year] at months
  exact Nat.lt_of_le_of_lt months whole

theorem toUInt32_monthToDays
    {year month : Nat}
    (positive : 1 ≤ month)
    (atMost : month ≤ 13) :
    toUInt32 (MONTH_TO_DAYS year month) = daysBeforeMonth year month := by
  rw [monthToDays_eq positive atMost,
    toUInt32_natCast (daysBeforeMonth_lt positive atMost)]

theorem monthOf_dayOfYear
    (fits : date.year < 2 ^ 16) :
    monthOf (.ofNat date.year) date.dayOfYear = .ofNat date.month := by
  have positive := date.month_pos
  have atMost := date.month_le
  have some_ := date.day_pos
  have most := date.day_le
  have nextMonth := @daysBeforeMonth_succ date.year date.month positive
  have day : date.dayOfYear =
      daysBeforeMonth date.year date.month + (date.day - 1) := rfl
  unfold monthOf
  dsimp only
  rw [toNat_ofNat_small fits]
  rcases monthGuess date with exactly | tooEarly
  · have ends : toUInt32 (MONTH_TO_DAYS date.year ((date.month : Int) + 1)) =
        daysBeforeMonth date.year (date.month + 1) :=
      @toUInt32_monthToDays date.year (date.month + 1) (by omega) (by omega)
    rw [exactly, toNat_ofNat_small (by omega), ends, if_neg (by omega)]
  · have begins : toUInt32 (MONTH_TO_DAYS date.year
        (((date.dayOfYear / 31 + 1 : Nat) : Int) + 1)) =
          daysBeforeMonth date.year date.month := by
      rw [← tooEarly]
      exact @toUInt32_monthToDays date.year (date.dayOfYear / 31 + 1 + 1)
        (by omega) (by omega)
    rw [toNat_ofNat_small (by omega), begins, if_pos (by omega), ← tooEarly,
      UInt16.ofNat_add (date.dayOfYear / 31 + 1)]
    rfl

end Guesses

/-! ## Dates and times -/

/-- A date with a time of day. -/
structure DateAndTime where
  date : Date
  hour : Nat
  minute : Nat
  second : Nat
  millisecond : Nat
  hour_lt : hour < 24
  minute_lt : minute < 60
  second_lt : second < 60
  millisecond_lt : millisecond < 1000

namespace DateAndTime

variable {time time' : DateAndTime}

/-- The fields that show a date and time. -/
def systemTime (time : DateAndTime) : SYSTEMTIME where
  wYear := .ofNat time.date.year
  wMonth := .ofNat time.date.month
  wDayOfWeek := .ofNat time.date.dayOfWeek
  wDay := .ofNat time.date.day
  wHour := .ofNat time.hour
  wMinute := .ofNat time.minute
  wSecond := .ofNat time.second
  wMilliseconds := .ofNat time.millisecond

/-- The milliseconds of the day. -/
def timeOfDay (time : DateAndTime) : Nat :=
  ((time.hour * 60 + time.minute) * 60 + time.second) * 1000 +
    time.millisecond

/-- The milliseconds since the beginning of the year 1601. -/
def milliseconds (time : DateAndTime) : Nat :=
  (time.date.dayNumber - baseNumber) * 86400000 + time.timeOfDay

theorem timeOfDay_lt (time : DateAndTime) : time.timeOfDay < 86400000 := by
  have hour := time.hour_lt
  have minute := time.minute_lt
  have second := time.second_lt
  have millisecond := time.millisecond_lt
  rw [timeOfDay]
  omega

/-- The date and time of some ticks. -/
theorem toSystemTime_eq
    {ticks : UInt64}
    (since : 1601 ≤ time.date.year)
    (upTo : time.date.year ≤ 3100)
    (isTime : ticks.toNat / 10000 = time.milliseconds) :
    HAL_Time_ToSystemTime ticks = time.systemTime := by
  have inDay := time.timeOfDay_lt
  have hour := time.hour_lt
  have minute := time.minute_lt
  have second := time.second_lt
  have millisecond := time.millisecond_lt
  have isDay : ticks.toNat / 10000 / 1000 / 60 / 60 / 24 =
      time.date.dayNumber - baseNumber := by
    rw [isTime, milliseconds, timeOfDay]
    omega
  have isHour : ticks.toNat / 10000 / 1000 / 60 / 60 % 24 = time.hour := by
    rw [isTime, milliseconds, timeOfDay]
    omega
  have isMinute : ticks.toNat / 10000 / 1000 / 60 % 60 = time.minute := by
    rw [isTime, milliseconds, timeOfDay]
    omega
  have isSecond : ticks.toNat / 10000 / 1000 % 60 = time.second := by
    rw [isTime, milliseconds, timeOfDay]
    omega
  have isMillisecond : ticks.toNat / 10000 % 1000 = time.millisecond := by
    rw [isTime, milliseconds, timeOfDay]
    omega
  unfold HAL_Time_ToSystemTime
  dsimp only [TIMEUNIT_TO_MILLISECONDS, MILLISECONDS_TO_SECONDS,
    SECONDS_TO_MINUTES, MINUTES_TO_HOUR, HOURS_TO_DAY]
  have some_ := time.date.day_pos
  have most := time.date.day_le
  have number : time.date.dayNumber =
      daysBeforeYear time.date.year + time.date.dayOfYear := rfl
  have day : time.date.dayOfYear =
      daysBeforeMonth time.date.year time.date.month + (time.date.day - 1) :=
    rfl
  have fits := daysBeforeYear_lt (Nat.le_succ_of_le upTo)
  have begins := (yearGuess since upTo).1
  have inYear := time.date.dayOfYear_lt
  have monthFits := time.date.month_le
  have shortYear : yearLength time.date.year ≤ 366 := by
    unfold yearLength
    split <;> decide
  have isDayOfYear : subtractDays (time.date.dayNumber - baseNumber)
      (daysBeforeYear time.date.year - baseNumber) = time.date.dayOfYear := by
    rw [subtractDays_eq (by omega) (by omega)]
    omega
  have isDayOfMonth : subtractDays time.date.dayOfYear
      (daysBeforeMonth time.date.year time.date.month) + 1 =
        time.date.day := by
    rw [subtractDays_eq (by omega) (by omega)]
    omega
  rw [isDay, yearOf_dayNumber since upTo, toNat_ofNat_small (by omega),
    toUInt32_yearsToDays since (by omega), isDayOfYear,
    monthOf_dayOfYear (by omega), toNat_ofNat_small (by omega),
    toUInt32_monthToDays time.date.month_pos (by omega), isDayOfMonth]
  have isDayOfWeek : (time.date.dayNumber - baseNumber +
      BASE_YEAR_DAYOFWEEK_SHIFT) % 7 = time.date.dayOfWeek := by
    rw [baseNumber_eq, Date.dayOfWeek, BASE_YEAR_DAYOFWEEK_SHIFT]
    rw [baseNumber_eq] at begins
    omega
  rw [isDayOfWeek, isHour, isMinute, isSecond, isMillisecond]
  rfl

end DateAndTime

/-! ## Ticks -/

/-- The days since the beginning of the year 1601 to a day, which need not be
in the month. -/
def daysSinceBase (year month day : Nat) : Nat :=
  daysBeforeYear year - baseNumber + daysBeforeMonth year month + (day - 1)

theorem daysSinceBase_lt
    {year month day : Nat}
    (upTo : year ≤ 3100)
    (monthPositive : 1 ≤ month)
    (monthAtMost : month ≤ 12)
    (dayFits : day < 2 ^ 16) :
    daysSinceBase year month day < 2 ^ 20 := by
  have months := @daysBeforeMonth_le year _ 13 monthPositive (by omega)
  have whole : yearLength year ≤ 366 := by
    unfold yearLength
    split <;> decide
  rw [daysBeforeMonth_year] at months
  rw [daysSinceBase, baseNumber_eq, daysBeforeYear]
  omega

theorem toUInt64_toNat {days : Nat} (fits : days < 2 ^ 64) :
    (toUInt64 days).toNat = days := by
  have same : ((days : Int) % 2 ^ 64).toNat = days := by omega
  rw [toUInt64, same]
  exact UInt64.toNat_ofNat_of_lt' fits

/-- A step from a unit of time to a smaller one. -/
theorem scaled_toNat
    {r : UInt64}
    {factor most : Nat}
    {value : UInt16}
    (factorFits : factor < 2 ^ 64)
    (below : r.toNat < most)
    (fits : most * factor + 2 ^ 16 ≤ 2 ^ 64) :
    (r * .ofNat factor + value.toUInt64).toNat =
      r.toNat * factor + value.toNat := by
  have small := value.toNat_lt
  have same : (UInt64.ofNat factor).toNat = factor :=
    UInt64.toNat_ofNat_of_lt' factorFits
  have product : r.toNat * factor ≤ most * factor :=
    Nat.mul_le_mul_right factor (Nat.le_of_lt below)
  rw [UInt64.toNat_add, UInt64.toNat_mul, same, UInt16.toNat_toUInt64,
    Nat.mod_eq_of_lt (show r.toNat * factor < 2 ^ 64 by omega),
    Nat.mod_eq_of_lt (by omega)]

/-- The ticks of some fields. -/
theorem convertFromSystemTime_toNat
    {systemTime : SYSTEMTIME}
    (since : 1601 ≤ systemTime.wYear.toNat)
    (upTo : systemTime.wYear.toNat ≤ 3100)
    (monthPositive : 1 ≤ systemTime.wMonth.toNat)
    (monthAtMost : systemTime.wMonth.toNat ≤ 12)
    (dayPositive : 1 ≤ systemTime.wDay.toNat) :
    (HAL_Time_ConvertFromSystemTime systemTime).toNat =
      ((((daysSinceBase systemTime.wYear.toNat systemTime.wMonth.toNat
          systemTime.wDay.toNat * 24 + systemTime.wHour.toNat) * 60 +
            systemTime.wMinute.toNat) * 60 + systemTime.wSecond.toNat) *
              1000 + systemTime.wMilliseconds.toNat) * 10000 := by
  have few := daysSinceBase_lt upTo monthPositive monthAtMost
    systemTime.wDay.toNat_lt
  have begins : baseNumber ≤ daysBeforeYear systemTime.wYear.toNat :=
    daysBeforeYear_le (by decide) since
  have isDays : YEARS_TO_DAYS systemTime.wYear.toNat +
      MONTH_TO_DAYS systemTime.wYear.toNat systemTime.wMonth.toNat +
        systemTime.wDay.toNat - 1 =
      (daysSinceBase systemTime.wYear.toNat systemTime.wMonth.toNat
        systemTime.wDay.toNat : Nat) := by
    rw [yearsToDays_eq (by omega), monthToDays_eq monthPositive (by omega),
      daysSinceBase]
    omega
  unfold HAL_Time_ConvertFromSystemTime
  dsimp only [HOURS_TO_DAY, MINUTES_TO_HOUR, SECONDS_TO_MINUTES,
    MILLISECONDS_TO_SECONDS, TIMEUNIT_TO_MILLISECONDS]
  rw [isDays]
  generalize daysSinceBase systemTime.wYear.toNat systemTime.wMonth.toNat
    systemTime.wDay.toNat = days at few
  have isCount : (toUInt64 (days : Nat)).toNat = days :=
    toUInt64_toNat (by omega)
  have hourFits := systemTime.wHour.toNat_lt
  have minuteFits := systemTime.wMinute.toNat_lt
  have secondFits := systemTime.wSecond.toNat_lt
  have millisecondFits := systemTime.wMilliseconds.toNat_lt
  have isHours := @scaled_toNat (toUInt64 (days : Nat)) 24 (2 ^ 20)
    systemTime.wHour (by decide) (isCount.symm ▸ few) (by decide)
  generalize toUInt64 (days : Nat) * .ofNat 24 + systemTime.wHour.toUInt64 =
    hours at isHours
  have isMinutes := @scaled_toNat hours 60 (2 ^ 25) systemTime.wMinute
    (by decide) (by omega) (by decide)
  generalize hours * .ofNat 60 + systemTime.wMinute.toUInt64 = minutes
    at isMinutes
  have isSeconds := @scaled_toNat minutes 60 (2 ^ 31) systemTime.wSecond
    (by decide) (by omega) (by decide)
  generalize minutes * .ofNat 60 + systemTime.wSecond.toUInt64 = seconds
    at isSeconds
  have isMilliseconds := @scaled_toNat seconds 1000 (2 ^ 37)
    systemTime.wMilliseconds (by decide) (by omega) (by decide)
  have unit : (UInt64.ofNat 10000).toNat = 10000 := rfl
  rw [UInt64.toNat_mul, isMilliseconds, isSeconds, isMinutes, isHours, isCount,
    unit]
  omega

/-! ## There and back -/

namespace DateAndTime

variable {time time' : DateAndTime}

/-- The years that the system time serves. -/
def Supported (time : DateAndTime) : Prop :=
  1601 ≤ time.date.year ∧ time.date.year ≤ 3000

/-- The ticks of a date and time, whatever day of the week is given. -/
def ticks (time : DateAndTime) (wDayOfWeek : UInt16) : UInt64 :=
  HAL_Time_ConvertFromSystemTime { time.systemTime with wDayOfWeek }

theorem daysSinceBase_date
    (date : Date)
    (since : 1601 ≤ date.year) :
    daysSinceBase date.year date.month date.day =
      date.dayNumber - baseNumber := by
  have begins : baseNumber ≤ daysBeforeYear date.year :=
    daysBeforeYear_le (by decide) since
  rw [daysSinceBase, Date.dayNumber, Date.dayOfYear]
  omega

theorem day_le (date : Date) : date.day ≤ 31 := by
  have month : monthLength date.year date.month ≤ 31 := by
    unfold monthLength
    split <;> try decide
    split <;> decide
  exact Nat.le_trans date.day_le month

theorem day_lt (date : Date) : date.day < 2 ^ 16 :=
  Nat.lt_of_le_of_lt (day_le date) (by decide)

theorem ticks_toNat
    {wDayOfWeek : UInt16}
    (supported : time.Supported) :
    (time.ticks wDayOfWeek).toNat = time.milliseconds * 10000 := by
  obtain ⟨since, upTo⟩ := supported
  have monthAtMost := time.date.month_le
  have dayFits := day_lt time.date
  have hourAtMost := time.hour_lt
  have minuteAtMost := time.minute_lt
  have secondAtMost := time.second_lt
  have millisecondAtMost := time.millisecond_lt
  have year : (UInt16.ofNat time.date.year).toNat = time.date.year :=
    toNat_ofNat_small (by omega)
  have month : (UInt16.ofNat time.date.month).toNat = time.date.month :=
    toNat_ofNat_small (by omega)
  have day : (UInt16.ofNat time.date.day).toNat = time.date.day :=
    toNat_ofNat_small dayFits
  have hour : (UInt16.ofNat time.hour).toNat = time.hour :=
    toNat_ofNat_small (by omega)
  have minute : (UInt16.ofNat time.minute).toNat = time.minute :=
    toNat_ofNat_small (by omega)
  have second : (UInt16.ofNat time.second).toNat = time.second :=
    toNat_ofNat_small (by omega)
  have millisecond :
      (UInt16.ofNat time.millisecond).toNat = time.millisecond :=
    toNat_ofNat_small (by omega)
  have converted := @convertFromSystemTime_toNat
    { time.systemTime with wDayOfWeek }
  dsimp only [systemTime] at converted
  rw [year, month, day, hour, minute, second, millisecond,
    daysSinceBase_date time.date since] at converted
  refine (converted since (by omega) time.date.month_pos monthAtMost
    time.date.day_pos).trans ?_
  rw [milliseconds, timeOfDay]
  omega

/-- Any milliseconds before some year are those of a date and time. -/
theorem exists_milliseconds
    {milliseconds endYear : Nat}
    (positive : 1 ≤ endYear)
    (upTo : milliseconds <
      (daysBeforeYear endYear - baseNumber) * 86400000) :
    ∃ time : DateAndTime, 1601 ≤ time.date.year ∧
      time.date.year < endYear ∧ time.milliseconds = milliseconds := by
  obtain ⟨date, isNumber⟩ :=
    Date.exists_dayNumber (milliseconds / 86400000 + baseNumber)
  have number : date.dayNumber =
      daysBeforeYear date.year + date.dayOfYear := rfl
  have since : 1601 ≤ date.year := by
    by_contra earlier
    have years := @daysBeforeYear_le (date.year + 1) 1601 (Nat.succ_pos _)
      (by omega)
    have inYear := date.dayOfYear_lt
    rw [daysBeforeYear_succ date.year_pos] at years
    rw [baseNumber] at isNumber
    omega
  have atMost : date.year < endYear := by
    by_contra later
    have years := @daysBeforeYear_le endYear date.year positive
      (Nat.not_lt.mp later)
    omega
  refine ⟨⟨date, milliseconds / 3600000 % 24, milliseconds / 60000 % 60,
    milliseconds / 1000 % 60, milliseconds % 1000, Nat.mod_lt _ (by decide),
    Nat.mod_lt _ (by decide), Nat.mod_lt _ (by decide),
    Nat.mod_lt _ (by decide)⟩, since, atMost, ?_⟩
  rw [DateAndTime.milliseconds, timeOfDay]
  dsimp only
  rw [isNumber]
  omega

/-- Dates and times in their order. -/
def Before (time time' : DateAndTime) : Prop :=
  time.date.Before time'.date ∨ (time.date = time'.date ∧
    (time.hour < time'.hour ∨ (time.hour = time'.hour ∧
      (time.minute < time'.minute ∨ (time.minute = time'.minute ∧
        (time.second < time'.second ∨ (time.second = time'.second ∧
          time.millisecond < time'.millisecond)))))))

theorem milliseconds_lt
    (supported : time.Supported)
    (before : time.Before time') :
    time.milliseconds < time'.milliseconds := by
  have begins : baseNumber ≤ daysBeforeYear time.date.year :=
    daysBeforeYear_le (by decide) supported.1
  have inDay := time.timeOfDay_lt
  have number : time.date.dayNumber =
      daysBeforeYear time.date.year + time.date.dayOfYear := rfl
  rcases before with date | ⟨sameDate, timeOfDay⟩
  · have numbers := Date.dayNumber_lt_of_before date
    rw [milliseconds, milliseconds]
    omega
  · have minute := time.minute_lt
    have second := time.second_lt
    have millisecond := time.millisecond_lt
    have earlier : time.timeOfDay < time'.timeOfDay := by
      rw [DateAndTime.timeOfDay, DateAndTime.timeOfDay]
      omega
    rw [milliseconds, milliseconds, sameDate]
    omega

end DateAndTime

/-- The first ticks of the year 3001. -/
def endOfCalendar : Nat :=
  (daysBeforeYear 3001 - baseNumber) * 86400000 * 10000

/-- Both conversions undo each other, and keep the order of the calendar. -/
theorem systemTime_roundTrip :
    (∀ time : DateAndTime, time.Supported → ∀ wDayOfWeek,
      HAL_Time_ToSystemTime (time.ticks wDayOfWeek) = time.systemTime) ∧
    (∀ ticks : UInt64, ticks.toNat < endOfCalendar →
      (HAL_Time_ConvertFromSystemTime (HAL_Time_ToSystemTime ticks)).toNat =
        ticks.toNat / 10000 * 10000) ∧
    ∀ time time' : DateAndTime, time.Supported → time'.Supported →
      time.Before time' → ∀ wDayOfWeek wDayOfWeek',
        time.ticks wDayOfWeek < time'.ticks wDayOfWeek' := by
  refine ⟨?_, ?_, ?_⟩
  · intro time supported wDayOfWeek
    apply DateAndTime.toSystemTime_eq supported.1
      (Nat.le_trans supported.2 (by decide))
    rw [DateAndTime.ticks_toNat supported, Nat.mul_div_cancel _ (by decide)]
  · intro ticks upTo
    have inCalendar : ticks.toNat / 10000 <
        (daysBeforeYear 3001 - baseNumber) * 86400000 :=
      (Nat.div_lt_iff_lt_mul (by decide)).mpr upTo
    obtain ⟨time, since, before, isTime⟩ :=
      DateAndTime.exists_milliseconds (by decide) inCalendar
    have supported : time.Supported := ⟨since, Nat.le_of_lt_succ before⟩
    rw [DateAndTime.toSystemTime_eq since (by omega) isTime.symm, ← isTime]
    have converted := @DateAndTime.ticks_toNat time
      time.systemTime.wDayOfWeek supported
    rw [DateAndTime.ticks] at converted
    exact converted
  · intro time time' supported supported' before wDayOfWeek wDayOfWeek'
    have earlier := DateAndTime.milliseconds_lt supported before
    rw [UInt64.lt_iff_toNat_lt, DateAndTime.ticks_toNat supported,
      DateAndTime.ticks_toNat supported']
    omega

/-- The last millisecond of the last day of February 2000. -/
def leapDay : DateAndTime where
  date := ⟨2000, 2, 29, by decide, by decide, by decide, by decide, by decide⟩
  hour := 23
  minute := 59
  second := 59
  millisecond := 999
  hour_lt := by decide
  minute_lt := by decide
  second_lt := by decide
  millisecond_lt := by decide

theorem systemTime_roundTrip_leapDay :
    HAL_Time_ToSystemTime (leapDay.ticks 0) = leapDay.systemTime :=
  systemTime_roundTrip.1 leapDay ⟨by decide, by decide⟩ 0

end Calendar

end NanoClr
