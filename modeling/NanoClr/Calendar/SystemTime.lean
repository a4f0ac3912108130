import NanoClr.Library.GregorianCalendar

/-!
# System time

A point in time is counted in units of 100 nanoseconds from the beginning of
the year 1601, and converted from and to a date with a time of day.
-/

set_option linter.style.nameCheck false

namespace NanoClr

namespace Calendar

/-- A date and a time of the day, field by field. -/
structure SYSTEMTIME where
  wYear : UInt16
  wMonth : UInt16
  wDayOfWeek : UInt16
  wDay : UInt16
  wHour : UInt16
  wMinute : UInt16
  wSecond : UInt16
  wMilliseconds : UInt16
deriving DecidableEq

/-- The year in which the ticks start. -/
def BASE_YEAR : Int := 1601

/-- The leap years before the first year. -/
def BASE_YEAR_LEAPYEAR_ADJUST : Int := 388

/-- The days of a year that is no leap year. -/
def DAYS_IN_NORMAL_YEAR : Nat := 365

/-- The day of the week of the first day. -/
def BASE_YEAR_DAYOFWEEK_SHIFT : Nat := 1

/-- `CummulativeDaysForMonth`; behind the table there is nothing to read. -/
def cummulativeDaysForMonth (index : Int) : Int :=
  [0, 31, 59, 90, 120, 151, 181, 212, 243, 273, 304, 334, 365].getD
    index.toNat 0

/-- The macro `IS_LEAP_YEAR`. -/
def IS_LEAP_YEAR (y : Int) : Bool :=
  (y.tmod 4 = 0 && y.tmod 100 ≠ 0) || y.tmod 400 = 0

/-- The leap years from the first year to a year. -/
def NUMBER_OF_LEAP_YEARS (y : Int) : Int :=
  ((y - 1).tdiv 4 - (y - 1).tdiv 100 + (y - 1).tdiv 400) -
    BASE_YEAR_LEAPYEAR_ADJUST

/-- The years from the first year to a year. -/
def NUMBER_OF_YEARS (y : Int) : Int :=
  y - BASE_YEAR

/-- The days from the first year to a year. -/
def YEARS_TO_DAYS (y : Int) : Int :=
  NUMBER_OF_YEARS y * DAYS_IN_NORMAL_YEAR + NUMBER_OF_LEAP_YEARS y

/-- The days of a year in front of a month. -/
def MONTH_TO_DAYS (y m : Int) : Int :=
  cummulativeDaysForMonth (m - 1) +
    if IS_LEAP_YEAR y && decide (2 < m) then 1 else 0

/-- The ticks of a millisecond. -/
def TIMEUNIT_TO_MILLISECONDS : Nat := 10000

/-- The milliseconds of a second. -/
def MILLISECONDS_TO_SECONDS : Nat := 1000

/-- The seconds of a minute. -/
def SECONDS_TO_MINUTES : Nat := 60

/-- The minutes of an hour. -/
def MINUTES_TO_HOUR : Nat := 60

/-- The hours of a day. -/
def HOURS_TO_DAY : Nat := 24

/-- A number of days as it is stored in a word of 64 bits. -/
def toUInt64 (days : Int) : UInt64 :=
  .ofNat (days % 2 ^ 64).toNat

/-- A number of days as it is stored in a word of 32 bits. -/
def toUInt32 (days : Int) : Nat :=
  (days % 2 ^ 32).toNat

/-- `HAL_Time_ConvertFromSystemTime`: the ticks of a date. -/
def HAL_Time_ConvertFromSystemTime (systemTime : SYSTEMTIME) : UInt64 :=
  let r := toUInt64 (YEARS_TO_DAYS systemTime.wYear.toNat +
    MONTH_TO_DAYS systemTime.wYear.toNat systemTime.wMonth.toNat +
      systemTime.wDay.toNat - 1)
  ((((r * .ofNat HOURS_TO_DAY + systemTime.wHour.toUInt64) *
      .ofNat MINUTES_TO_HOUR + systemTime.wMinute.toUInt64) *
        .ofNat SECONDS_TO_MINUTES + systemTime.wSecond.toUInt64) *
          .ofNat MILLISECONDS_TO_SECONDS +
            systemTime.wMilliseconds.toUInt64) *
              .ofNat TIMEUNIT_TO_MILLISECONDS

/-- The year of a day, as it is guessed and then corrected. -/
def yearOf (time : Nat) : UInt16 :=
  let wYear := UInt16.ofNat (time / DAYS_IN_NORMAL_YEAR + BASE_YEAR.toNat)
  if time < toUInt32 (YEARS_TO_DAYS wYear.toNat) then wYear - 1 else wYear

/-- The month of a day of a year, as it is guessed and then corrected. -/
def monthOf (wYear : UInt16) (time : Nat) : UInt16 :=
  let wMonth := UInt16.ofNat (time / 31 + 1)
  if toUInt32 (MONTH_TO_DAYS wYear.toNat (wMonth.toNat + 1)) ≤ time then
    wMonth + 1
  else wMonth

/-- The subtraction of days from a time, in a word of 64 bits. -/
def subtractDays (time days : Nat) : Nat :=
  (time + (2 ^ 64 - days)) % 2 ^ 64

/-- `HAL_Time_ToSystemTime`: the date of some ticks, the year by an estimate
that is corrected at most once. -/
def HAL_Time_ToSystemTime (ticks : UInt64) : SYSTEMTIME :=
  let time := ticks.toNat / TIMEUNIT_TO_MILLISECONDS
  let wMilliseconds := UInt16.ofNat (time % MILLISECONDS_TO_SECONDS)
  let time := time / MILLISECONDS_TO_SECONDS
  let wSecond := UInt16.ofNat (time % SECONDS_TO_MINUTES)
  let time := time / SECONDS_TO_MINUTES
  let wMinute := UInt16.ofNat (time % MINUTES_TO_HOUR)
  let time := time / MINUTES_TO_HOUR
  let wHour := UInt16.ofNat (time % HOURS_TO_DAY)
  let time := time / HOURS_TO_DAY
  let wDayOfWeek := UInt16.ofNat ((time + BASE_YEAR_DAYOFWEEK_SHIFT) % 7)
  let wYear := yearOf time
  let time := subtractDays time (toUInt32 (YEARS_TO_DAYS wYear.toNat))
  let wMonth := monthOf wYear time
  let mtd := toUInt32 (MONTH_TO_DAYS wYear.toNat wMonth.toNat)
  let wDay := UInt16.ofNat (subtractDays time mtd + 1)
  { wYear, wMonth, wDayOfWeek, wDay, wHour, wMinute, wSecond, wMilliseconds }

end Calendar

end NanoClr
