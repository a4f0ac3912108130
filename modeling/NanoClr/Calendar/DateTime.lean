import NanoClr.Arrays.ArrayElements
import NanoClr.Calendar.CalendarRoundTrip

/-!
# Dates of managed code

The constructor of `DateTime` stores the ticks of its arguments; the properties
read the fields back from the ticks.
-/

set_option linter.style.nameCheck false

namespace NanoClr

namespace Calendar

open Arrays Gregorian

/-- The seven arguments of the constructor, or the properties of a value. -/
structure DateTimeFields where
  year : Int32
  month : Int32
  day : Int32
  hour : Int32
  minute : Int32
  second : Int32
  millisecond : Int32
deriving DecidableEq

/-- An argument as it is stored in a field of 16 bits. -/
def narrow (argument : Int32) : UInt16 :=
  .ofNat (argument.toInt % 2 ^ 16).toNat

/-- The fields that the constructor fills. -/
def DateTimeFields.st (arguments : DateTimeFields) : SYSTEMTIME where
  wYear := narrow arguments.year
  wMonth := narrow arguments.month
  wDayOfWeek := 0
  wDay := narrow arguments.day
  wHour := narrow arguments.hour
  wMinute := narrow arguments.minute
  wSecond := narrow arguments.second
  wMilliseconds := narrow arguments.millisecond

/-- The check of the constructor. -/
def outOfRange (st : SYSTEMTIME) : Bool :=
  (st.wYear < 1601 || 3000 < st.wYear) ||
    (st.wMonth < 1 || 12 < st.wMonth) || (st.wDay < 1 || 31 < st.wDay)

/-- `_ctor`, with the ticks that it stores. -/
def construct (arguments : DateTimeFields) : CallResult UInt64 :=
  if outOfRange arguments.st then .failed .CLR_E_OUT_OF_RANGE
  else .S_OK (HAL_Time_ConvertFromSystemTime arguments.st)

/-- `SetResult_I4` of a field. -/
def setResult_I4 (field : UInt16) : Int32 :=
  .ofNat field.toNat

/-- `get_Year`, `get_Month` and so on. -/
def properties (ticks : UInt64) : DateTimeFields :=
  let st := HAL_Time_ToSystemTime ticks
  { year := setResult_I4 st.wYear
    month := setResult_I4 st.wMonth
    day := setResult_I4 st.wDay
    hour := setResult_I4 st.wHour
    minute := setResult_I4 st.wMinute
    second := setResult_I4 st.wSecond
    millisecond := setResult_I4 st.wMilliseconds }

/-- The constructor raises, or the properties return its arguments. -/
def ReturnsArguments (arguments : DateTimeFields) : Prop :=
  construct arguments = .failed .CLR_E_OUT_OF_RANGE ∨
    ∃ ticks, construct arguments = .S_OK ticks ∧
      properties ticks = arguments

/-! ## Arguments that are a date and time -/

/-- The arguments that show a date and time. -/
def DateAndTime.fields (time : DateAndTime) : DateTimeFields where
  year := .ofNat time.date.year
  month := .ofNat time.date.month
  day := .ofNat time.date.day
  hour := .ofNat time.hour
  minute := .ofNat time.minute
  second := .ofNat time.second
  millisecond := .ofNat time.millisecond

/-- The arguments are a day of a month with a time of day. -/
def DateTimeFields.IsDateAndTime (arguments : DateTimeFields) : Prop :=
  ∃ time : DateAndTime, time.Supported ∧ time.fields = arguments

theorem narrow_ofNat {value : Nat} (fits : value < 2 ^ 16) :
    narrow (.ofNat value) = .ofNat value := by
  have same : (Int32.ofNat value).toInt = value :=
    Int32.toInt_ofNat_of_lt (by omega)
  rw [narrow, same]
  congr 1
  omega

theorem setResult_ofNat {value : Nat} (fits : value < 2 ^ 16) :
    setResult_I4 (.ofNat value) = .ofNat value := by
  rw [setResult_I4, toNat_ofNat_small fits]

/-- The check in numbers. -/
theorem outOfRange_eq_false_iff {st : SYSTEMTIME} :
    outOfRange st = false ↔
      1601 ≤ st.wYear.toNat ∧ st.wYear.toNat ≤ 3000 ∧
        1 ≤ st.wMonth.toNat ∧ st.wMonth.toNat ≤ 12 ∧
        1 ≤ st.wDay.toNat ∧ st.wDay.toNat ≤ 31 := by
  have year : (1601 : UInt16).toNat = 1601 := rfl
  have lastYear : (3000 : UInt16).toNat = 3000 := rfl
  have first : (1 : UInt16).toNat = 1 := rfl
  have lastMonth : (12 : UInt16).toNat = 12 := rfl
  have lastDay : (31 : UInt16).toNat = 31 := rfl
  simp only [outOfRange, Bool.or_eq_false_iff, decide_eq_false_iff_not,
    UInt16.lt_iff_toNat_lt, year, lastYear, first, lastMonth, lastDay]
  omega

section Arguments

variable {time : DateAndTime}

theorem st_fields (supported : time.date.year < 2 ^ 16) :
    time.fields.st = { time.systemTime with wDayOfWeek := 0 } := by
  have month := time.date.month_le
  have day := DateAndTime.day_lt time.date
  have hour := time.hour_lt
  have minute := time.minute_lt
  have second := time.second_lt
  have millisecond := time.millisecond_lt
  dsimp only [DateTimeFields.st, DateAndTime.fields, DateAndTime.systemTime]
  rw [narrow_ofNat supported, narrow_ofNat (by omega), narrow_ofNat day,
    narrow_ofNat (by omega), narrow_ofNat (by omega),
    narrow_ofNat (by omega), narrow_ofNat (by omega)]

theorem properties_eq
    {ticks : UInt64}
    (since : 1601 ≤ time.date.year)
    (upTo : time.date.year ≤ 3100)
    (isTime : ticks.toNat / 10000 = time.milliseconds) :
    properties ticks = time.fields := by
  have month := time.date.month_le
  have day := DateAndTime.day_lt time.date
  have hour := time.hour_lt
  have minute := time.minute_lt
  have second := time.second_lt
  have millisecond := time.millisecond_lt
  rw [properties, DateAndTime.toSystemTime_eq since upTo isTime]
  dsimp only [DateAndTime.fields, DateAndTime.systemTime]
  rw [setResult_ofNat (by omega), setResult_ofNat (by omega),
    setResult_ofNat day, setResult_ofNat (by omega),
    setResult_ofNat (by omega), setResult_ofNat (by omega),
    setResult_ofNat (by omega)]

/-- A date and time is stored and read back. -/
theorem construct_fields (supported : time.Supported) :
    construct time.fields = .S_OK (time.ticks 0) ∧
      properties (time.ticks 0) = time.fields := by
  obtain ⟨since, upTo⟩ := supported
  have monthAtMost := time.date.month_le
  have dayAtMost : time.date.day ≤ 31 := DateAndTime.day_le time.date
  constructor
  · have inRange : outOfRange time.fields.st = false := by
      rw [outOfRange_eq_false_iff, st_fields (by omega)]
      dsimp only [DateAndTime.systemTime]
      rw [toNat_ofNat_small (by omega), toNat_ofNat_small (by omega),
        toNat_ofNat_small (by omega)]
      exact ⟨since, upTo, time.date.month_pos, monthAtMost, time.date.day_pos,
        dayAtMost⟩
    rw [construct, inRange, if_neg Bool.false_ne_true, st_fields (by omega)]
    rfl
  · apply properties_eq since (by omega)
    rw [DateAndTime.ticks_toNat ⟨since, upTo⟩,
      Nat.mul_div_cancel _ (by decide)]

theorem daysSinceBase_le
    {year month day : Nat}
    (upTo : year ≤ 3000)
    (monthPositive : 1 ≤ month)
    (monthAtMost : month ≤ 12)
    (dayAtMost : day ≤ 31) :
    daysSinceBase year month day ≤ 511400 := by
  have months := @daysBeforeMonth_le year _ 13 monthPositive (by omega)
  have whole : yearLength year ≤ 366 := by
    unfold yearLength
    split <;> decide
  rw [daysBeforeMonth_year] at months
  rw [daysSinceBase, baseNumber_eq, daysBeforeYear]
  omega

/-- The ticks of arguments that pass the check belong to a year that is not
much later. -/
theorem exists_time_of_construct
    {arguments : DateTimeFields}
    (inRange : outOfRange arguments.st = false) :
    ∃ time : DateAndTime, 1601 ≤ time.date.year ∧ time.date.year ≤ 3100 ∧
      (HAL_Time_ConvertFromSystemTime arguments.st).toNat / 10000 =
        time.milliseconds := by
  obtain ⟨since, upTo, monthPositive, monthAtMost, dayPositive, dayAtMost⟩ :=
    outOfRange_eq_false_iff.mp inRange
  have few := daysSinceBase_le upTo monthPositive monthAtMost dayAtMost
  have hour := arguments.st.wHour.toNat_lt
  have minute := arguments.st.wMinute.toNat_lt
  have second := arguments.st.wSecond.toNat_lt
  have millisecond := arguments.st.wMilliseconds.toNat_lt
  rw [convertFromSystemTime_toNat since (by omega) monthPositive monthAtMost
    dayPositive, Nat.mul_div_cancel _ (by decide)]
  have days : daysBeforeYear 3101 - baseNumber = 547863 := by decide
  obtain ⟨time, since', before, isTime⟩ :=
    @DateAndTime.exists_milliseconds _ 3101 (by decide)
      (show ((((daysSinceBase arguments.st.wYear.toNat
        arguments.st.wMonth.toNat arguments.st.wDay.toNat * 24 +
          arguments.st.wHour.toNat) * 60 + arguments.st.wMinute.toNat) * 60 +
            arguments.st.wSecond.toNat) * 1000 +
              arguments.st.wMilliseconds.toNat) < _ by
        rw [days]
        omega)
  exact ⟨time, since', Nat.le_of_lt_succ before, isTime.symm⟩

theorem year_le_of_fields
    (upTo : time.date.year ≤ 3100)
    (inRange : outOfRange time.fields.st = false) :
    time.date.year ≤ 3000 := by
  have atMost := (outOfRange_eq_false_iff.mp inRange).2.1
  rw [st_fields (by omega)] at atMost
  dsimp only [DateAndTime.systemTime] at atMost
  rw [toNat_ofNat_small (by omega)] at atMost
  exact atMost

end Arguments

/-- The properties return the arguments of the constructor if and only if
these are a date and time, or what is left of them in 16 bits is refused. -/
theorem dateTime_returnsArguments_iff (arguments : DateTimeFields) :
    ReturnsArguments arguments ↔
      outOfRange arguments.st = true ∨ arguments.IsDateAndTime := by
  constructor
  · rintro (raised | ⟨ticks, stored, same⟩)
    · apply Or.inl
      by_contra inRange
      rw [construct, if_neg inRange] at raised
      cases raised
    · cases inRange : outOfRange arguments.st with
      | true => exact .inl rfl
      | false =>
          rw [construct, inRange, if_neg Bool.false_ne_true] at stored
          cases stored
          obtain ⟨time, since, upTo, isTime⟩ :=
            exists_time_of_construct inRange
          have isFields := (properties_eq since upTo isTime).symm.trans same
          rw [← isFields] at inRange
          exact .inr ⟨time, ⟨since, year_le_of_fields upTo inRange⟩, isFields⟩
  · rintro (refused | ⟨time, supported, rfl⟩)
    · apply Or.inl
      rw [construct, if_pos refused]
    · obtain ⟨stored, same⟩ := construct_fields supported
      exact .inr ⟨_, stored, same⟩

/-- An hour behind the end of the day is not refused. -/
theorem dateTime_returnsArguments_lateHour :
    ¬ ReturnsArguments ⟨2019, 1, 1, 25, 0, 0, 0⟩ := by
  rintro (raised | ⟨ticks, stored, same⟩)
  · exact absurd raised (by decide)
  · cases stored
    exact absurd same (by decide)

end Calendar

end NanoClr
