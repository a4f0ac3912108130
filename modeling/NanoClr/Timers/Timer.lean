import Mathlib.Algebra.Ring.Int.Defs
import Mathlib.Algebra.Ring.Nat
import Mathlib.Tactic.Common

/-!
# Timers

`CLR_RT_HeapBlock_Timer`: how the object that the managed code holds is
configured, and what happens to a timer between two expirations.
-/

set_option linter.style.nameCheck false

namespace NanoClr

namespace Timers

/-! ## Flags -/

/-- The timer expires with every second. -/
def c_SecondChange : BitVec 32 := 0x00000001

/-- The timer expires with every minute. -/
def c_MinuteChange : BitVec 32 := 0x00000002

/-- The timer expires with every hour. -/
def c_HourChange : BitVec 32 := 0x00000003

/-- The timer expires with every day. -/
def c_DayChange : BitVec 32 := 0x00000004

/-- The bits for the kinds of changes. -/
def c_AnyChange : BitVec 32 := 0x0000000F

/-- The timer has expired. -/
def c_Triggered : BitVec 32 := 0x00000010

/-- A thread executes the delegate of the timer. -/
def c_Executing : BitVec 32 := 0x00000020

/-- The timer is to be created. -/
def c_ACTION_Create : BitVec 32 := 0x00010000

/-- The timer is to be changed. -/
def c_ACTION_Change : BitVec 32 := 0x00020000

/-- The timer is to be destroyed. -/
def c_ACTION_Destroy : BitVec 32 := 0x00040000

/-- The arguments are numbers of milliseconds. -/
def c_INPUT_Int32 : BitVec 32 := 0x00100000

/-- The arguments are time spans. -/
def c_INPUT_TimeSpan : BitVec 32 := 0x00200000

/-- The timer has a period. -/
def c_Recurring : BitVec 32 := 0x40000000

/-- The timer is enabled. -/
def c_EnabledTimer : BitVec 32 := 0x80000000

/-- Some of the bits of a mask are set. -/
def hasFlag (flags mask : BitVec 32) : Bool := flags &&& mask != 0

/-! ## Times -/

/-- The time that never comes. -/
def TIMEOUT_INFINITE : Int64 := 0x7FFFFFFFFFFFFFFF

/-- The ticks of a millisecond. -/
def TIME_CONVERSION__TO_MILLISECONDS : Int64 := 10000

/-- The ticks of a second. -/
def TIME_CONVERSION__TO_SECONDS : Int64 := 10000000

/-- The seconds of a second. -/
def TIME_CONVERSION__ONESECOND : Int64 := 1

/-- The seconds of a minute. -/
def TIME_CONVERSION__ONEMINUTE : Int64 := 60

/-- The seconds of an hour. -/
def TIME_CONVERSION__ONEHOUR : Int64 := 3600

/-- The seconds of a day. -/
def TIME_CONVERSION__ONEDAY : Int64 := 86400

/-- The ticks of a millisecond in a time span. -/
def c_TickPerMillisecond : Int64 := 10000

/-- The longest time that can be asked for. -/
def maxTime : Int64 := 0x7FFFFFFF * TIME_CONVERSION__TO_MILLISECONDS

/-- The shortest time that can be asked for. -/
def minTime : Int64 := 0

/-- A date and a time of the day, as far as timers read them. -/
structure SYSTEMTIME where
  wYear : UInt16
  wMonth : UInt16
  wDay : UInt16
  wHour : UInt16
  wMinute : UInt16
  wSecond : UInt16
  wMilliseconds : UInt16

/-- The clock while an object is configured, and the calendar. -/
structure Clock where
  HAL_Time_CurrentTime : UInt64
  HAL_Time_ToSystemTime : UInt64 → SYSTEMTIME
  HAL_Time_ConvertFromSystemTime : SYSTEMTIME → UInt64

/-! ## Timers -/

/-- The flags of a timer and its times: the next expiration, the period, and the
last expiration. -/
structure CLR_RT_HeapBlock_Timer where
  m_flags : BitVec 32
  m_timeExpire : Int64
  m_timeFrequency : Int64
  m_timeLastExpiration : Int64
  m_ticksLastExpiration : Int64
deriving DecidableEq

/-- The results of the calls. -/
inductive HResult where
  | S_OK
  | CLR_E_NULL_REFERENCE
  | CLR_E_INVALID_PARAMETER
  | CLR_E_OUT_OF_RANGE
  | CLR_E_OUT_OF_MEMORY
deriving DecidableEq

/-- An argument on the stack: the delegate it refers to, its number and the
ticks that `GetValuePtr` finds. -/
structure Argument where
  DereferenceDelegate : Option Nat
  s4 : Int32
  GetValuePtr : Option Int64

/-- The managed object. -/
structure ManagedTimer where
  FIELD___timer : Option CLR_RT_HeapBlock_Timer
  FIELD___callback : Argument
  FIELD___state : Argument

namespace CLR_RT_HeapBlock_Timer

/-- The timer that `CreateInstance` links. -/
def created (flags : BitVec 32) : CLR_RT_HeapBlock_Timer where
  m_flags := flags
  m_timeExpire := TIMEOUT_INFINITE
  m_timeFrequency := TIMEOUT_INFINITE
  m_timeLastExpiration := 0
  m_ticksLastExpiration := 0

/-- `AdjustNextFixedExpire`. -/
def AdjustNextFixedExpire
    (clock : Clock)
    (systemTime : SYSTEMTIME)
    (fNext : Bool)
    (timer : CLR_RT_HeapBlock_Timer) : CLR_RT_HeapBlock_Timer :=
  let adjusted (add : Int64) (st : SYSTEMTIME) : CLR_RT_HeapBlock_Timer :=
    let baseTime := (clock.HAL_Time_ConvertFromSystemTime
      { st with wMilliseconds := 0 }).toInt64
    { timer with
      m_timeExpire := if fNext then baseTime + add else baseTime
      m_timeFrequency := add
      m_flags := timer.m_flags ||| c_Recurring }
  if timer.m_flags &&& c_AnyChange = c_SecondChange then
    adjusted (TIME_CONVERSION__ONESECOND * TIME_CONVERSION__TO_SECONDS)
      systemTime
  else if timer.m_flags &&& c_AnyChange = c_MinuteChange then
    adjusted (TIME_CONVERSION__ONEMINUTE * TIME_CONVERSION__TO_SECONDS)
      { systemTime with wSecond := 0 }
  else if timer.m_flags &&& c_AnyChange = c_HourChange then
    adjusted (TIME_CONVERSION__ONEHOUR * TIME_CONVERSION__TO_SECONDS)
      { systemTime with wSecond := 0, wMinute := 0 }
  else if timer.m_flags &&& c_AnyChange = c_DayChange then
    adjusted (TIME_CONVERSION__ONEDAY * TIME_CONVERSION__TO_SECONDS)
      { systemTime with wSecond := 0, wMinute := 0, wHour := 0 }
  else
    timer

/-! ## Changes -/

/-- The arguments are stored in the timer. -/
def storeTimes
    (flags : BitVec 32)
    (first second : Argument)
    (timer : CLR_RT_HeapBlock_Timer) : HResult × CLR_RT_HeapBlock_Timer :=
  if hasFlag flags c_INPUT_Int32 then
    let timer :=
      { timer with
        m_timeExpire := first.s4.toInt64
        m_timeFrequency := second.s4.toInt64 }
    let timer :=
      if timer.m_timeExpire = -1 then
        { timer with m_timeExpire := TIMEOUT_INFINITE }
      else timer
    let timer :=
      if timer.m_timeFrequency = -1 then
        { timer with m_timeFrequency := TIMEOUT_INFINITE }
      else timer
    (.S_OK, timer)
  else if hasFlag flags c_INPUT_TimeSpan then
    match first.GetValuePtr with
    | none => (.CLR_E_NULL_REFERENCE, timer)
    | some pVal =>
        let timer :=
          if pVal = -c_TickPerMillisecond then
            { timer with m_timeExpire := TIMEOUT_INFINITE }
          else
            { timer with m_timeExpire := pVal }
        match second.GetValuePtr with
        | none => (.CLR_E_NULL_REFERENCE, timer)
        | some pVal =>
            let timer :=
              if pVal = -c_TickPerMillisecond then
                { timer with m_timeFrequency := TIMEOUT_INFINITE }
              else
                { timer with m_timeFrequency := pVal }
            (.S_OK, timer)
  else
    (.S_OK, timer)

/-- The time that is stored becomes an expiration. -/
def enableExpire
    (clock : Clock)
    (flags : BitVec 32)
    (timer : CLR_RT_HeapBlock_Timer) : HResult × CLR_RT_HeapBlock_Timer :=
  if timer.m_timeExpire = TIMEOUT_INFINITE then
    (.S_OK, { timer with m_flags := timer.m_flags &&& ~~~c_EnabledTimer })
  else
    let timer :=
      if hasFlag flags c_INPUT_Int32 then
        { timer with
          m_timeExpire :=
            timer.m_timeExpire * TIME_CONVERSION__TO_MILLISECONDS }
      else timer
    if minTime ≤ timer.m_timeExpire ∧ timer.m_timeExpire ≤ maxTime then
      (.S_OK,
        { timer with
          m_timeExpire :=
            timer.m_timeExpire + clock.HAL_Time_CurrentTime.toInt64
          m_flags := timer.m_flags ||| c_EnabledTimer })
    else
      (.CLR_E_OUT_OF_RANGE, timer)

/-- The period that is stored becomes one in ticks. -/
def enableFrequency
    (flags : BitVec 32)
    (timer : CLR_RT_HeapBlock_Timer) : HResult × CLR_RT_HeapBlock_Timer :=
  if timer.m_timeFrequency = 0 ∨ timer.m_timeFrequency = TIMEOUT_INFINITE then
    (.S_OK, { timer with m_flags := timer.m_flags &&& ~~~c_Recurring })
  else
    let timer :=
      if hasFlag flags c_INPUT_Int32 then
        { timer with
          m_timeFrequency :=
            timer.m_timeFrequency * TIME_CONVERSION__TO_MILLISECONDS }
      else timer
    if minTime ≤ timer.m_timeFrequency ∧ timer.m_timeFrequency ≤ maxTime then
      (.S_OK, { timer with m_flags := timer.m_flags ||| c_Recurring })
    else
      (.CLR_E_OUT_OF_RANGE, timer)

/-- A call goes on with what succeeded. -/
def andThen
    (result : HResult × CLR_RT_HeapBlock_Timer)
    (next : CLR_RT_HeapBlock_Timer → HResult × CLR_RT_HeapBlock_Timer) :
    HResult × CLR_RT_HeapBlock_Timer :=
  match result with
  | (.S_OK, timer) => next timer
  | (failure, timer) => (failure, timer)

/-- The branch of `ConfigureObject` for `c_ACTION_Change`. -/
def change
    (clock : Clock)
    (flags : BitVec 32)
    (first second : Argument)
    (timer : CLR_RT_HeapBlock_Timer) : HResult × CLR_RT_HeapBlock_Timer :=
  if hasFlag timer.m_flags c_AnyChange then
    (.CLR_E_INVALID_PARAMETER, timer)
  else
    andThen (andThen (storeTimes flags first second timer)
      (enableExpire clock flags)) (enableFrequency flags)

/-- What is done to the timer once it is found. -/
def configure
    (clock : Clock)
    (flags : BitVec 32)
    (first second : Argument)
    (timer : CLR_RT_HeapBlock_Timer) : HResult × CLR_RT_HeapBlock_Timer :=
  let anyChange := flags &&& c_AnyChange
  let fixed := hasFlag flags c_ACTION_Create && anyChange != 0
  let timer :=
    if fixed then
      AdjustNextFixedExpire clock
        (clock.HAL_Time_ToSystemTime clock.HAL_Time_CurrentTime) true
        { timer with m_flags := timer.m_flags ||| anyChange ||| c_EnabledTimer }
    else timer
  let flags :=
    if hasFlag flags c_ACTION_Create && !fixed then
      flags ||| c_ACTION_Change
    else flags
  let timer :=
    if hasFlag flags c_ACTION_Destroy then
      { timer with m_flags := timer.m_flags &&& ~~~c_EnabledTimer }
    else timer
  if hasFlag flags c_ACTION_Change then
    change clock flags first second timer
  else
    (.S_OK, timer)

/-! ## Expirations -/

/-- `SpawnTimer`; `pushed` tells whether the thread takes the delegate. -/
def SpawnTimer
    (now : UInt64)
    (pushed : Bool)
    (timer : CLR_RT_HeapBlock_Timer) : CLR_RT_HeapBlock_Timer :=
  let timer :=
    { timer with
      m_ticksLastExpiration := now.toInt64
      m_timeLastExpiration := timer.m_timeExpire
      m_timeExpire := TIMEOUT_INFINITE }
  if pushed then
    { timer with
      m_flags := (timer.m_flags ||| c_Executing) &&& ~~~c_Triggered }
  else
    timer

/-- What `HAL_Time_CurrentTime` gives when it is called by `Reschedule`: to find
out whether the expiration is past, to count the next one from, and to find how
far it is behind. -/
structure Readings where
  tested : UInt64
  counted : UInt64
  measured : UInt64

/-- `Reschedule`. -/
def Reschedule (readings : Readings) (timer : CLR_RT_HeapBlock_Timer) :
    CLR_RT_HeapBlock_Timer :=
  if hasFlag timer.m_flags c_Recurring &&
      hasFlag timer.m_flags c_EnabledTimer then
    let expire := (timer.m_timeLastExpiration + timer.m_timeFrequency).toUInt64
    let expire :=
      if expire < readings.tested then
        readings.counted -
          (readings.measured - expire) % timer.m_timeFrequency.toUInt64 +
          timer.m_timeFrequency.toUInt64
      else expire
    { timer with m_timeExpire := expire.toInt64 }
  else
    timer

end CLR_RT_HeapBlock_Timer

namespace ManagedTimer

/-- `ConfigureObject`; `allocates` tells whether there is memory for a timer. -/
def ConfigureObject
    (clock : Clock)
    (allocates : Bool)
    (args : Nat → Argument)
    (flags : BitVec 32)
    (object : ManagedTimer) : HResult × ManagedTimer :=
  let found (object : ManagedTimer) (args : Nat → Argument) :
      HResult × ManagedTimer :=
    match object.FIELD___timer with
    | none => (.CLR_E_NULL_REFERENCE, object)
    | some timer =>
        let result := timer.configure clock flags (args 0) (args 1)
        (result.1, { object with FIELD___timer := some result.2 })
  if hasFlag flags c_ACTION_Create then
    if (args 0).DereferenceDelegate = none then
      (.CLR_E_NULL_REFERENCE, object)
    else if allocates then
      found
        { FIELD___timer := some (CLR_RT_HeapBlock_Timer.created 0)
          FIELD___callback := args 0
          FIELD___state := args 1 }
        fun index => args (index + 2)
    else
      (.CLR_E_OUT_OF_MEMORY, object)
  else
    found object args

end ManagedTimer

end Timers

end NanoClr
