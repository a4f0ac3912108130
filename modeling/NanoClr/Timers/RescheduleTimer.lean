import NanoClr.Timers.Timer
import Mathlib.Tactic.LinearCombination

/-!
# The phase of a periodic timer

`Reschedule` counts the next expiration from one reading of the clock and finds
out how far it is behind with another one.
-/

set_option linter.style.nameCheck false

namespace NanoClr

namespace Timers

/-! ## Words -/

theorem bmod_emod_word (value : Int) :
    value.bmod (2 ^ 64) % 2 ^ 64 = value % 2 ^ 64 :=
  Int.bmod_emod

theorem toUInt64_toNat (time : Int64) :
    (time.toUInt64.toNat : Int) = time.toInt % 2 ^ 64 := by
  have signed : time.toInt = Int.bmod time.toUInt64.toNat (2 ^ 64) :=
    BitVec.toInt_eq_toNat_bmod time.toBitVec
  have bound := time.toUInt64.toNat_lt
  rw [signed, bmod_emod_word, Int.emod_eq_of_lt (by omega) (by omega)]

theorem toInt64_toInt (time : UInt64) :
    time.toInt64.toInt = Int.bmod time.toNat (2 ^ 64) :=
  BitVec.toInt_eq_toNat_bmod time.toBitVec

/-! ## Phases -/

/-- The expiration after the previous one, at a time when the timer is
serviced. -/
structure PhaseKept (previous period now next : Int) : Prop where
  multiple : ∃ count : Nat, 0 < count ∧ next = previous + count * period
  notPast : now ≤ next
  withinPeriod : next ≤ now + period
  inTime : now ≤ previous + period → next = previous + period

/-- The clock does not go back while a timer is serviced. -/
structure CLR_RT_HeapBlock_Timer.Readings.Ordered
    (readings : CLR_RT_HeapBlock_Timer.Readings) : Prop where
  counted : readings.tested.toNat ≤ readings.counted.toNat
  measured : readings.tested.toNat ≤ readings.measured.toNat

namespace CLR_RT_HeapBlock_Timer

/-- The time at which the timer is serviced: the reading that shows that the
next expiration is not past, or else the one from which it is counted. -/
def servicedAt (readings : Readings) (timer : CLR_RT_HeapBlock_Timer) : Int :=
  if timer.m_timeLastExpiration.toInt + timer.m_timeFrequency.toInt <
      readings.tested.toNat then
    readings.counted.toNat
  else
    readings.tested.toNat

/-- The next expiration is a time, and where it is past the clock gives
readings that agree up to whole periods. -/
def ReadingsAgree (readings : Readings) (timer : CLR_RT_HeapBlock_Timer) :
    Prop :=
  let period := timer.m_timeFrequency.toInt
  let expire := timer.m_timeLastExpiration.toInt + period
  0 ≤ expire ∧
    if expire < readings.tested.toNat then
      period ∣ (readings.counted.toNat - readings.measured.toNat : Int) ∧
        readings.counted.toNat + period -
          (readings.measured.toNat - expire) % period < 2 ^ 63
    else
      expire < 2 ^ 63

section Reschedule

variable {timer : CLR_RT_HeapBlock_Timer} {readings : Readings}

theorem reschedule_recurring
    (recurring : hasFlag timer.m_flags c_Recurring = true)
    (enabled : hasFlag timer.m_flags c_EnabledTimer = true) :
    (timer.Reschedule readings).m_timeExpire =
      (let expire :=
        (timer.m_timeLastExpiration + timer.m_timeFrequency).toUInt64
      if expire < readings.tested then
        readings.counted -
          (readings.measured - expire) % timer.m_timeFrequency.toUInt64 +
          timer.m_timeFrequency.toUInt64
      else expire).toInt64 := by
  rw [Reschedule, recurring, enabled]
  rfl

theorem reschedule_once (once : hasFlag timer.m_flags c_Recurring = false) :
    timer.Reschedule readings = timer := by
  rw [Reschedule, once, Bool.false_and]
  rfl

/-- The sum of the last expiration and the period, as an unsigned word. -/
theorem expire_toNat (timer : CLR_RT_HeapBlock_Timer) :
    ((timer.m_timeLastExpiration + timer.m_timeFrequency).toUInt64.toNat :
        Int) =
      (timer.m_timeLastExpiration.toInt + timer.m_timeFrequency.toInt) %
        2 ^ 64 := by
  rw [toUInt64_toNat, Int64.toInt_add, bmod_emod_word]

theorem late_toNat
    {counted measured expire period : UInt64}
    (behind : expire.toNat ≤ measured.toNat)
    (positive : 0 < period.toNat) :
    ((counted - (measured - expire) % period + period).toNat : Int) =
      (counted.toNat + period.toNat -
        ((measured.toNat : Int) - expire.toNat) % period.toNat) % 2 ^ 64 := by
  have difference : (measured - expire).toNat =
      measured.toNat - expire.toNat :=
    UInt64.toNat_sub_of_le _ _ (UInt64.le_iff_toNat_le.mpr behind)
  have remainder : ((measured.toNat : Int) - expire.toNat) % period.toNat =
      ((measured.toNat - expire.toNat) % period.toNat : Nat) := by
    rw [Int.natCast_emod, Int.natCast_sub behind]
  have bound := Nat.mod_lt (measured.toNat - expire.toNat) positive
  have wide := period.toNat_lt
  have counter := counted.toNat_lt
  rw [remainder, UInt64.toNat_add, UInt64.toNat_sub, UInt64.toNat_mod,
    difference]
  generalize (measured.toNat - expire.toNat) % period.toNat = rest at *
  omega

/-- The expiration that `Reschedule` gives to a timer that is not behind. -/
theorem reschedule_inTime
    (recurring : hasFlag timer.m_flags c_Recurring = true)
    (enabled : hasFlag timer.m_flags c_EnabledTimer = true)
    (ahead : (readings.tested.toNat : Int) ≤
      timer.m_timeLastExpiration.toInt + timer.m_timeFrequency.toInt) :
    (timer.Reschedule readings).m_timeExpire.toInt =
      (timer.m_timeLastExpiration.toInt + timer.m_timeFrequency.toInt).bmod
        (2 ^ 64) := by
  have unsigned := expire_toNat timer
  have last := timer.m_timeLastExpiration.toInt_lt
  have frequency := timer.m_timeFrequency.toInt_lt
  have notLate : ¬ (timer.m_timeLastExpiration +
      timer.m_timeFrequency).toUInt64 < readings.tested := by
    rw [UInt64.lt_iff_toNat_lt]
    rw [Int.emod_eq_of_lt (by omega) (by omega)] at unsigned
    omega
  rw [reschedule_recurring recurring enabled]
  dsimp only
  rw [if_neg notLate, Int64.toInt64_toUInt64, Int64.toInt_add]

/-- The expiration that `Reschedule` gives to a timer that is behind. -/
theorem reschedule_late
    (recurring : hasFlag timer.m_flags c_Recurring = true)
    (enabled : hasFlag timer.m_flags c_EnabledTimer = true)
    (positive : 0 < timer.m_timeFrequency.toInt)
    (ordered : readings.Ordered)
    (start : 0 ≤ timer.m_timeLastExpiration.toInt +
      timer.m_timeFrequency.toInt)
    (late : timer.m_timeLastExpiration.toInt + timer.m_timeFrequency.toInt <
      readings.tested.toNat) :
    (timer.Reschedule readings).m_timeExpire.toInt =
      (readings.counted.toNat + timer.m_timeFrequency.toInt -
        (readings.measured.toNat -
            (timer.m_timeLastExpiration.toInt + timer.m_timeFrequency.toInt)) %
          timer.m_timeFrequency.toInt).bmod (2 ^ 64) := by
  have unsigned := expire_toNat timer
  have frequency := timer.m_timeFrequency.toInt_lt
  have tested := readings.tested.toNat_lt
  have before := ordered.measured
  rw [Int.emod_eq_of_lt start (by omega)] at unsigned
  have period : (timer.m_timeFrequency.toUInt64.toNat : Int) =
      timer.m_timeFrequency.toInt := by
    rw [toUInt64_toNat, Int.emod_eq_of_lt (by omega) (by omega)]
  have isLate : (timer.m_timeLastExpiration +
      timer.m_timeFrequency).toUInt64 < readings.tested := by
    rw [UInt64.lt_iff_toNat_lt]
    omega
  rw [reschedule_recurring recurring enabled]
  dsimp only
  rw [if_pos isLate, toInt64_toInt, late_toNat (by omega) (by omega), period,
    unsigned]
  exact Int.emod_bmod _ _

/-- An expiration that would lie before the origin of the clock is past. -/
theorem not_phaseKept_of_negative
    (recurring : hasFlag timer.m_flags c_Recurring = true)
    (enabled : hasFlag timer.m_flags c_EnabledTimer = true)
    (positive : 0 < timer.m_timeFrequency.toInt)
    (ordered : readings.Ordered)
    (negative : timer.m_timeLastExpiration.toInt +
      timer.m_timeFrequency.toInt < 0) :
    ¬ PhaseKept timer.m_timeLastExpiration.toInt timer.m_timeFrequency.toInt
      (timer.servicedAt readings)
      (timer.Reschedule readings).m_timeExpire.toInt := by
  intro kept
  have ahead := kept.notPast
  have behind := ordered.counted
  have last := timer.m_timeLastExpiration.le_toInt
  have unsigned := expire_toNat timer
  rw [servicedAt, if_pos (by omega)] at ahead
  by_cases late : (timer.m_timeLastExpiration +
      timer.m_timeFrequency).toUInt64 < readings.tested
  · have bound := (timer.Reschedule readings).m_timeExpire.toInt_lt
    rw [UInt64.lt_iff_toNat_lt] at late
    omega
  · rw [reschedule_recurring recurring enabled] at ahead
    dsimp only at ahead
    rw [if_neg late, Int64.toInt64_toUInt64, Int64.toInt_add,
      Int.bmod_eq_of_le (by omega) (by omega)] at ahead
    omega

theorem phaseKept_inTime_iff
    (recurring : hasFlag timer.m_flags c_Recurring = true)
    (enabled : hasFlag timer.m_flags c_EnabledTimer = true)
    (serviced : timer.m_timeLastExpiration.toInt ≤ readings.tested.toNat)
    (ahead : (readings.tested.toNat : Int) ≤
      timer.m_timeLastExpiration.toInt + timer.m_timeFrequency.toInt) :
    PhaseKept timer.m_timeLastExpiration.toInt timer.m_timeFrequency.toInt
        (timer.servicedAt readings)
        (timer.Reschedule readings).m_timeExpire.toInt ↔
      timer.m_timeLastExpiration.toInt + timer.m_timeFrequency.toInt <
        2 ^ 63 := by
  have now : timer.servicedAt readings = readings.tested.toNat :=
    if_neg (Int.not_lt.mpr ahead)
  constructor
  · intro kept
    rw [← kept.inTime (by rw [now]; exact ahead)]
    exact (timer.Reschedule readings).m_timeExpire.toInt_lt
  · intro fits
    rw [reschedule_inTime recurring enabled ahead,
      Int.bmod_eq_of_le (by omega) (by omega), now]
    refine ⟨⟨1, Nat.one_pos, ?_⟩, ahead, ?_, fun _ => rfl⟩
    · rw [Nat.cast_one, one_mul]
    · omega

theorem phaseKept_late_iff
    (recurring : hasFlag timer.m_flags c_Recurring = true)
    (enabled : hasFlag timer.m_flags c_EnabledTimer = true)
    (positive : 0 < timer.m_timeFrequency.toInt)
    (ordered : readings.Ordered)
    (start : 0 ≤ timer.m_timeLastExpiration.toInt +
      timer.m_timeFrequency.toInt)
    (late : timer.m_timeLastExpiration.toInt + timer.m_timeFrequency.toInt <
      readings.tested.toNat) :
    PhaseKept timer.m_timeLastExpiration.toInt timer.m_timeFrequency.toInt
        (timer.servicedAt readings)
        (timer.Reschedule readings).m_timeExpire.toInt ↔
      timer.m_timeFrequency.toInt ∣
          (readings.counted.toNat - readings.measured.toNat : Int) ∧
        readings.counted.toNat + timer.m_timeFrequency.toInt -
            (readings.measured.toNat -
                (timer.m_timeLastExpiration.toInt +
                  timer.m_timeFrequency.toInt)) %
              timer.m_timeFrequency.toInt < 2 ^ 63 := by
  have now : timer.servicedAt readings = readings.counted.toNat := if_pos late
  have value := reschedule_late recurring enabled positive ordered start late
  have behind := ordered.counted
  have counter := readings.counted.toNat_lt
  have frequency := timer.m_timeFrequency.toInt_lt
  rw [now, value]
  generalize timer.m_timeLastExpiration.toInt = last at *
  generalize timer.m_timeFrequency.toInt = period at *
  generalize (readings.measured.toNat : Int) = measured at *
  have least := Int.emod_nonneg (measured - (last + period))
    (Int.ne_of_gt positive)
  have most := Int.emod_lt_of_pos (measured - (last + period)) positive
  have whole := Int.emod_add_mul_ediv (measured - (last + period)) period
  generalize (measured - (last + period)) % period = rest at *
  generalize (measured - (last + period)) / period = missed at *
  constructor
  · intro kept
    have ahead := kept.notPast
    have fits : (readings.counted.toNat : Int) + period - rest < 2 ^ 63 := by
      by_contra wraps
      rw [← Int.sub_bmod_right, Int.bmod_eq_of_le (by omega) (by omega)]
        at ahead
      push_cast at ahead
      omega
    have ⟨count, _, next⟩ := kept.multiple
    rw [Int.bmod_eq_of_le (by omega) (by omega)] at next
    refine ⟨⟨count - 2 - missed, ?_⟩, fits⟩
    linear_combination next + whole
  · rintro ⟨⟨turns, agree⟩, fits⟩
    rw [Int.bmod_eq_of_le (by omega) (by omega)]
    have next : (readings.counted.toNat : Int) + period - rest =
        last + (turns + missed + 2) * period := by
      linear_combination agree - whole
    have ahead : 0 < turns + missed + 2 := by
      apply (mul_pos_iff_of_pos_right positive).mp
      omega
    refine ⟨⟨(turns + missed + 2).toNat, ?_, ?_⟩, ?_, ?_, ?_⟩
    · omega
    · rw [next, Int.toNat_of_nonneg (by omega)]
    · omega
    · omega
    · intro inTime
      omega

end Reschedule

/-- What `SpawnTimer` leaves for `Reschedule`: the expiration that led to the
call is the last one. -/
theorem spawnTimer_lastExpiration
    (now : UInt64)
    (pushed : Bool)
    (timer : CLR_RT_HeapBlock_Timer) :
    (timer.SpawnTimer now pushed).m_timeLastExpiration = timer.m_timeExpire ∧
      (timer.SpawnTimer now pushed).m_timeExpire = TIMEOUT_INFINITE ∧
      (timer.SpawnTimer now pushed).m_timeFrequency =
        timer.m_timeFrequency := by
  cases pushed
  · exact ⟨rfl, rfl, rfl⟩
  · exact ⟨rfl, rfl, rfl⟩

end CLR_RT_HeapBlock_Timer

open CLR_RT_HeapBlock_Timer

/-- A timer with a period keeps its phase exactly when the readings of the clock
agree, and a timer without one is left as it is. -/
theorem reschedule_phaseKept_iff
    (timer : CLR_RT_HeapBlock_Timer)
    (readings : Readings)
    (ordered : readings.Ordered) :
    (hasFlag timer.m_flags c_Recurring = true →
      hasFlag timer.m_flags c_EnabledTimer = true →
      0 < timer.m_timeFrequency.toInt →
      timer.m_timeLastExpiration.toInt ≤ readings.tested.toNat →
        (PhaseKept timer.m_timeLastExpiration.toInt
            timer.m_timeFrequency.toInt (timer.servicedAt readings)
            (timer.Reschedule readings).m_timeExpire.toInt ↔
          timer.ReadingsAgree readings)) ∧
    (hasFlag timer.m_flags c_Recurring = false →
      timer.Reschedule readings = timer) := by
  refine ⟨?_, reschedule_once⟩
  intro recurring enabled positive serviced
  unfold ReadingsAgree
  dsimp only
  rcases Int.lt_or_le (timer.m_timeLastExpiration.toInt +
      timer.m_timeFrequency.toInt) 0 with negative | start
  · apply iff_of_false
    · exact not_phaseKept_of_negative recurring enabled positive ordered
        negative
    · exact fun agree => absurd agree.1 (Int.not_le.mpr negative)
  · rw [and_iff_right start]
    split
    case isTrue late =>
      exact phaseKept_late_iff recurring enabled positive ordered start late
    case isFalse inTime =>
      exact phaseKept_inTime_iff recurring enabled serviced
        (Int.not_lt.mp inTime)

/-- A timer of one second that is one and a half seconds late. -/
def lateTimer : CLR_RT_HeapBlock_Timer where
  m_flags := c_EnabledTimer ||| c_Recurring
  m_timeExpire := TIMEOUT_INFINITE
  m_timeFrequency := 10000000
  m_timeLastExpiration := 10000000
  m_ticksLastExpiration := 10000000

/-- The clock stands still while the timer is serviced. -/
theorem reschedule_phaseKept_steady :
    PhaseKept lateTimer.m_timeLastExpiration.toInt
      lateTimer.m_timeFrequency.toInt
      (lateTimer.servicedAt ⟨35000000, 35000000, 35000000⟩)
      (lateTimer.Reschedule
        ⟨35000000, 35000000, 35000000⟩).m_timeExpire.toInt := by
  have agree : lateTimer.ReadingsAgree ⟨35000000, 35000000, 35000000⟩ := by
    refine ⟨by decide, ?_⟩
    rw [if_pos (by decide)]
    exact ⟨by decide, by decide⟩
  have ordered : Readings.Ordered ⟨35000000, 35000000, 35000000⟩ :=
    ⟨Nat.le_refl _, Nat.le_refl _⟩
  exact ((reschedule_phaseKept_iff lateTimer _ ordered).1 (by decide)
    (by decide) (by decide) (by decide)).mpr agree

/-- The clock goes on by one millisecond between the last two readings: the next
expiration comes one millisecond before its phase. -/
theorem reschedule_losesPhase :
    let readings : Readings := ⟨35000000, 35000000, 35010000⟩
    (lateTimer.Reschedule readings).m_timeExpire = 39990000 ∧
      ¬ PhaseKept 10000000 10000000 (lateTimer.servicedAt readings)
        (lateTimer.Reschedule readings).m_timeExpire.toInt := by
  intro readings
  have next : (lateTimer.Reschedule readings).m_timeExpire = 39990000 := by
    decide
  refine ⟨next, ?_⟩
  intro kept
  have ⟨count, _, multiple⟩ := kept.multiple
  rw [next] at multiple
  have value : (39990000 : Int64).toInt = 39990000 := rfl
  omega

end Timers

end NanoClr
