import NanoClr.Timers.Timer

/-!
# Changing a timer

A call of `Timer.Change` stores its arguments in the timer before it has
checked them, so that a call that fails can leave them there.
-/

set_option linter.style.nameCheck false

namespace NanoClr

namespace Timers

/-! ## Flags -/

section Flags

variable {flags mask other : BitVec 32}

theorem hasFlag_or_self (some : mask ≠ 0) :
    hasFlag (flags ||| mask) mask = true := by
  have whole : (flags ||| mask) &&& mask = mask := by
    ext place
    simp only [BitVec.getElem_and, BitVec.getElem_or]
    cases mask[place] <;> simp
  rw [hasFlag, whole, bne_iff_ne]
  exact some

theorem hasFlag_clear_self : hasFlag (flags &&& ~~~mask) mask = false := by
  have nothing : (flags &&& ~~~mask) &&& mask = 0 := by
    rw [BitVec.and_assoc, BitVec.and_comm (~~~mask), BitVec.and_not_self]
    exact BitVec.and_zero
  rw [hasFlag, nothing]
  rfl

theorem hasFlag_or_other (apart : mask &&& other = 0) :
    hasFlag (flags ||| mask) other = hasFlag flags other := by
  have same : (flags ||| mask) &&& other = flags &&& other := by
    rw [BitVec.and_comm, BitVec.and_or_distrib_left, BitVec.and_comm other mask,
      apart, BitVec.and_comm other]
    exact BitVec.or_zero
  rw [hasFlag, hasFlag, same]

theorem hasFlag_clear_other (apart : mask &&& other = 0) :
    hasFlag (flags &&& ~~~mask) other = hasFlag flags other := by
  have same : (flags &&& ~~~mask) &&& other = flags &&& other := by
    ext place inside
    have disjoint := congrArg (fun bits => bits[place]) apart
    simp only [BitVec.getElem_and, BitVec.ofNat_eq_ofNat,
      BitVec.getElem_zero] at disjoint
    simp only [BitVec.getElem_and, BitVec.getElem_not]
    revert disjoint
    cases flags[place] <;> cases mask[place] <;> simp
  rw [hasFlag, hasFlag, same]

theorem enabled_or_self :
    flags ||| c_EnabledTimer = flags ↔
      hasFlag flags c_EnabledTimer = true := by
  constructor
  · intro same
    rw [← same]
    exact hasFlag_or_self (by decide)
  · intro set
    rw [hasFlag, show c_EnabledTimer = BitVec.twoPow 32 31 from rfl,
      BitVec.and_twoPow] at set
    ext place inside
    rw [show c_EnabledTimer = BitVec.twoPow 32 31 from rfl, BitVec.getElem_or,
      BitVec.getElem_twoPow]
    by_cases highest : place = 31
    · subst highest
      cases held : flags.getLsbD 31 with
      | false =>
          rw [held] at set
          cases set
      | true => simp [← BitVec.getLsbD_eq_getElem, held]
    · simp [highest]

theorem enabled_clear_self :
    flags &&& ~~~c_EnabledTimer = flags ↔
      hasFlag flags c_EnabledTimer = false := by
  constructor
  · intro same
    rw [← same]
    exact hasFlag_clear_self
  · intro clear
    rw [hasFlag, show c_EnabledTimer = BitVec.twoPow 32 31 from rfl,
      BitVec.and_twoPow] at clear
    ext place inside
    rw [show c_EnabledTimer = BitVec.twoPow 32 31 from rfl, BitVec.getElem_and,
      BitVec.getElem_not, BitVec.getElem_twoPow]
    by_cases highest : place = 31
    · subst highest
      cases held : flags.getLsbD 31 with
      | true =>
          rw [held] at clear
          cases clear
      | false => simp [← BitVec.getLsbD_eq_getElem, held]
    · simp [highest]

end Flags

/-! ## Requests -/

/-- The two ways to give the times. -/
inductive TimeInput where
  | int32
  | timeSpan

/-- The flags of `Timer.Change`. -/
def TimeInput.flags : TimeInput → BitVec 32
  | .int32 => c_ACTION_Change ||| c_INPUT_Int32
  | .timeSpan => c_ACTION_Change ||| c_INPUT_TimeSpan

/-- What an argument asks for, in ticks. -/
inductive Request where
  | missing
  | infinite
  | ticks (count : Int)

/-- Milliseconds, or a span of ticks; minus one millisecond is no end. -/
def Argument.requested (input : TimeInput) (argument : Argument) : Request :=
  match input with
  | .int32 =>
      if argument.s4.toInt = -1 then .infinite
      else .ticks (argument.s4.toInt * 10000)
  | .timeSpan =>
      match argument.GetValuePtr with
      | none => .missing
      | some span =>
          if span.toInt = -10000 ∨ span = TIMEOUT_INFINITE then .infinite
          else .ticks span.toInt

/-- From nothing up to the milliseconds of a signed word. -/
def Request.InRange : Request → Prop
  | .missing => False
  | .infinite => True
  | .ticks count => 0 ≤ count ∧ count ≤ 0x7FFFFFFF * 10000

instance (request : Request) : Decidable request.InRange :=
  match request with
  | .missing => inferInstanceAs (Decidable False)
  | .infinite => inferInstanceAs (Decidable True)
  | .ticks count =>
      inferInstanceAs (Decidable (0 ≤ count ∧ count ≤ 0x7FFFFFFF * 10000))

/-- The expiration that a due time asks for. -/
def Request.expiration (now : UInt64) : Request → Option Int
  | .missing => none
  | .infinite => some TIMEOUT_INFINITE.toInt
  | .ticks count => some (now.toNat + count)

/-- The period that is asked for, if any. -/
def Request.period : Request → Option Int
  | .missing => none
  | .infinite => some TIMEOUT_INFINITE.toInt
  | .ticks count => some count

/-- A timer with the due time and the period that were asked for. -/
structure Installs
    (now : UInt64)
    (due period : Request)
    (before after : CLR_RT_HeapBlock_Timer) : Prop where
  expire : due.expiration now = some after.m_timeExpire.toInt
  frequency : period.period = some after.m_timeFrequency.toInt
  enabled : hasFlag after.m_flags c_EnabledTimer = true ↔ due ≠ .infinite
  recurring : hasFlag after.m_flags c_Recurring = true ↔
    period ≠ .infinite ∧ period ≠ .ticks 0
  lastExpiration : after.m_timeLastExpiration = before.m_timeLastExpiration

/-- The call installs what was asked for, or it fails and changes nothing. -/
def ChangesAtomically
    (clock : Clock)
    (allocates : Bool)
    (args : Nat → Argument)
    (input : TimeInput)
    (object : ManagedTimer) : Prop :=
  let result := object.ConfigureObject clock allocates args input.flags
  ∀ before, object.FIELD___timer = some before →
    ∃ after, result.2.FIELD___timer = some after ∧
      (result.1 = .S_OK ∧
          Installs clock.HAL_Time_CurrentTime ((args 0).requested input)
            ((args 1).requested input) before after ∨
        result.1 ≠ .S_OK ∧
          after.m_timeExpire = before.m_timeExpire ∧
          after.m_timeFrequency = before.m_timeFrequency ∧
          after.m_flags = before.m_flags)

/-! ## What a call leaves -/

/-- An argument as the timer holds it at first. -/
def Argument.stored (input : TimeInput) (argument : Argument) : Option Int64 :=
  match input with
  | .int32 =>
      some (if argument.s4.toInt64 = -1 then TIMEOUT_INFINITE
        else argument.s4.toInt64)
  | .timeSpan =>
      argument.GetValuePtr.map fun span =>
        if span = -c_TickPerMillisecond then TIMEOUT_INFINITE else span

/-- Ticks, out of what the timer holds at first. -/
def TimeInput.scaled (input : TimeInput) (time : Int64) : Int64 :=
  match input with
  | .int32 => time * TIME_CONVERSION__TO_MILLISECONDS
  | .timeSpan => time

section Change

variable
  {clock : Clock}
  {input : TimeInput}
  {argument first second : Argument}
  {timer : CLR_RT_HeapBlock_Timer}
  {time due period : Int64}

theorem int32_flags :
    hasFlag TimeInput.int32.flags c_INPUT_Int32 = true := by decide

theorem timeSpan_flags :
    hasFlag TimeInput.timeSpan.flags c_INPUT_Int32 = false := by decide

/-- A time that is held at first, in terms of the request. -/
theorem requested_eq (stored : argument.stored input = some time) :
    argument.requested input =
      if time = TIMEOUT_INFINITE then .infinite
      else .ticks (input.scaled time).toInt := by
  cases input with
  | int32 =>
      have lower : -2147483648 ≤ argument.s4.toInt :=
        argument.s4.minValue_le_toInt
      have upper : argument.s4.toInt ≤ 2147483647 := argument.s4.toInt_le
      rw [Argument.stored, Option.some.injEq] at stored
      have same : argument.s4.toInt64 = -1 ↔ argument.s4.toInt = -1 := by
        rw [← Int64.toInt_inj, Int32.toInt_toInt64]
        rfl
      rw [Argument.requested]
      by_cases none : argument.s4.toInt = -1
      · rw [if_pos (same.mpr none)] at stored
        simp only [if_pos none, ← stored, if_true]
      · rw [if_neg (mt same.mp none)] at stored
        have finite : time ≠ TIMEOUT_INFINITE := by
          intro infinite
          rw [← stored, ← Int64.toInt_inj, Int32.toInt_toInt64] at infinite
          have large : TIMEOUT_INFINITE.toInt = 0x7FFFFFFFFFFFFFFF := rfl
          omega
        simp only [if_neg none, if_neg finite]
        rw [TimeInput.scaled, ← stored, Int64.toInt_mul, Int32.toInt_toInt64]
        have factor : TIME_CONVERSION__TO_MILLISECONDS.toInt = 10000 := rfl
        rw [factor, Int.bmod_eq_of_le (by omega) (by omega)]
  | timeSpan =>
      rw [Argument.stored, Option.map_eq_some_iff] at stored
      have ⟨span, held, value⟩ := stored
      have same : span = -c_TickPerMillisecond ↔ span.toInt = -10000 := by
        rw [← Int64.toInt_inj]
        rfl
      rw [Argument.requested]
      simp only [held]
      by_cases none : span = -c_TickPerMillisecond
      · rw [if_pos none] at value
        rw [if_pos (Or.inl (same.mp none)), if_pos value.symm]
      · rw [if_neg none] at value
        rw [← value]
        by_cases infinite : span = TIMEOUT_INFINITE
        · rw [if_pos (Or.inr infinite), if_pos infinite]
        · rw [if_neg (not_or.mpr ⟨mt same.mpr none, infinite⟩),
            if_neg infinite]
          rfl

theorem requested_infinite_iff (stored : argument.stored input = some time) :
    argument.requested input = .infinite ↔ time = TIMEOUT_INFINITE := by
  rw [requested_eq stored]
  split
  case isTrue infinite => exact iff_of_true rfl infinite
  case isFalse finite => exact iff_of_false Request.noConfusion finite

theorem requested_zero_iff (stored : argument.stored input = some time) :
    argument.requested input = .ticks 0 ↔ time = 0 := by
  cases input with
  | int32 =>
      rw [Argument.stored, Option.some.injEq] at stored
      have same : argument.s4.toInt64 = -1 ↔ argument.s4.toInt = -1 := by
        rw [← Int64.toInt_inj, Int32.toInt_toInt64]
        rfl
      rw [Argument.requested]
      by_cases none : argument.s4.toInt = -1
      · rw [if_pos (same.mpr none)] at stored
        simp only [if_pos none, ← stored]
        exact iff_of_false Request.noConfusion (by decide)
      · rw [if_neg (mt same.mp none)] at stored
        simp only [if_neg none, ← stored]
        rw [← Int64.toInt_inj, Int32.toInt_toInt64, Int64.toInt_zero,
          Request.ticks.injEq]
        omega
  | timeSpan =>
      rw [requested_eq stored]
      split
      case isTrue infinite =>
        rw [infinite]
        exact iff_of_false Request.noConfusion (by decide)
      case isFalse finite =>
        rw [Request.ticks.injEq, ← Int64.toInt_inj]
        rfl

/-- Times in range, as the code checks them. -/
theorem inRange_iff :
    minTime ≤ time ∧ time ≤ maxTime ↔
      0 ≤ time.toInt ∧ time.toInt ≤ 0x7FFFFFFF * 10000 := by
  rw [Int64.le_iff_toInt_le, Int64.le_iff_toInt_le]
  exact Iff.rfl

theorem storeTimes_eq :
    timer.storeTimes input.flags first second =
      match first.stored input, second.stored input with
      | none, _ => (.CLR_E_NULL_REFERENCE, timer)
      | some due, none =>
          (.CLR_E_NULL_REFERENCE, { timer with m_timeExpire := due })
      | some due, some period =>
          (.S_OK,
            { timer with m_timeExpire := due, m_timeFrequency := period }) := by
  cases input with
  | int32 =>
      unfold CLR_RT_HeapBlock_Timer.storeTimes
      rw [if_pos int32_flags]
      simp only [Argument.stored]
      split <;> split <;> rfl
  | timeSpan =>
      unfold CLR_RT_HeapBlock_Timer.storeTimes
      rw [if_neg (Bool.eq_false_iff.mp timeSpan_flags), if_pos (by decide)]
      simp only [Argument.stored]
      cases first.GetValuePtr with
      | none => rfl
      | some due =>
          cases second.GetValuePtr with
          | none =>
              simp only [Option.map_some, Option.map_none]
              split <;> rfl
          | some period =>
              simp only [Option.map_some]
              split <;> split <;> rfl

theorem enableExpire_infinite (infinite : timer.m_timeExpire = TIMEOUT_INFINITE) :
    timer.enableExpire clock input.flags =
      (.S_OK, { timer with m_flags := timer.m_flags &&& ~~~c_EnabledTimer }) :=
  if_pos infinite

theorem enableExpire_finite (finite : timer.m_timeExpire ≠ TIMEOUT_INFINITE) :
    timer.enableExpire clock input.flags =
      let expire := input.scaled timer.m_timeExpire
      if minTime ≤ expire ∧ expire ≤ maxTime then
        (.S_OK,
          { timer with
            m_timeExpire := expire + clock.HAL_Time_CurrentTime.toInt64
            m_flags := timer.m_flags ||| c_EnabledTimer })
      else
        (.CLR_E_OUT_OF_RANGE, { timer with m_timeExpire := expire }) := by
  rw [CLR_RT_HeapBlock_Timer.enableExpire, if_neg finite]
  cases input with
  | int32 =>
      simp only [int32_flags, if_true]
      rfl
  | timeSpan =>
      simp only [timeSpan_flags, Bool.false_eq_true, if_false]
      rfl

theorem enableFrequency_none
    (none : timer.m_timeFrequency = 0 ∨
      timer.m_timeFrequency = TIMEOUT_INFINITE) :
    timer.enableFrequency input.flags =
      (.S_OK, { timer with m_flags := timer.m_flags &&& ~~~c_Recurring }) :=
  if_pos none

theorem enableFrequency_some
    (finite : ¬ (timer.m_timeFrequency = 0 ∨
      timer.m_timeFrequency = TIMEOUT_INFINITE)) :
    timer.enableFrequency input.flags =
      let period := input.scaled timer.m_timeFrequency
      if minTime ≤ period ∧ period ≤ maxTime then
        (.S_OK,
          { timer with
            m_timeFrequency := period
            m_flags := timer.m_flags ||| c_Recurring })
      else
        (.CLR_E_OUT_OF_RANGE, { timer with m_timeFrequency := period }) := by
  rw [CLR_RT_HeapBlock_Timer.enableFrequency, if_neg finite]
  cases input with
  | int32 =>
      simp only [int32_flags, if_true]
      rfl
  | timeSpan =>
      simp only [timeSpan_flags, Bool.false_eq_true, if_false]
      rfl

/-! ## The whole call -/

/-- The due time as the timer holds it once it is enabled. -/
def TimeInput.installed (input : TimeInput) (now : UInt64) (due : Int64) :
    Int64 :=
  if due = TIMEOUT_INFINITE then TIMEOUT_INFINITE
  else input.scaled due + now.toInt64

/-- The flags after the due time was set. -/
def enabledFlags (flags : BitVec 32) (due : Int64) : BitVec 32 :=
  if due = TIMEOUT_INFINITE then flags &&& ~~~c_EnabledTimer
  else flags ||| c_EnabledTimer

/-- The flags after the period was set. -/
def recurringFlags (flags : BitVec 32) (period : Int64) : BitVec 32 :=
  if period = 0 ∨ period = TIMEOUT_INFINITE then flags &&& ~~~c_Recurring
  else flags ||| c_Recurring

theorem requested_inRange_iff (stored : argument.stored input = some time) :
    (argument.requested input).InRange ↔
      time = TIMEOUT_INFINITE ∨
        minTime ≤ input.scaled time ∧ input.scaled time ≤ maxTime := by
  rw [requested_eq stored, inRange_iff]
  by_cases infinite : time = TIMEOUT_INFINITE
  · rw [if_pos infinite]
    exact iff_of_true trivial (Or.inl infinite)
  · rw [if_neg infinite]
    exact (or_iff_right infinite).symm

theorem scaled_zero : input.scaled 0 = 0 := by
  cases input <;> rfl

theorem change_fixed (fixed : hasFlag timer.m_flags c_AnyChange = true) :
    timer.change clock input.flags first second =
      (.CLR_E_INVALID_PARAMETER, timer) :=
  if_pos fixed

theorem change_eq (free : hasFlag timer.m_flags c_AnyChange = false) :
    timer.change clock input.flags first second =
      CLR_RT_HeapBlock_Timer.andThen
        (CLR_RT_HeapBlock_Timer.andThen
          (timer.storeTimes input.flags first second)
          (CLR_RT_HeapBlock_Timer.enableExpire clock input.flags))
        (CLR_RT_HeapBlock_Timer.enableFrequency input.flags) :=
  if_neg (Bool.eq_false_iff.mp free)

theorem change_firstMissing
    (free : hasFlag timer.m_flags c_AnyChange = false)
    (missing : first.stored input = none) :
    timer.change clock input.flags first second =
      (.CLR_E_NULL_REFERENCE, timer) := by
  rw [change_eq free, storeTimes_eq, missing]
  rfl

theorem change_secondMissing
    (free : hasFlag timer.m_flags c_AnyChange = false)
    (dueStored : first.stored input = some due)
    (missing : second.stored input = none) :
    timer.change clock input.flags first second =
      (.CLR_E_NULL_REFERENCE, { timer with m_timeExpire := due }) := by
  rw [change_eq free, storeTimes_eq, dueStored, missing]
  rfl

theorem change_dueOutOfRange
    (free : hasFlag timer.m_flags c_AnyChange = false)
    (dueStored : first.stored input = some due)
    (periodStored : second.stored input = some period)
    (outside : ¬ (first.requested input).InRange) :
    timer.change clock input.flags first second =
      (.CLR_E_OUT_OF_RANGE,
        { timer with
          m_timeExpire := input.scaled due
          m_timeFrequency := period }) := by
  rw [requested_inRange_iff dueStored, not_or] at outside
  rw [change_eq free, storeTimes_eq, dueStored, periodStored]
  dsimp only [CLR_RT_HeapBlock_Timer.andThen]
  rw [enableExpire_finite outside.1]
  dsimp only
  rw [if_neg outside.2]

/-- The due time is in range, so that it is installed. -/
theorem enableExpire_inRange
    (held : timer.m_timeExpire = due)
    (inside : due = TIMEOUT_INFINITE ∨
      minTime ≤ input.scaled due ∧ input.scaled due ≤ maxTime) :
    timer.enableExpire clock input.flags =
      (.S_OK,
        { timer with
          m_timeExpire := input.installed clock.HAL_Time_CurrentTime due
          m_flags := enabledFlags timer.m_flags due }) := by
  subst held
  by_cases infinite : timer.m_timeExpire = TIMEOUT_INFINITE
  · rw [enableExpire_infinite infinite, TimeInput.installed, enabledFlags,
      if_pos infinite, if_pos infinite]
    simp only [← infinite]
  · rw [enableExpire_finite infinite, TimeInput.installed, enabledFlags,
      if_neg infinite, if_neg infinite]
    dsimp only
    rw [if_pos (inside.resolve_left infinite)]

theorem change_periodOutOfRange
    (free : hasFlag timer.m_flags c_AnyChange = false)
    (dueStored : first.stored input = some due)
    (periodStored : second.stored input = some period)
    (dueInside : (first.requested input).InRange)
    (outside : ¬ (second.requested input).InRange) :
    timer.change clock input.flags first second =
      (.CLR_E_OUT_OF_RANGE,
        { timer with
          m_timeExpire := input.installed clock.HAL_Time_CurrentTime due
          m_timeFrequency := input.scaled period
          m_flags := enabledFlags timer.m_flags due }) := by
  rw [requested_inRange_iff dueStored] at dueInside
  rw [requested_inRange_iff periodStored, not_or] at outside
  have some : ¬ (period = 0 ∨ period = TIMEOUT_INFINITE) := by
    rintro (none | infinite)
    · apply outside.2
      rw [none, scaled_zero]
      decide
    · exact outside.1 infinite
  rw [change_eq free, storeTimes_eq, dueStored, periodStored]
  dsimp only [CLR_RT_HeapBlock_Timer.andThen]
  rw [enableExpire_inRange rfl dueInside]
  dsimp only
  rw [enableFrequency_some some]
  dsimp only
  rw [if_neg outside.2]

theorem change_inRange
    (free : hasFlag timer.m_flags c_AnyChange = false)
    (dueStored : first.stored input = some due)
    (periodStored : second.stored input = some period)
    (dueInside : (first.requested input).InRange)
    (periodInside : (second.requested input).InRange) :
    timer.change clock input.flags first second =
      (.S_OK,
        { timer with
          m_timeExpire := input.installed clock.HAL_Time_CurrentTime due
          m_timeFrequency :=
            if period = TIMEOUT_INFINITE then TIMEOUT_INFINITE
            else input.scaled period
          m_flags :=
            recurringFlags (enabledFlags timer.m_flags due) period }) := by
  rw [requested_inRange_iff dueStored] at dueInside
  rw [requested_inRange_iff periodStored] at periodInside
  rw [change_eq free, storeTimes_eq, dueStored, periodStored]
  dsimp only [CLR_RT_HeapBlock_Timer.andThen]
  rw [enableExpire_inRange rfl dueInside]
  dsimp only
  by_cases none : period = 0 ∨ period = TIMEOUT_INFINITE
  · rw [enableFrequency_none none, recurringFlags, if_pos none]
    rcases none with rfl | rfl
    · rw [if_neg (by decide), scaled_zero]
    · rw [if_pos rfl]
  · rw [enableFrequency_some none, recurringFlags, if_neg none]
    dsimp only
    rw [not_or] at none
    rw [if_pos (periodInside.resolve_left none.2), if_neg none.2]

theorem enabled_after (flags : BitVec 32) :
    hasFlag (recurringFlags (enabledFlags flags due) period) c_EnabledTimer =
        true ↔
      due ≠ TIMEOUT_INFINITE := by
  have recurring : ∀ flags : BitVec 32,
      hasFlag (recurringFlags flags period) c_EnabledTimer =
        hasFlag flags c_EnabledTimer := by
    intro flags
    unfold recurringFlags
    split
    · exact hasFlag_clear_other (by decide)
    · exact hasFlag_or_other (by decide)
  rw [recurring, enabledFlags]
  split
  case isTrue infinite =>
    rw [hasFlag_clear_self]
    exact iff_of_false Bool.false_ne_true fun finite => finite infinite
  case isFalse finite =>
    rw [hasFlag_or_self (by decide)]
    exact iff_of_true rfl finite

theorem recurring_after (flags : BitVec 32) :
    hasFlag (recurringFlags flags period) c_Recurring = true ↔
      ¬ (period = 0 ∨ period = TIMEOUT_INFINITE) := by
  unfold recurringFlags
  split
  case isTrue none =>
    rw [hasFlag_clear_self]
    exact iff_of_false Bool.false_ne_true fun some => some none
  case isFalse some =>
    rw [hasFlag_or_self (by decide)]
    exact iff_of_true rfl some

theorem enabledFlags_eq (flags : BitVec 32) :
    enabledFlags flags due = flags ↔
      (hasFlag flags c_EnabledTimer = true ↔ due ≠ TIMEOUT_INFINITE) := by
  unfold enabledFlags
  split
  case isTrue infinite =>
    rw [enabled_clear_self, Bool.eq_false_iff]
    simp [infinite]
  case isFalse finite =>
    rw [enabled_or_self]
    simp [finite]

/-- The sum of the clock and a due time in range, as a signed word. -/
theorem installed_toInt
    (now : UInt64)
    (finite : time ≠ TIMEOUT_INFINITE)
    (inside : minTime ≤ input.scaled time ∧ input.scaled time ≤ maxTime) :
    (input.installed now time).toInt = now.toNat + (input.scaled time).toInt ↔
      now.toNat + (input.scaled time).toInt < 2 ^ 63 := by
  rw [inRange_iff] at inside
  have clock := now.toNat_lt
  have signed : now.toInt64.toInt = (now.toNat : Int).bmod (2 ^ 64) :=
    BitVec.toInt_eq_toNat_bmod now.toBitVec
  rw [TimeInput.installed, if_neg finite, Int64.toInt_add, signed,
    Int.add_bmod_bmod, Int.add_comm]
  constructor
  · intro same
    have bound : ((now.toNat : Int) + (input.scaled time).toInt).bmod (2 ^ 64) <
        2 ^ 63 := Int.bmod_lt (by decide)
    rw [same] at bound
    exact bound
  · intro small
    exact Int.bmod_eq_of_le (by omega) (by omega)

end Change

/-- A call that fails changes nothing only if it is refused before it stores
anything, or if the timer holds already what it stores; a call that succeeds
installs the expiration as long as the clock does not run out. -/
def ChangeSafe
    (now : UInt64)
    (input : TimeInput)
    (first second : Argument)
    (timer : CLR_RT_HeapBlock_Timer) : Prop :=
  hasFlag timer.m_flags c_AnyChange = true ∨
    match first.stored input, second.stored input with
    | none, _ => True
    | some due, none => timer.m_timeExpire = due
    | some due, some period =>
        if ¬ (first.requested input).InRange then
          timer.m_timeExpire = input.scaled due ∧
            timer.m_timeFrequency = period
        else if ¬ (second.requested input).InRange then
          timer.m_timeExpire = input.installed now due ∧
            timer.m_timeFrequency = input.scaled period ∧
            (hasFlag timer.m_flags c_EnabledTimer = true ↔
              due ≠ TIMEOUT_INFINITE)
        else
          due = TIMEOUT_INFINITE ∨
            now.toNat + (input.scaled due).toInt < 2 ^ 63

section ChangesAtomically

variable
  {clock : Clock}
  {allocates : Bool}
  {args : Nat → Argument}
  {input : TimeInput}
  {object : ManagedTimer}
  {before after : CLR_RT_HeapBlock_Timer}
  {outcome : HResult}

/-- `Timer.Change` finds the timer and changes it. -/
theorem configureObject_eq (held : object.FIELD___timer = some before) :
    object.ConfigureObject clock allocates args input.flags =
      ((before.change clock input.flags (args 0) (args 1)).1,
        { object with
          FIELD___timer := some
            (before.change clock input.flags (args 0) (args 1)).2 }) := by
  have create : hasFlag input.flags c_ACTION_Create = false := by
    cases input <;> decide
  have change : hasFlag input.flags c_ACTION_Change = true := by
    cases input <;> decide
  have destroy : hasFlag input.flags c_ACTION_Destroy = false := by
    cases input <;> decide
  have configured :
      before.configure clock input.flags (args 0) (args 1) =
        before.change clock input.flags (args 0) (args 1) := by
    unfold CLR_RT_HeapBlock_Timer.configure
    simp only [create, change, destroy, Bool.false_and, Bool.false_eq_true,
      if_false, if_true]
  rw [ManagedTimer.ConfigureObject]
  simp only [create, Bool.false_eq_true, if_false, held, configured]

theorem changesAtomically_iff_unchanged
    (held : object.FIELD___timer = some before)
    (result : before.change clock input.flags (args 0) (args 1) =
      (outcome, after))
    (fails : outcome ≠ .S_OK) :
    ChangesAtomically clock allocates args input object ↔
      after.m_timeExpire = before.m_timeExpire ∧
        after.m_timeFrequency = before.m_timeFrequency ∧
        after.m_flags = before.m_flags := by
  unfold ChangesAtomically
  dsimp only
  simp only [configureObject_eq held, result, held, Option.some.injEq,
    forall_eq', exists_eq_left', fails, false_and, false_or, ne_eq,
    not_false_eq_true, true_and]

theorem changesAtomically_iff_installs
    (held : object.FIELD___timer = some before)
    (result : before.change clock input.flags (args 0) (args 1) =
      (.S_OK, after)) :
    ChangesAtomically clock allocates args input object ↔
      Installs clock.HAL_Time_CurrentTime ((args 0).requested input)
        ((args 1).requested input) before after := by
  unfold ChangesAtomically
  dsimp only
  simp only [configureObject_eq held, result, held, Option.some.injEq,
    forall_eq', exists_eq_left', true_and, ne_eq, not_true, false_and,
    or_false]

/-- A call that succeeds installs the period, and the expiration unless the
clock has run out. -/
theorem installs_iff
    {due period : Int64}
    (dueStored : (args 0).stored input = some due)
    (periodStored : (args 1).stored input = some period)
    (dueInside : ((args 0).requested input).InRange)
    (now : UInt64) :
    Installs now ((args 0).requested input) ((args 1).requested input) before
        { before with
          m_timeExpire := input.installed now due
          m_timeFrequency :=
            if period = TIMEOUT_INFINITE then TIMEOUT_INFINITE
            else input.scaled period
          m_flags :=
            recurringFlags (enabledFlags before.m_flags due) period } ↔
      (due = TIMEOUT_INFINITE ∨
        now.toNat + (input.scaled due).toInt < 2 ^ 63) := by
  have expiration : ((args 0).requested input).expiration now =
        some (input.installed now due).toInt ↔
      (due = TIMEOUT_INFINITE ∨
        now.toNat + (input.scaled due).toInt < 2 ^ 63) := by
    rw [requested_inRange_iff dueStored] at dueInside
    rw [requested_eq dueStored]
    by_cases infinite : due = TIMEOUT_INFINITE
    · rw [if_pos infinite, TimeInput.installed, if_pos infinite]
      exact iff_of_true rfl (Or.inl infinite)
    · rw [if_neg infinite, or_iff_right infinite,
        ← installed_toInt now infinite (dueInside.resolve_left infinite)]
      exact Option.some_inj.trans eq_comm
  have frequency : ((args 1).requested input).period =
      some (if period = TIMEOUT_INFINITE then TIMEOUT_INFINITE
        else input.scaled period).toInt := by
    rw [requested_eq periodStored]
    split <;> rfl
  constructor
  · intro installs
    exact expiration.mp installs.expire
  · intro inTime
    refine ⟨expiration.mpr inTime, frequency, ?_, ?_, rfl⟩
    · rw [enabled_after, Ne, Ne, requested_infinite_iff dueStored]
    · rw [recurring_after, Ne, Ne, requested_infinite_iff periodStored,
        requested_zero_iff periodStored, not_or, and_comm]

end ChangesAtomically

/-- A running timer of one second. -/
def runningTimer : CLR_RT_HeapBlock_Timer where
  m_flags := c_EnabledTimer ||| c_Recurring
  m_timeExpire := 20000000
  m_timeFrequency := 10000000
  m_timeLastExpiration := 10000000
  m_ticksLastExpiration := 10000000

/-- A due time of minus five milliseconds is refused, and the enabled timer
keeps it as its expiration, beside a period that is not in ticks. -/
theorem change_keepsNegativeExpiration :
    let clock : Clock :=
      ⟨15000000, fun _ => ⟨1601, 1, 1, 0, 0, 1, 500⟩, fun _ => 15000000⟩
    let args : Nat → Argument := fun index =>
      if index = 0 then ⟨none, -5, none⟩ else ⟨none, 250, none⟩
    let object : ManagedTimer := ⟨some runningTimer, args 0, args 0⟩
    let result := object.ConfigureObject clock true args TimeInput.int32.flags
    result.1 = .CLR_E_OUT_OF_RANGE ∧
      result.2.FIELD___timer =
        some
          { runningTimer with
            m_timeExpire := -50000
            m_timeFrequency := 250 } ∧
      ¬ ChangesAtomically clock true args .int32 object := by
  intro clock args object result
  have left : result.2.FIELD___timer =
      some
        { runningTimer with
          m_timeExpire := -50000
          m_timeFrequency := 250 } := by decide
  refine ⟨by decide, left, ?_⟩
  intro atomic
  have ⟨after, held, kept⟩ := atomic runningTimer rfl
  have same := Option.some.inj (held.symm.trans left)
  rcases kept with ⟨succeeds, _⟩ | ⟨_, expire, _⟩
  · exact absurd succeeds (by decide)
  · rw [same] at expire
    exact absurd expire (by decide)

/-- `Timer.Change` installs what is asked for, or fails and leaves the timer as
it was, in exactly the cases of `ChangeSafe`. -/
theorem changesAtomically_iff
    (clock : Clock)
    (allocates : Bool)
    (args : Nat → Argument)
    (input : TimeInput)
    (object : ManagedTimer) :
    ChangesAtomically clock allocates args input object ↔
      ∀ timer, object.FIELD___timer = some timer →
        ChangeSafe clock.HAL_Time_CurrentTime input (args 0) (args 1) timer := by
  cases held : object.FIELD___timer with
  | none =>
      unfold ChangesAtomically
      simp [held]
  | some before =>
      simp only [Option.some.injEq, forall_eq']
      unfold ChangeSafe
      cases fixed : hasFlag before.m_flags c_AnyChange with
      | true =>
          rw [changesAtomically_iff_unchanged held (change_fixed fixed)
            HResult.noConfusion]
          simp
      | false =>
          rw [or_iff_right Bool.false_ne_true]
          cases dueStored : (args 0).stored input with
          | none =>
              rw [changesAtomically_iff_unchanged held
                (change_firstMissing fixed dueStored) HResult.noConfusion]
              simp
          | some due =>
              cases periodStored : (args 1).stored input with
              | none =>
                  rw [changesAtomically_iff_unchanged held
                    (change_secondMissing fixed dueStored periodStored)
                    HResult.noConfusion]
                  simp [eq_comm]
              | some period =>
                  dsimp only
                  split
                  case isTrue outside =>
                    rw [changesAtomically_iff_unchanged held
                      (change_dueOutOfRange fixed dueStored periodStored
                        outside)
                      HResult.noConfusion]
                    simp [eq_comm]
                  case isFalse inside =>
                    rw [not_not] at inside
                    split
                    case isTrue outside =>
                      rw [changesAtomically_iff_unchanged held
                        (change_periodOutOfRange fixed dueStored periodStored
                          inside outside)
                        HResult.noConfusion]
                      dsimp only
                      rw [enabledFlags_eq, eq_comm, eq_comm (a := input.scaled _)]
                    case isFalse periodInside =>
                      rw [not_not] at periodInside
                      rw [changesAtomically_iff_installs held
                        (change_inRange fixed dueStored periodStored inside
                          periodInside)]
                      exact installs_iff dueStored periodStored inside _

end Timers

end NanoClr
