import NanoClr.Scheduling.ExecutionCounters

/-!
# Runs of the execution counters

In no run of threads with valid priorities does a counter wrap around.
-/

namespace NanoClr

namespace Scheduling

open CLR_RT_ExecutionEngine

/-! ## Runs -/

section Runs

/-- The lowest value of the global counter when so many quanta are left of a
call of `ScheduleThreads`. -/
def lowestGlobal (MaxContextSwitches : UInt16) (maxContextSwitch : Nat) : Int :=
  -EXECUTION_COUNTER_MAXIMUM -
    33 * ((MaxContextSwitches.toNat : Int) - maxContextSwitch)

/-- The invariant of the scheduler. -/
structure SchedulerBounded (MaxContextSwitches : UInt16)
    (scheduler : Scheduler) : Prop where
  few : scheduler.maxContextSwitch ≤ MaxContextSwitches.toNat
  counters : CountersBounded
    (lowestGlobal MaxContextSwitches scheduler.maxContextSwitch)
    scheduler.engine

variable {MaxContextSwitches : UInt16} {scheduler : Scheduler}
  {call : EngineCall}

theorem lowestGlobal_above {maxContextSwitch : Nat} :
    -0x78000000 ≤ lowestGlobal MaxContextSwitches maxContextSwitch := by
  have most := MaxContextSwitches.toNat_lt
  have isMaximum : EXECUTION_COUNTER_MAXIMUM = 0x70000000 := rfl
  unfold lowestGlobal
  omega

theorem CountersBounded.mono
    {lowest lower : Int}
    {engine : CLR_RT_ExecutionEngine}
    (bounded : CountersBounded lowest engine)
    (atMost : lower ≤ lowest) :
    CountersBounded lower engine :=
  ⟨Int.le_trans atMost bounded.low, bounded.high, bounded.threads,
    bounded.apart⟩

theorem nextThread_linked
    {engine : CLR_RT_ExecutionEngine}
    {th : Nat}
    (isNext : engine.nextThread = some th) :
    engine.linked th = true := by
  have ofFirst (isFirst : engine.firstReady = some th) :
      engine.linked th = true :=
    linked_iff.mpr (Or.inl (List.mem_of_head? (firstReady_some isFirst).2))
  unfold nextThread at isNext
  split at isNext
  · split at isNext
    case isTrue runs =>
      cases isNext
      exact runs.2
    case isFalse => exact ofFirst isNext
  · exact ofFirst isNext

/-- A call that is neither a quantum nor the check of the global counter. -/
theorem CountersBounded.after
    {lowest : Int}
    {engine : CLR_RT_ExecutionEngine}
    (bounded : CountersBounded lowest engine)
    (allows : engine.Allows call)
    (valid : GivesValidPriority call)
    (notCheck : call ≠ .adjustCounters)
    (notQuantum : ∀ th, call ≠ .execute th) :
    CountersBounded lowest (engine.after call) := by
  cases call with
  | newThread th priority system hasDelegate =>
      exact bounded.newThread allows valid
  | pushThreadProcDelegate th =>
      exact bounded.modifyAndPut (bounded.threads th (Or.inl allows)) rfl rfl
  | restart th =>
      exact bounded.modifyAndPut (bounded.threads th (Or.inl allows)) rfl rfl
  | suspend th =>
      dsimp only [CLR_RT_ExecutionEngine.after]
      rw [Suspend]
      split
      · exact bounded.modifyAndPut (bounded.threads th (Or.inl allows)) rfl rfl
      · exact bounded
  | resume th =>
      dsimp only [CLR_RT_ExecutionEngine.after]
      rw [Resume]
      split
      · exact bounded.modifyAndPut (bounded.threads th (Or.inl allows)) rfl rfl
      · exact bounded
  | terminate th =>
      exact bounded.modifyAndPut (bounded.threads th (Or.inl allows)) rfl rfl
  | abort th =>
      dsimp only [CLR_RT_ExecutionEngine.after]
      rw [Abort]
      split
      · exact bounded.modifyAndPut (bounded.threads th (Or.inl allows)) rfl rfl
      · exact bounded
  | setThreadPriority th threadPri =>
      dsimp only [CLR_RT_ExecutionEngine.after, SetThreadPriority]
      apply bounded.modifyThread
      intro active
      have own := bounded.threads th active
      exact ⟨own.low, own.high, valid⟩
  | setCctorThread cctor =>
      exact ⟨bounded.low, bounded.high, bounded.threads, bounded.apart⟩
  | release th => exact bounded.unlink
  | adjustCounters => exact absurd rfl notCheck
  | execute th => exact absurd rfl (notQuantum th)
  | sleepZero th => exact bounded.sleepZero
  | setStatus th m_status => exact bounded.setStatus
  | quantumEnds th hr => exact bounded.quantumEnds allows

theorem SchedulerBounded.step
    (bounded : SchedulerBounded MaxContextSwitches scheduler)
    (allows : scheduler.Allows call)
    (valid : GivesValidPriority call) :
    SchedulerBounded MaxContextSwitches
      (scheduler.after MaxContextSwitches call) := by
  obtain ⟨allows, switches⟩ := allows
  have counters := bounded.counters
  have few := bounded.few
  have above := @lowestGlobal_above MaxContextSwitches
    scheduler.maxContextSwitch
  by_cases isCheck : call = .adjustCounters
  · rw [isCheck] at allows ⊢
    refine ⟨Nat.le_refl _, ?_⟩
    apply (counters.adjustCounters (by omega) allows).mono
    dsimp only [Scheduler.after]
    unfold lowestGlobal
    omega
  by_cases isQuantum : ∃ th, call = .execute th
  · obtain ⟨th, isExecute⟩ := isQuantum
    rw [isExecute] at allows switches ⊢
    dsimp only at switches
    refine ⟨Nat.le_trans (Nat.sub_le _ _) few, ?_⟩
    apply (counters.quantumBegins (nextThread_linked allows)).mono
    dsimp only [Scheduler.after]
    unfold lowestGlobal
    omega
  · have notQuantum : ∀ th, call ≠ .execute th := by
      intro th isExecute
      exact isQuantum ⟨th, isExecute⟩
    have same : (scheduler.after MaxContextSwitches call).maxContextSwitch =
        scheduler.maxContextSwitch := by
      cases call with
      | adjustCounters => exact absurd rfl isCheck
      | execute th => exact absurd rfl (notQuantum th)
      | _ => rfl
    refine ⟨same.symm ▸ few, ?_⟩
    rw [same]
    exact counters.after allows valid isCheck notQuantum

theorem schedulerStart_bounded
    (starts : SchedulerStart scheduler) :
    SchedulerBounded MaxContextSwitches scheduler := by
  obtain ⟨⟨ready, waiting, zombie, global, -, running⟩, noneLeft⟩ := starts
  have isMaximum : EXECUTION_COUNTER_MAXIMUM = 0x70000000 := rfl
  refine ⟨by omega, ?_⟩
  constructor
  · rw [global, lowestGlobal]
    omega
  · exact Int.le_of_eq global
  · rintro th (linked | runs)
    · rw [linked_iff, ready, waiting, zombie] at linked
      rcases linked with member | member | member <;> cases member
    · rw [running] at runs
      cases runs
  · intro th inReady
    rw [ready] at inReady
    cases inReady

/-! ## The range -/

section Range

variable {lowest : Int} {engine : CLR_RT_ExecutionEngine} {th : Nat}

theorem bounded_inRange
    {thread : CLR_RT_Thread}
    {iGlobalExecutionCounter : Int}
    (own : thread.Bounded iGlobalExecutionCounter)
    (above : -0x78000000 ≤ iGlobalExecutionCounter) :
    InRange thread.m_executionCounter ∧
      InRange thread.GetExecutionCounter := by
  have low := own.low
  have high := own.high
  have isHighest : (System_Highest : Int) = 5 := rfl
  obtain ⟨lowPriority, highPriority⟩ := own.valid
  unfold InRange CLR_RT_Thread.GetExecutionCounter
  omega

theorem debitValues_inRange
    {thread : CLR_RT_Thread}
    (valid : ValidPriority thread.m_priority) :
    ∀ value ∈ thread.debitValues, InRange value := by
  have debit := CountersBounded.debit_bounds valid
  have isHighest : (System_Highest : Int) = 5 := rfl
  obtain ⟨lowPriority, highPriority⟩ := valid
  unfold CLR_RT_Thread.debitValues InRange
  simp only [List.forall_mem_cons, List.not_mem_nil, false_implies,
    implies_true, and_true]
  omega

theorem creditValues_inRange
    {thread : CLR_RT_Thread}
    {iGlobalExecutionCounter : Int}
    (low : iGlobalExecutionCounter - 1 ≤ thread.m_executionCounter)
    (high : thread.m_executionCounter - iGlobalExecutionCounter < 2 ^ 31)
    (above : -0x78000000 ≤ iGlobalExecutionCounter)
    (below : iGlobalExecutionCounter ≤ 0) :
    ∀ value ∈ thread.creditValues iGlobalExecutionCounter, InRange value := by
  have isCredit := CountersBounded.maximumCredit_eq
  unfold CLR_RT_Thread.creditValues InRange
  simp only [List.forall_mem_cons, List.not_mem_nil, false_implies,
    implies_true, and_true]
  omega

theorem adjustValues_inRange
    {thread : CLR_RT_Thread}
    (own : thread.Bounded engine.m_GlobalExecutionCounter)
    (above : -0x78000000 ≤ engine.m_GlobalExecutionCounter)
    (low : engine.m_GlobalExecutionCounter < -EXECUTION_COUNTER_MAXIMUM) :
    ∀ value ∈ thread.adjustValues
      (engine.m_GlobalExecutionCounter + EXECUTION_COUNTER_ADJUSTMENT),
      InRange value := by
  have isMaximum : EXECUTION_COUNTER_MAXIMUM = 0x70000000 := rfl
  have isAdjustment : EXECUTION_COUNTER_ADJUSTMENT = 0x60000000 := rfl
  have lowOwn := own.low
  have highOwn := own.high
  unfold CLR_RT_Thread.adjustValues
  dsimp only
  rw [List.cons_append, List.forall_mem_cons, List.forall_mem_append]
  refine ⟨?_, debitValues_inRange own.valid, ?_⟩
  · unfold InRange
    omega
  · apply creditValues_inRange
    · dsimp only
      omega
    · dsimp only
      omega
    · omega
    · omega

theorem CountersBounded.computed_inRange
    (bounded : CountersBounded lowest engine)
    (above : -0x78000000 ≤ lowest)
    (allows : engine.Allows call) :
    ∀ value ∈ engine.computed call, InRange value := by
  have isMaximum : EXECUTION_COUNTER_MAXIMUM = 0x70000000 := rfl
  have isAdjustment : EXECUTION_COUNTER_ADJUSTMENT = 0x60000000 := rfl
  have low := bounded.low
  have high := bounded.high
  cases call with
  | adjustCounters =>
      dsimp only [computed]
      split
      case isFalse => exact nofun
      case isTrue isLow =>
        rw [List.forall_mem_cons]
        refine ⟨?_, ?_⟩
        · unfold InRange
          omega
        · intro value member
          obtain ⟨th, listed, member⟩ := List.mem_flatMap.mp member
          have linked : engine.linked th = true := by
            rw [linked_iff]
            rw [List.mem_append, List.mem_append, or_assoc] at listed
            exact listed
          exact adjustValues_inRange (bounded.threads th (Or.inl linked))
            (by omega) isLow value member
  | execute th =>
      have own := bounded.threads th (Or.inl (nextThread_linked allows))
      have lowOwn := own.low
      have highOwn := own.high
      have debit := CountersBounded.debit_bounds own.valid
      have isCredit := CountersBounded.maximumCredit_eq
      dsimp only [computed]
      rw [List.forall_mem_append, List.forall_mem_append,
        List.forall_mem_singleton,
        CountersBounded.bringExecCounterToDate_counter]
      refine ⟨⟨debitValues_inRange own.valid, ?_⟩, ?_⟩
      · exact creditValues_inRange lowOwn (by omega) (by omega) high
      · unfold InRange
        omega
  | sleepZero th =>
      dsimp only [computed]
      rw [List.forall_mem_singleton]
      unfold InRange
      omega
  | _ => exact nofun

/-- A ready thread once the counters are adjusted. -/
theorem CountersBounded.adjustCounters_ready
    (bounded : CountersBounded lowest engine)
    (isReady : th ∈ engine.m_threadsReady)
    (low : engine.m_GlobalExecutionCounter < -EXECUTION_COUNTER_MAXIMUM) :
    (engine.adjustCounters.threads th).m_executionCounter =
        min (engine.threads th).m_executionCounter
          (engine.m_GlobalExecutionCounter + CLR_RT_Thread.maximumCredit) +
        EXECUTION_COUNTER_ADJUSTMENT ∧
      (engine.adjustCounters.threads th).m_priority =
        (engine.threads th).m_priority := by
  obtain ⟨notWaiting, notZombie⟩ := bounded.apart th isReady
  rw [CountersBounded.threads_adjustCounters low]
  dsimp only
  rw [if_neg notZombie, if_neg notWaiting, if_pos isReady,
    CountersBounded.adjusted_counter]
  refine ⟨by omega, ?_⟩
  rw [CountersBounded.adjusted, CountersBounded.bringExecCounterToDate_priority]

theorem CountersBounded.rescalesInOrder
    (bounded : CountersBounded lowest engine) :
    RescalesInOrder engine := by
  by_cases low : engine.m_GlobalExecutionCounter < -EXECUTION_COUNTER_MAXIMUM
  · constructor
    · exact fun th isReady _ => (bounded.adjustCounters_ready isReady low).1
    · intro th isReady other isReadyOther order
      rw [(bounded.adjustCounters_ready isReady low).1,
        (bounded.adjustCounters_ready isReadyOther low).1]
      omega
    · intro th isReady other isReadyOther noCredit
      have first := bounded.adjustCounters_ready isReady low
      have second := bounded.adjustCounters_ready isReadyOther low
      have within := noCredit th List.mem_cons_self
      have withinOther := noCredit other
        (List.mem_cons_of_mem th List.mem_cons_self)
      unfold counter CLR_RT_Thread.GetExecutionCounter
      omega
  · have same : engine.adjustCounters = engine := if_neg low
    constructor
    · exact fun th _ isLow => absurd isLow low
    · rw [same]
      exact fun th _ other _ order => order
    · rw [same]
      exact fun th _ other _ _ => Iff.rfl

end Range

theorem SchedulerBounded.inRange
    (bounded : SchedulerBounded MaxContextSwitches scheduler) :
    CountersInRange scheduler := by
  have above := @lowestGlobal_above MaxContextSwitches
    scheduler.maxContextSwitch
  have low := bounded.counters.low
  have high := bounded.counters.high
  constructor
  · unfold InRange
    omega
  · intro th active
    exact bounded_inRange (bounded.counters.threads th active) (by omega)
  · intro call allows
    exact bounded.counters.computed_inRange above allows

/-- In every run whose threads have the priorities of `ThreadPriority`, no
counter wraps around, and the check of the global counter keeps the counters of
the ready threads in order except that it cuts off their credit. -/
theorem executionCounters_inRange
    {taken : List (Scheduler × EngineCall)}
    (run : Run SchedulerStart (SchedulerStep MaxContextSwitches) taken
      scheduler)
    (valid : ∀ entry ∈ taken, GivesValidPriority entry.2) :
    CountersInRange scheduler ∧ RescalesInOrder scheduler.engine := by
  have bounded : SchedulerBounded MaxContextSwitches scheduler := by
    apply run.invariant_of (SchedulerBounded MaxContextSwitches)
      (fun _ call => GivesValidPriority call) _ _ valid
    · exact fun _ starts => schedulerStart_bounded starts
    · rintro _ _ _ bounded valid ⟨allows, rfl⟩
      exact bounded.step allows valid
  exact ⟨bounded.inRange, bounded.counters.rescalesInOrder⟩

end Runs

/-! ## Some runs -/

/-- A scheduler that some run leads to, with calls that meet a condition. -/
def Reached (condition : EngineCall → Prop) (scheduler : Scheduler) : Prop :=
  ∃ taken, Run SchedulerStart (SchedulerStep 50) taken scheduler ∧
    ∀ entry ∈ taken, condition entry.2

section Reached

variable {condition : EngineCall → Prop} {scheduler : Scheduler}

theorem Reached.next
    (reached : Reached condition scheduler)
    (call : EngineCall)
    (allows : scheduler.Allows call)
    (meets : condition call) :
    Reached condition (scheduler.after 50 call) := by
  obtain ⟨taken, run, met⟩ := reached
  refine ⟨_, run.next ⟨allows, rfl⟩, ?_⟩
  rw [List.forall_mem_append, List.forall_mem_singleton]
  exact ⟨met, meets⟩

theorem reached_empty : Reached condition ⟨emptyEngine, 0⟩ :=
  ⟨[], Run.start ⟨⟨rfl, rfl, rfl, rfl, rfl, rfl⟩, rfl⟩, nofun⟩

end Reached

/-! ### A thread that uses up its quanta -/

/-- A thread of the lowest priority that is ready, with a counter, while one of
the highest waits since its first quantum. -/
def busyEngine (others : Nat → CLR_RT_Thread) (counter global : Int) :
    CLR_RT_ExecutionEngine where
  threads := fun th =>
    if th = 1 then ⟨.TH_S_Ready, false, false, counter, 0⟩
    else if th = 2 then ⟨.TH_S_Waiting, false, false, -2, 4⟩
    else others th
  m_threadsReady := [1]
  m_threadsWaiting := [2]
  m_threadsZombie := []
  m_GlobalExecutionCounter := global
  m_cctorThread := none
  running := none

section Busy

variable {others : Nat → CLR_RT_Thread} {counter global : Int}

theorem busyEngine_debited
    (credit : counter - global ≤ 33) :
    CountersBounded.debited ((busyEngine others counter global).threads 1)
        global =
      ⟨.TH_S_Ready, false, false, counter - 32, 0⟩ := by
  have noCredit : ¬ counter - global > CLR_RT_Thread.maximumCredit :=
    Int.not_lt.mpr credit
  have isThread : (busyEngine others counter global).threads 1 =
      ⟨.TH_S_Ready, false, false, counter, 0⟩ := rfl
  rw [CountersBounded.debited, isThread, CLR_RT_Thread.BringExecCounterToDate,
    if_neg noCredit]
  rfl

/-- One quantum of the thread. -/
theorem busyEngine_round
    (credit : counter - global ≤ 33)
    (lower : counter - 32 ≤ global) :
    ((busyEngine others counter global).after (.execute 1)).after
        (.quantumEnds 1 .SUCCEEDED) =
      busyEngine others (counter - 32) (counter - 32) := by
  have begins : (busyEngine others counter global).quantumBegins 1 =
      { busyEngine others (counter - 32) (counter - 32) with
        running := some 1 } := by
    have isGlobal : (busyEngine others counter global).m_GlobalExecutionCounter =
        global := rfl
    rw [CLR_RT_ExecutionEngine.quantumBegins, CountersBounded.debit_eq,
      isGlobal, busyEngine_debited credit]
    dsimp only
    rw [Int.min_eq_right lower]
    unfold CLR_RT_ExecutionEngine.modifyThread busyEngine
    dsimp only
    congr 1
    funext th
    by_cases isTh : th = 1
    · rw [isTh, Function.update_self, if_pos rfl]
      exact @busyEngine_debited others counter global credit
    · rw [Function.update_of_ne isTh, if_neg isTh, if_neg isTh]
  have ends : CLR_RT_ExecutionEngine.quantumEnds
      { busyEngine others (counter - 32) (counter - 32) with
        running := some 1 } 1 .SUCCEEDED =
        busyEngine others (counter - 32) (counter - 32) := rfl
  unfold CLR_RT_ExecutionEngine.after
  dsimp only
  rw [begins, ends]

/-- The engine by its lists and its two threads. -/
theorem eq_busyEngine
    {engine : CLR_RT_ExecutionEngine}
    (lists : engine = { engine with
      m_threadsReady := [1]
      m_threadsWaiting := [2]
      m_threadsZombie := []
      m_GlobalExecutionCounter := global
      m_cctorThread := none
      running := none })
    (busy : engine.threads 1 = ⟨.TH_S_Ready, false, false, counter, 0⟩)
    (waits : engine.threads 2 = ⟨.TH_S_Waiting, false, false, -2, 4⟩) :
    engine = busyEngine engine.threads counter global := by
  rw [lists, busyEngine]
  congr 1
  funext th
  dsimp only
  split
  case isTrue isOne => rw [isOne, busy]
  case isFalse =>
    split
    case isTrue isTwo => rw [isTwo, waits]
    case isFalse => rfl

theorem Reached.asBusy
    {condition : EngineCall → Prop}
    {scheduler : Scheduler}
    (reached : Reached condition scheduler)
    (lists : scheduler.engine = { scheduler.engine with
      m_threadsReady := [1]
      m_threadsWaiting := [2]
      m_threadsZombie := []
      m_GlobalExecutionCounter := global
      m_cctorThread := none
      running := none })
    (busy : scheduler.engine.threads 1 =
      ⟨.TH_S_Ready, false, false, counter, 0⟩)
    (waits : scheduler.engine.threads 2 =
      ⟨.TH_S_Waiting, false, false, -2, 4⟩) :
    ∃ others, Reached condition ⟨busyEngine others counter global,
      scheduler.maxContextSwitch⟩ := by
  refine ⟨scheduler.engine.threads, ?_⟩
  rw [← eq_busyEngine lists busy waits]
  exact reached

/-- A call of `ScheduleThreads` for one quantum. -/
theorem Reached.round
    (reached : Reached GivesValidPriority ⟨busyEngine others counter global, 49⟩)
    (above : -EXECUTION_COUNTER_MAXIMUM ≤ global)
    (credit : counter - global ≤ 33)
    (lower : counter - 32 ≤ global) :
    Reached GivesValidPriority
      ⟨busyEngine others (counter - 32) (counter - 32), 49⟩ := by
  have entered := reached.next .adjustCounters ⟨rfl, trivial⟩ trivial
  have isSame : (⟨busyEngine others counter global, 49⟩ : Scheduler).after 50
      .adjustCounters = ⟨busyEngine others counter global, 50⟩ :=
    congrArg (Scheduler.mk · 50) (if_neg (Int.not_lt.mpr above))
  rw [isSame] at entered
  have isNext : (busyEngine others counter global).nextThread = some 1 := rfl
  have runs := entered.next (.execute 1)
    ⟨isNext, show 0 < 50 by decide⟩ trivial
  have ends := runs.next (.quantumEnds 1 .SUCCEEDED) ⟨rfl, trivial⟩ trivial
  rw [← busyEngine_round credit lower]
  exact ends

end Busy

/-- The thread that waits has used one quantum. -/
theorem busyEngine_reached :
    ∃ others, Reached GivesValidPriority ⟨busyEngine others 0 (-2), 49⟩ := by
  have created := (@reached_empty GivesValidPriority).next
    (.newThread 2 4 false true) ⟨⟨by decide, by decide⟩, trivial⟩
    ⟨by decide, by decide⟩
  have entered := created.next .adjustCounters ⟨rfl, trivial⟩ trivial
  have isNext : ((((⟨emptyEngine, 0⟩ : Scheduler).after 50
      (.newThread 2 4 false true)).after 50 .adjustCounters).engine).nextThread =
        some 2 := by decide
  have runs := entered.next (.execute 2) ⟨isNext, by decide⟩ trivial
  have waits := runs.next (.quantumEnds 2 .CLR_E_THREAD_WAITING)
    ⟨rfl, trivial⟩ trivial
  have busy := waits.next (.newThread 1 0 false true)
    ⟨⟨by decide, by decide⟩, trivial⟩ ⟨by decide, by decide⟩
  exact busy.asBusy rfl rfl rfl

/-- The global counter falls until it is checked. -/
theorem busyEngine_falls
    {others : Nat → CLR_RT_Thread}
    (reached : Reached GivesValidPriority ⟨busyEngine others 0 (-2), 49⟩)
    (quanta : Nat)
    (few : quanta ≤ 58720256) :
    Reached GivesValidPriority ⟨busyEngine others (-32 * quanta - 32)
      (-32 * quanta - 32), 49⟩ := by
  have isMaximum : EXECUTION_COUNTER_MAXIMUM = 0x70000000 := rfl
  induction quanta with
  | zero => exact reached.round (by omega) (by omega) (by omega)
  | succ quanta inductionHypothesis =>
      have later := (inductionHypothesis (by omega)).round (by omega) (by omega)
        (by omega)
      have next : -32 * (quanta : Int) - 32 - 32 =
          -32 * ((quanta + 1 : Nat) : Int) - 32 := by omega
      rw [next] at later
      exact later

/-- Two threads are ready when the global counter is checked that one of them
has used up: it is raised, and every counter stays in range. -/
theorem executionCounters_inRange_rescaled :
    ∃ scheduler : Scheduler,
      scheduler.engine.m_threadsReady = [2, 1] ∧
        scheduler.engine.m_GlobalExecutionCounter = -1879048224 ∧
        CountersInRange scheduler ∧ RescalesInOrder scheduler.engine ∧
        (scheduler.after 50 .adjustCounters).engine.m_GlobalExecutionCounter =
          -268435488 ∧
        CountersInRange (scheduler.after 50 .adjustCounters) := by
  obtain ⟨others, reached⟩ := busyEngine_reached
  have fallen := busyEngine_falls reached 58720256 (Nat.le_refl _)
  have global : -32 * ((58720256 : Nat) : Int) - 32 = -1879048224 := rfl
  rw [global] at fallen
  have restarted := fallen.next (.restart 2) ⟨rfl, trivial⟩ trivial
  have rescaled := restarted.next .adjustCounters ⟨rfl, trivial⟩ trivial
  obtain ⟨_, run, valid⟩ := restarted
  obtain ⟨_, laterRun, laterValid⟩ := rescaled
  obtain ⟨inRange, inOrder⟩ := executionCounters_inRange run valid
  exact ⟨_, rfl, rfl, inRange, inOrder, rfl,
    (executionCounters_inRange laterRun laterValid).1⟩

/-- A thread that waited and one that is new change places once their credit
is cut off. -/
theorem rescaling_reorders :
    ¬ ∀ scheduler, Reached GivesValidPriority scheduler →
      ∀ th ∈ scheduler.engine.m_threadsReady,
        ∀ other ∈ scheduler.engine.m_threadsReady,
          scheduler.engine.counter th < scheduler.engine.counter other →
            scheduler.engine.adjustCounters.counter th <
              scheduler.engine.adjustCounters.counter other := by
  intro keepsOrder
  obtain ⟨others, reached⟩ := busyEngine_reached
  have fallen := busyEngine_falls reached 58720256 (Nat.le_refl _)
  have global : -32 * ((58720256 : Nat) : Int) - 32 = -1879048224 := rfl
  rw [global] at fallen
  have restarted := fallen.next (.restart 2) ⟨rfl, trivial⟩ trivial
  have created := restarted.next (.newThread 3 3 false true)
    ⟨⟨rfl, nofun⟩, trivial⟩ ⟨by decide, by decide⟩
  have order := keepsOrder _ created 2
    (show 2 ∈ [3, 2, 1] by decide) 3 (show 3 ∈ [3, 2, 1] by decide)
    (show (2 : Int) < 3 by decide)
  have reversed : (-268435451 : Int) < -268435452 := order
  revert reversed
  decide

/-- A thread whose subthread was given a priority of -25. -/
def lowPriority : Scheduler :=
  ((⟨emptyEngine, 0⟩ : Scheduler).after 50 (.newThread 1 2 false true)).after 50
    (.setThreadPriority 1 (-25))

/-- Two of its quanta in a call of `ScheduleThreads`. -/
def twoQuanta : Scheduler :=
  [.adjustCounters, .execute 1, .quantumEnds 1 .SUCCEEDED, .execute 1,
    .quantumEnds 1 .SUCCEEDED].foldl (Scheduler.after 50) lowPriority

theorem twoQuanta_reached : Reached (fun _ => True) twoQuanta := by
  have created := (@reached_empty fun _ => True).next (.newThread 1 2 false true)
    ⟨⟨by decide, by decide⟩, trivial⟩ trivial
  have low := created.next (.setThreadPriority 1 (-25)) ⟨rfl, trivial⟩ trivial
  have entered := low.next .adjustCounters ⟨rfl, trivial⟩ trivial
  have isFirst : (lowPriority.after 50 .adjustCounters).engine.nextThread =
      some 1 := by decide
  have first := entered.next (.execute 1) ⟨isFirst, by decide⟩ trivial
  have ends := first.next (.quantumEnds 1 .SUCCEEDED) ⟨rfl, trivial⟩ trivial
  have isSecond : ([.adjustCounters, .execute 1,
      .quantumEnds 1 .SUCCEEDED].foldl (Scheduler.after 50)
        lowPriority).engine.nextThread = some 1 := by decide
  have second := ends.next (.execute 1) ⟨isSecond, by decide⟩ trivial
  exact second.next (.quantumEnds 1 .SUCCEEDED) ⟨rfl, trivial⟩ trivial

/-- The third quantum wraps around. -/
theorem thirdQuantum_wraps :
    ¬ ∀ scheduler, Reached (fun _ => True) scheduler →
      CountersInRange scheduler := by
  intro inRange
  have isNext : twoQuanta.engine.nextThread = some 1 := by decide
  have computed := (inRange _ twoQuanta_reached).computed (.execute 1) isNext
    (-3221225472) (by decide)
  revert computed
  unfold InRange
  decide

/-- Counters wrap around where priorities are not those of `ThreadPriority`, and
the check of the global counter changes the order of ready threads. -/
theorem executionCounters_wrap_and_reorder :
    (¬ ∀ scheduler, Reached (fun _ => True) scheduler →
      CountersInRange scheduler) ∧
    ¬ ∀ scheduler, Reached GivesValidPriority scheduler →
      ∀ th ∈ scheduler.engine.m_threadsReady,
        ∀ other ∈ scheduler.engine.m_threadsReady,
          scheduler.engine.counter th < scheduler.engine.counter other →
            scheduler.engine.adjustCounters.counter th <
              scheduler.engine.adjustCounters.counter other :=
  ⟨thirdQuantum_wraps, rescaling_reorders⟩

end Scheduling

end NanoClr
