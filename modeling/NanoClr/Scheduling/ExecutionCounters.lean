import NanoClr.Scheduling.ReadyOrder

/-!
# The range of the execution counters

Between two checks of the global counter it falls by a bounded number of
quanta, and no counter of a thread is far from it.
-/

namespace NanoClr

namespace Scheduling

open CLR_RT_ExecutionEngine

/-! ## Runs of the scheduler -/

/-- The engine, and how often `ScheduleThreads` still switches to a thread
before it returns. -/
structure Scheduler where
  engine : CLR_RT_ExecutionEngine
  maxContextSwitch : Nat

namespace Scheduler

/-- A quantum takes one of the switches that are left. -/
def Allows (scheduler : Scheduler) (call : EngineCall) : Prop :=
  scheduler.engine.Allows call ∧
    match call with
    | .execute _ => 0 < scheduler.maxContextSwitch
    | _ => True

/-- `ScheduleThreads` is entered with `MaxContextSwitches` of the settings. -/
def after (MaxContextSwitches : UInt16) (scheduler : Scheduler)
    (call : EngineCall) : Scheduler where
  engine := scheduler.engine.after call
  maxContextSwitch :=
    match call with
    | .adjustCounters => MaxContextSwitches.toNat
    | .execute _ => scheduler.maxContextSwitch - 1
    | _ => scheduler.maxContextSwitch

end Scheduler

/-- An allowed call leads from one scheduler to another. -/
def SchedulerStep (MaxContextSwitches : UInt16) (scheduler : Scheduler)
    (call : EngineCall) (later : Scheduler) : Prop :=
  scheduler.Allows call ∧ later = scheduler.after MaxContextSwitches call

/-- The scheduler before the first thread. -/
def SchedulerStart (scheduler : Scheduler) : Prop :=
  EngineStart scheduler.engine ∧ scheduler.maxContextSwitch = 0

/-- A priority of `ThreadPriority`, from `Lowest` to `System_Highest`. -/
def ValidPriority (priority : Int) : Prop :=
  0 ≤ priority ∧ priority ≤ System_Highest

/-- The priorities that a call gives to a thread are those of
`ThreadPriority`. -/
def GivesValidPriority : EngineCall → Prop
  | .newThread _ priority _ _ => ValidPriority priority
  | .setThreadPriority _ threadPri => ValidPriority threadPri
  | _ => True

/-! ## What is computed -/

/-- The range of an `int`. -/
def InRange (value : Int) : Prop :=
  -2 ^ 31 ≤ value ∧ value < 2 ^ 31

namespace CLR_RT_Thread

/-- What `GetQuantumDebit` computes. -/
def debitValues (thread : CLR_RT_Thread) : List Int :=
  [System_Highest - thread.m_priority, thread.GetQuantumDebit]

/-- What `BringExecCounterToDate` computes. -/
def creditValues (thread : CLR_RT_Thread) (iGlobalExecutionCounter : Int) :
    List Int :=
  [thread.m_executionCounter - iGlobalExecutionCounter,
    iGlobalExecutionCounter + maximumCredit]

/-- What `AdjustExecutionCounter` computes for a thread. -/
def adjustValues (thread : CLR_RT_Thread) (iGlobalExecutionCounter : Int) :
    List Int :=
  let m_executionCounter :=
    thread.m_executionCounter + EXECUTION_COUNTER_ADJUSTMENT
  m_executionCounter :: thread.debitValues ++
    creditValues { thread with m_executionCounter } iGlobalExecutionCounter

end CLR_RT_Thread

/-- What a call computes from the counters, apart from `GetExecutionCounter`. -/
def CLR_RT_ExecutionEngine.computed (engine : CLR_RT_ExecutionEngine) :
    EngineCall → List Int
  | .adjustCounters =>
      if engine.m_GlobalExecutionCounter < -EXECUTION_COUNTER_MAXIMUM then
        let m_GlobalExecutionCounter :=
          engine.m_GlobalExecutionCounter + EXECUTION_COUNTER_ADJUSTMENT
        m_GlobalExecutionCounter ::
          (engine.m_threadsReady ++ engine.m_threadsWaiting ++
            engine.m_threadsZombie).flatMap fun th =>
              (engine.threads th).adjustValues m_GlobalExecutionCounter
      else
        []
  | .execute th =>
      let thread := engine.threads th
      thread.debitValues ++
        thread.creditValues engine.m_GlobalExecutionCounter ++
          [(thread.BringExecCounterToDate
              engine.m_GlobalExecutionCounter).m_executionCounter -
            thread.GetQuantumDebit]
  | .sleepZero _ => [engine.m_GlobalExecutionCounter - 1]
  | _ => []

/-- A thread that is on a list, or runs. -/
def CLR_RT_ExecutionEngine.Active (engine : CLR_RT_ExecutionEngine) (th : Nat) :
    Prop :=
  engine.linked th = true ∨ engine.running = some th

/-- Every counter is an `int`, and so is whatever the next call computes. -/
structure CountersInRange (scheduler : Scheduler) : Prop where
  global : InRange scheduler.engine.m_GlobalExecutionCounter
  threads : ∀ th, scheduler.engine.Active th →
    InRange (scheduler.engine.threads th).m_executionCounter ∧
      InRange (scheduler.engine.threads th).GetExecutionCounter
  computed : ∀ call, scheduler.engine.Allows call →
    ∀ value ∈ scheduler.engine.computed call, InRange value

/-- The check of the global counter keeps the order of the counters of the
ready threads, except that it cuts off their credit, and keeps the order that
they are listed in wherever there is no credit to cut off. -/
structure RescalesInOrder (engine : CLR_RT_ExecutionEngine) : Prop where
  cutOff : ∀ th ∈ engine.m_threadsReady,
    engine.m_GlobalExecutionCounter < -EXECUTION_COUNTER_MAXIMUM →
      (engine.adjustCounters.threads th).m_executionCounter =
        min (engine.threads th).m_executionCounter
          (engine.m_GlobalExecutionCounter + CLR_RT_Thread.maximumCredit) +
        EXECUTION_COUNTER_ADJUSTMENT
  keepsOrder : ∀ th ∈ engine.m_threadsReady, ∀ other ∈ engine.m_threadsReady,
    (engine.threads th).m_executionCounter ≤
        (engine.threads other).m_executionCounter →
      (engine.adjustCounters.threads th).m_executionCounter ≤
        (engine.adjustCounters.threads other).m_executionCounter
  keepsListed : ∀ th ∈ engine.m_threadsReady, ∀ other ∈ engine.m_threadsReady,
    (∀ thread ∈ [th, other],
      (engine.threads thread).m_executionCounter ≤
        engine.m_GlobalExecutionCounter + CLR_RT_Thread.maximumCredit) →
      (engine.adjustCounters.counter th ≤
          engine.adjustCounters.counter other ↔
        engine.counter th ≤ engine.counter other)

/-! ## The invariant -/

/-- A counter that is close to the global counter, or behind it. -/
structure CLR_RT_Thread.Bounded (thread : CLR_RT_Thread)
    (iGlobalExecutionCounter : Int) : Prop where
  low : iGlobalExecutionCounter - 1 ≤ thread.m_executionCounter
  high : thread.m_executionCounter ≤ 0
  valid : ValidPriority thread.m_priority

/-- The threads' counters are bounded, and no thread is on two lists. -/
structure CountersBounded (lowest : Int) (engine : CLR_RT_ExecutionEngine) :
    Prop where
  low : lowest ≤ engine.m_GlobalExecutionCounter
  high : engine.m_GlobalExecutionCounter ≤ 0
  threads : ∀ th, engine.Active th →
    (engine.threads th).Bounded engine.m_GlobalExecutionCounter
  apart : ∀ th ∈ engine.m_threadsReady,
    th ∉ engine.m_threadsWaiting ∧ th ∉ engine.m_threadsZombie

section Bounded

variable {lowest : Int} {engine later : CLR_RT_ExecutionEngine} {th : Nat}

theorem linked_iff :
    engine.linked th = true ↔
      th ∈ engine.m_threadsReady ∨ th ∈ engine.m_threadsWaiting ∨
        th ∈ engine.m_threadsZombie := by
  rw [linked, decide_eq_true_iff]

namespace CountersBounded

/-- A thread that is put on one list, while the others stay where they are. -/
theorem relink
    (bounded : CountersBounded lowest engine)
    (own : (engine.threads th).Bounded engine.m_GlobalExecutionCounter)
    (threads : later.threads = engine.threads)
    (global : later.m_GlobalExecutionCounter = engine.m_GlobalExecutionCounter)
    (running : later.running = engine.running)
    (ready : ∀ other ∈ later.m_threadsReady,
      other = th ∨ other ∈ engine.m_threadsReady)
    (waiting : ∀ other ∈ later.m_threadsWaiting,
      other = th ∨ other ∈ engine.m_threadsWaiting)
    (zombie : ∀ other ∈ later.m_threadsZombie,
      other = th ∨ other ∈ engine.m_threadsZombie)
    (single : th ∈ later.m_threadsReady →
      th ∉ later.m_threadsWaiting ∧ th ∉ later.m_threadsZombie) :
    CountersBounded lowest later := by
  constructor
  · rw [global]
    exact bounded.low
  · rw [global]
    exact bounded.high
  · intro other active
    rw [threads, global]
    by_cases isTh : other = th
    · rw [isTh]
      exact own
    · apply bounded.threads
      unfold Active at active ⊢
      rw [linked_iff, running] at active
      rw [linked_iff]
      rcases active with (inReady | inWaiting | inZombie) | runs
      · exact Or.inl (Or.inl ((ready other inReady).resolve_left isTh))
      · exact Or.inl (Or.inr
          (Or.inl ((waiting other inWaiting).resolve_left isTh)))
      · exact Or.inl (Or.inr
          (Or.inr ((zombie other inZombie).resolve_left isTh)))
      · exact Or.inr runs
  · intro other inReady
    by_cases isTh : other = th
    · rw [isTh] at inReady ⊢
      exact single inReady
    · have apart := bounded.apart other
        ((ready other inReady).resolve_left isTh)
      exact ⟨fun inWaiting =>
          apart.1 ((waiting other inWaiting).resolve_left isTh),
        fun inZombie =>
          apart.2 ((zombie other inZombie).resolve_left isTh)⟩

theorem unlink
    (bounded : CountersBounded lowest engine) :
    CountersBounded lowest (engine.unlink th) := by
  constructor
  · exact bounded.low
  · exact bounded.high
  · intro other active
    apply bounded.threads other
    unfold Active at active ⊢
    rw [linked_iff] at active ⊢
    apply active.imp_left
    apply Or.imp List.mem_of_mem_filter
    exact Or.imp List.mem_of_mem_filter List.mem_of_mem_filter
  · intro other member
    have apart := bounded.apart other (List.mem_of_mem_filter member)
    exact ⟨fun inWaiting => apart.1 (List.mem_of_mem_filter inWaiting),
      fun inZombie => apart.2 (List.mem_of_mem_filter inZombie)⟩

theorem linkWaiting
    (bounded : CountersBounded lowest engine)
    (own : (engine.threads th).Bounded engine.m_GlobalExecutionCounter) :
    CountersBounded lowest (engine.linkWaiting th) := by
  have unlinked : CountersBounded lowest (engine.unlink th) := bounded.unlink
  apply relink unlinked own
  · rfl
  · rfl
  · rfl
  · exact fun other member => Or.inr member
  · intro other member
    rw [or_comm, ← List.mem_singleton]
    exact List.mem_append.mp member
  · exact fun other member => Or.inr member
  · exact fun member => absurd member not_mem_unlink.1

theorem linkZombie
    (bounded : CountersBounded lowest engine)
    (own : (engine.threads th).Bounded engine.m_GlobalExecutionCounter) :
    CountersBounded lowest (engine.linkZombie th) := by
  have unlinked : CountersBounded lowest (engine.unlink th) := bounded.unlink
  apply relink unlinked own
  · rfl
  · rfl
  · rfl
  · exact fun other member => Or.inr member
  · exact fun other member => Or.inr member
  · exact fun other member => List.mem_cons.mp member
  · exact fun member => absurd member not_mem_unlink.1

theorem insertThreadRoundRobin
    (bounded : CountersBounded lowest engine)
    (own : (engine.threads th).Bounded engine.m_GlobalExecutionCounter) :
    CountersBounded lowest (engine.InsertThreadRoundRobin th) := by
  have unlinked : CountersBounded lowest (engine.unlink th) := bounded.unlink
  apply relink unlinked own
  · rfl
  · rfl
  · rfl
  · exact fun other member => mem_insertByCounter.mp member
  · exact fun other member => Or.inr member
  · exact fun other member => Or.inr member
  · exact fun _ => not_mem_unlink.2

/-- A thread changes, but stays bounded if it is active. -/
theorem modifyThread
    {change : CLR_RT_Thread → CLR_RT_Thread}
    (bounded : CountersBounded lowest engine)
    (stays : engine.Active th → (change (engine.threads th)).Bounded
      engine.m_GlobalExecutionCounter) :
    CountersBounded lowest (engine.modifyThread th change) := by
  refine ⟨bounded.low, bounded.high, ?_, bounded.apart⟩
  intro other active
  dsimp only [CLR_RT_ExecutionEngine.modifyThread]
  by_cases isTh : other = th
  · rw [isTh] at active ⊢
    rw [Function.update_self]
    exact stays active
  · rw [Function.update_of_ne isTh]
    exact bounded.threads other active

theorem setStatus
    {m_status : ThreadStatus}
    (bounded : CountersBounded lowest engine) :
    CountersBounded lowest (engine.setStatus th m_status) := by
  apply bounded.modifyThread
  intro active
  have own := bounded.threads th active
  exact ⟨own.low, own.high, own.valid⟩

theorem setSuspended
    {suspended : Bool}
    (bounded : CountersBounded lowest engine) :
    CountersBounded lowest (engine.setSuspended th suspended) := by
  apply bounded.modifyThread
  intro active
  have own := bounded.threads th active
  exact ⟨own.low, own.high, own.valid⟩

end CountersBounded

/-- A change of a thread that leaves its counter and its priority. -/
theorem CLR_RT_Thread.Bounded.update
    {iGlobalExecutionCounter : Int}
    {change : CLR_RT_Thread → CLR_RT_Thread}
    (own : (engine.threads th).Bounded iGlobalExecutionCounter)
    (counter : (change (engine.threads th)).m_executionCounter =
      (engine.threads th).m_executionCounter)
    (priority : (change (engine.threads th)).m_priority =
      (engine.threads th).m_priority) :
    ((engine.modifyThread th change).threads th).Bounded
      iGlobalExecutionCounter := by
  dsimp only [CLR_RT_ExecutionEngine.modifyThread]
  rw [Function.update_self]
  exact ⟨counter ▸ own.low, counter ▸ own.high, priority ▸ own.valid⟩

namespace CountersBounded

theorem passivate
    (bounded : CountersBounded lowest engine)
    (own : (engine.threads th).Bounded engine.m_GlobalExecutionCounter) :
    CountersBounded lowest (engine.Passivate th) := by
  have linked : CountersBounded lowest
      ((engine.setSuspended th false).linkZombie th) :=
    bounded.setSuspended.linkZombie (own.update rfl rfl)
  rw [Passivate]
  split
  · exact linked.setStatus
  · exact linked.setStatus

theorem putInProperList
    (bounded : CountersBounded lowest engine)
    (own : (engine.threads th).Bounded engine.m_GlobalExecutionCounter) :
    CountersBounded lowest (engine.PutInProperList th) := by
  rw [PutInProperList]
  split
  · split
    · exact bounded.linkWaiting own
    · exact bounded.insertThreadRoundRobin own
  · exact bounded.linkWaiting own
  · exact bounded.passivate own
  · exact bounded.linkZombie own

/-- A thread changes without its counter and is put in its list. -/
theorem modifyAndPut
    {change : CLR_RT_Thread → CLR_RT_Thread}
    (bounded : CountersBounded lowest engine)
    (own : (engine.threads th).Bounded engine.m_GlobalExecutionCounter)
    (counter : (change (engine.threads th)).m_executionCounter =
      (engine.threads th).m_executionCounter)
    (priority : (change (engine.threads th)).m_priority =
      (engine.threads th).m_priority) :
    CountersBounded lowest ((engine.modifyThread th change).PutInProperList th) := by
  have changed : CountersBounded lowest (engine.modifyThread th change) :=
    bounded.modifyThread fun _ =>
      ⟨counter ▸ own.low, counter ▸ own.high, priority ▸ own.valid⟩
  exact changed.putInProperList (own.update counter priority)

theorem linked_putInProperList :
    (engine.PutInProperList th).linked th = true := by
  rw [linked_iff, PutInProperList]
  split
  · split
    · exact Or.inr (Or.inl (List.mem_append_right _ List.mem_cons_self))
    · exact Or.inl (mem_insertByCounter.mpr (Or.inl rfl))
  · exact Or.inr (Or.inl (List.mem_append_right _ List.mem_cons_self))
  · rw [Passivate]
    split
    · exact Or.inr (Or.inr List.mem_cons_self)
    · exact Or.inr (Or.inr List.mem_cons_self)
  · exact Or.inr (Or.inr List.mem_cons_self)

theorem newThread
    {priority : Int}
    {system hasDelegate : Bool}
    (bounded : CountersBounded lowest engine)
    (allows : engine.Allows (.newThread th priority system hasDelegate))
    (valid : ValidPriority priority) :
    CountersBounded lowest (engine.NewThread th priority system hasDelegate) := by
  let thread : CLR_RT_Thread := {
    m_status := .TH_S_Unstarted
    suspended := false
    system
    m_executionCounter := 0
    m_priority := priority
  }
  let created := engine.modifyThread th fun _ => thread
  have notActive : ¬ engine.Active th := by
    rintro (linked | runs)
    · rw [allows.1] at linked
      cases linked
    · exact allows.2 runs
  have boundedCreated : CountersBounded lowest created :=
    bounded.modifyThread fun active => absurd active notActive
  have own : (created.threads th).Bounded engine.m_GlobalExecutionCounter := by
    have isThread : created.threads th = thread := Function.update_self _ _ _
    have high := bounded.high
    rw [isThread]
    refine ⟨?_, Int.le_refl 0, valid⟩
    dsimp only [thread]
    omega
  cases hasDelegate with
  | false => exact boundedCreated.putInProperList own
  | true =>
      have started : CountersBounded lowest
          (created.PushThreadProcDelegate th) :=
        boundedCreated.modifyAndPut own rfl rfl
      exact started.putInProperList
        (started.threads th (Or.inl linked_putInProperList))

theorem sleepZero
    (bounded : CountersBounded lowest engine) :
    CountersBounded lowest (engine.UpdateToLowestExecutionCounter th) := by
  apply bounded.modifyThread
  intro active
  have high := bounded.high
  refine ⟨Int.le_refl _, ?_, (bounded.threads th active).valid⟩
  dsimp only
  omega

theorem afterQuantum
    (bounded : CountersBounded lowest engine) :
    CountersBounded lowest engine.afterQuantum := by
  refine ⟨bounded.low, bounded.high, ?_, bounded.apart⟩
  rintro other (linked | runs)
  · exact bounded.threads other (Or.inl linked)
  · cases runs

theorem quantumEnds
    {hr : ExecuteResult}
    (bounded : CountersBounded lowest engine)
    (runs : engine.running = some th) :
    CountersBounded lowest (engine.quantumEnds th hr) := by
  have own := bounded.threads th (Or.inr runs)
  cases hr with
  | SUCCEEDED => exact bounded.afterQuantum.putInProperList own
  | CLR_E_RESCHEDULE => exact bounded.afterQuantum.putInProperList own
  | CLR_E_THREAD_WAITING => exact bounded.afterQuantum.modifyAndPut own rfl rfl
  | FAILED => exact bounded.afterQuantum.modifyAndPut own rfl rfl

/-! ## A quantum -/

theorem debit_bounds {thread : CLR_RT_Thread}
    (valid : ValidPriority thread.m_priority) :
    1 ≤ thread.GetQuantumDebit ∧ thread.GetQuantumDebit ≤ 32 := by
  obtain ⟨low, high⟩ := valid
  have most : ((System_Highest : Int) - thread.m_priority).toNat ≤ 5 := by
    have isHighest : (System_Highest : Int) = 5 := rfl
    omega
  have atMost : 2 ^ ((System_Highest : Int) - thread.m_priority).toNat ≤
      2 ^ 5 := Nat.pow_le_pow_right (by omega) most
  have atLeast := Nat.two_pow_pos
    ((System_Highest : Int) - thread.m_priority).toNat
  unfold CLR_RT_Thread.GetQuantumDebit
  norm_cast

/-- The counter once the extra credit is cut off. -/
theorem bringExecCounterToDate_counter
    {thread : CLR_RT_Thread}
    {iGlobalExecutionCounter : Int} :
    (thread.BringExecCounterToDate
        iGlobalExecutionCounter).m_executionCounter =
      min thread.m_executionCounter
        (iGlobalExecutionCounter + CLR_RT_Thread.maximumCredit) := by
  rw [CLR_RT_Thread.BringExecCounterToDate]
  split
  · dsimp only
    omega
  · omega

theorem bringExecCounterToDate_priority
    {thread : CLR_RT_Thread}
    {iGlobalExecutionCounter : Int} :
    (thread.BringExecCounterToDate iGlobalExecutionCounter).m_priority =
      thread.m_priority := by
  rw [CLR_RT_Thread.BringExecCounterToDate]
  split <;> rfl

theorem maximumCredit_eq : CLR_RT_Thread.maximumCredit = 33 := rfl

/-- A thread with its credit cut off and its quantum taken from it. -/
def debited (thread : CLR_RT_Thread) (iGlobalExecutionCounter : Int) :
    CLR_RT_Thread :=
  let credited := thread.BringExecCounterToDate iGlobalExecutionCounter
  { credited with
    m_executionCounter :=
      credited.m_executionCounter - thread.GetQuantumDebit }

theorem debit_eq :
    engine.debit th =
      { engine.modifyThread th fun thread =>
          debited thread engine.m_GlobalExecutionCounter with
        m_GlobalExecutionCounter :=
          min engine.m_GlobalExecutionCounter (debited (engine.threads th)
            engine.m_GlobalExecutionCounter).m_executionCounter } := by
  have isThread : (engine.modifyThread th fun thread =>
      debited thread engine.m_GlobalExecutionCounter).threads th =
        debited (engine.threads th) engine.m_GlobalExecutionCounter :=
    Function.update_self _ _ _
  have isDebit : engine.debit th =
      if ((engine.modifyThread th fun thread =>
          debited thread engine.m_GlobalExecutionCounter).threads
            th).m_executionCounter < engine.m_GlobalExecutionCounter then
        { engine.modifyThread th fun thread =>
            debited thread engine.m_GlobalExecutionCounter with
          m_GlobalExecutionCounter :=
            ((engine.modifyThread th fun thread =>
              debited thread engine.m_GlobalExecutionCounter).threads
                th).m_executionCounter }
      else
        engine.modifyThread th fun thread =>
          debited thread engine.m_GlobalExecutionCounter := rfl
  rw [isDebit, isThread]
  split
  case isTrue lower =>
    rw [Int.min_eq_right (Int.le_of_lt lower)]
  case isFalse notLower =>
    rw [Int.min_eq_left (Int.le_of_not_gt notLower)]
    rfl

/-- A quantum lowers the global counter by at most 33. -/
theorem quantumBegins
    (bounded : CountersBounded lowest engine)
    (linked : engine.linked th = true) :
    CountersBounded (lowest - 33) (engine.quantumBegins th) := by
  have own := bounded.threads th (Or.inl linked)
  have ⟨atLeast, atMost⟩ := debit_bounds own.valid
  have counter : (debited (engine.threads th)
      engine.m_GlobalExecutionCounter).m_executionCounter =
        min (engine.threads th).m_executionCounter
          (engine.m_GlobalExecutionCounter + 33) -
            (engine.threads th).GetQuantumDebit := by
    rw [debited, ← maximumCredit_eq, ← bringExecCounterToDate_counter]
  have low := own.low
  have high := own.high
  have lowGlobal := bounded.low
  have highGlobal := bounded.high
  rw [CLR_RT_ExecutionEngine.quantumBegins, debit_eq]
  constructor
  · dsimp only
    omega
  · dsimp only
    omega
  · intro other active
    dsimp only [CLR_RT_ExecutionEngine.modifyThread]
    by_cases isTh : other = th
    · rw [isTh, Function.update_self]
      refine ⟨by omega, by omega, ?_⟩
      rw [debited, bringExecCounterToDate_priority]
      exact own.valid
    · rw [Function.update_of_ne isTh]
      have isLinked : engine.linked other = true := by
        apply active.resolve_right
        intro runs
        exact isTh (Option.some.inj runs).symm
      have others := bounded.threads other (Or.inl isLinked)
      have lowOther := others.low
      exact ⟨by omega, others.high, others.valid⟩
  · exact bounded.apart

/-! ## The check of the global counter -/

/-- A thread whose counter is raised and whose credit is cut off. -/
def adjusted (thread : CLR_RT_Thread) (iGlobalExecutionCounter : Int) :
    CLR_RT_Thread :=
  CLR_RT_Thread.BringExecCounterToDate
    { thread with
      m_executionCounter :=
        thread.m_executionCounter + EXECUTION_COUNTER_ADJUSTMENT }
    iGlobalExecutionCounter

/-- A counter that lies between the global counter and the largest credit. -/
structure Near (iGlobalExecutionCounter : Int) (thread : CLR_RT_Thread) :
    Prop where
  low : iGlobalExecutionCounter - 1 ≤ thread.m_executionCounter
  high : thread.m_executionCounter ≤ iGlobalExecutionCounter + 33
  valid : ValidPriority thread.m_priority

section Adjusted

variable {thread : CLR_RT_Thread} {iGlobalExecutionCounter : Int}

theorem adjusted_counter :
    (adjusted thread iGlobalExecutionCounter).m_executionCounter =
      min (thread.m_executionCounter + EXECUTION_COUNTER_ADJUSTMENT)
        (iGlobalExecutionCounter + CLR_RT_Thread.maximumCredit) :=
  bringExecCounterToDate_counter

theorem adjusted_near
    (low : iGlobalExecutionCounter - 1 ≤
      thread.m_executionCounter + EXECUTION_COUNTER_ADJUSTMENT)
    (valid : ValidPriority thread.m_priority) :
    Near iGlobalExecutionCounter (adjusted thread iGlobalExecutionCounter) := by
  have counter := @adjusted_counter thread iGlobalExecutionCounter
  rw [maximumCredit_eq] at counter
  refine ⟨by omega, by omega, ?_⟩
  rw [adjusted, bringExecCounterToDate_priority]
  exact valid

/-- Adjusting the threads of a list once more. -/
theorem Near.again
    (near : Near iGlobalExecutionCounter thread)
    (threadList : List Nat) :
    Near iGlobalExecutionCounter
      (if th ∈ threadList then adjusted thread iGlobalExecutionCounter
      else thread) := by
  have low := near.low
  have isAdjustment : EXECUTION_COUNTER_ADJUSTMENT = 0x60000000 := rfl
  split
  · exact adjusted_near (by omega) near.valid
  · exact near

end Adjusted

/-- The lists of threads are adjusted one after another. -/
theorem threads_adjustCounters
    (low : engine.m_GlobalExecutionCounter < -EXECUTION_COUNTER_MAXIMUM) :
    engine.adjustCounters.threads th =
      (let iGlobalExecutionCounter :=
        engine.m_GlobalExecutionCounter + EXECUTION_COUNTER_ADJUSTMENT
      let adjustIn := fun (threadList : List Nat) thread =>
        if th ∈ threadList then adjusted thread iGlobalExecutionCounter
        else thread
      adjustIn engine.m_threadsZombie (adjustIn engine.m_threadsWaiting
        (adjustIn engine.m_threadsReady (engine.threads th)))) := by
  rw [CLR_RT_ExecutionEngine.adjustCounters, if_pos low]
  rfl

/-- A thread on a list once the counters are adjusted. -/
theorem adjustCounters_near
    (low : engine.m_GlobalExecutionCounter < -EXECUTION_COUNTER_MAXIMUM)
    (linked : engine.linked th = true)
    (own : (engine.threads th).Bounded engine.m_GlobalExecutionCounter) :
    Near (engine.m_GlobalExecutionCounter + EXECUTION_COUNTER_ADJUSTMENT)
      (engine.adjustCounters.threads th) := by
  have near : Near
      (engine.m_GlobalExecutionCounter + EXECUTION_COUNTER_ADJUSTMENT)
      (adjusted (engine.threads th)
        (engine.m_GlobalExecutionCounter + EXECUTION_COUNTER_ADJUSTMENT)) := by
    have lowOwn := own.low
    exact adjusted_near (by omega) own.valid
  rw [threads_adjustCounters low]
  dsimp only
  by_cases inReady : th ∈ engine.m_threadsReady
  · rw [if_pos inReady]
    exact (near.again _).again _
  rw [if_neg inReady]
  by_cases inWaiting : th ∈ engine.m_threadsWaiting
  · rw [if_pos inWaiting]
    exact near.again _
  · have inZombie := ((linked_iff.mp linked).resolve_left inReady).resolve_left
      inWaiting
    rw [if_neg inWaiting, if_pos inZombie]
    exact near

theorem adjustCounters
    (bounded : CountersBounded lowest engine)
    (above : -0x7FFFFFFF ≤ lowest)
    (noneRuns : engine.running = none) :
    CountersBounded (-EXECUTION_COUNTER_MAXIMUM) engine.adjustCounters := by
  have isMaximum : EXECUTION_COUNTER_MAXIMUM = 0x70000000 := rfl
  have isAdjustment : EXECUTION_COUNTER_ADJUSTMENT = 0x60000000 := rfl
  have lowGlobal := bounded.low
  by_cases low : engine.m_GlobalExecutionCounter < -EXECUTION_COUNTER_MAXIMUM
  · have isAdjusted : engine.adjustCounters =
        { engine with
          threads := engine.adjustCounters.threads
          m_GlobalExecutionCounter :=
            engine.m_GlobalExecutionCounter + EXECUTION_COUNTER_ADJUSTMENT } := by
      rw [CLR_RT_ExecutionEngine.adjustCounters, if_pos low]
      rfl
    rw [isAdjusted]
    constructor
    · dsimp only
      omega
    · dsimp only
      omega
    · intro other active
      have linked : engine.linked other = true := by
        apply active.resolve_right
        dsimp only
        rw [noneRuns]
        exact (Option.some_ne_none other).symm
      have near := adjustCounters_near low linked
        (bounded.threads other (Or.inl linked))
      have high := near.high
      refine ⟨near.low, ?_, near.valid⟩
      dsimp only
      omega
    · exact bounded.apart
  · rw [CLR_RT_ExecutionEngine.adjustCounters, if_neg low]
    exact ⟨by omega, bounded.high, bounded.threads, bounded.apart⟩

end CountersBounded

end Bounded

end Scheduling

end NanoClr
