import Mathlib.Algebra.Ring.Int.Defs
import Mathlib.Algebra.Ring.Nat
import Mathlib.Data.List.Basic
import Mathlib.Logic.Function.Basic

/-!
# Scheduling

The lists of threads of the execution engine, the execution counters that order
the ready threads, and the calls that move threads between the lists.
-/

namespace NanoClr

namespace Scheduling

/-! ## Threads -/

/-- The states of a thread. -/
inductive ThreadStatus where
  | TH_S_Ready
  | TH_S_Waiting
  | TH_S_Terminated
  | TH_S_Unstarted
deriving DecidableEq

/-- A thread: its status, the flags `TH_F_Suspended` and `TH_F_System`, its
counter and the priority of its subthread. -/
structure CLR_RT_Thread where
  m_status : ThreadStatus
  suspended : Bool
  system : Bool
  m_executionCounter : Int
  m_priority : Int

/-- `ThreadPriority::System_Highest`. -/
def System_Highest : Nat := 5

namespace CLR_RT_Thread

/-- `GetExecutionCounter`: the priority counts as credit. -/
def GetExecutionCounter (thread : CLR_RT_Thread) : Int :=
  thread.m_priority + thread.m_executionCounter

/-- `GetQuantumDebit`: a quantum costs twice as much with every lower
priority. -/
def GetQuantumDebit (thread : CLR_RT_Thread) : Int :=
  2 ^ ((System_Highest : Int) - thread.m_priority).toNat

/-- The credit that a thread keeps over the global counter. -/
def maximumCredit : Int := 2 ^ System_Highest + 1

/-- `BringExecCounterToDate`: credit above the maximum is lost. -/
def BringExecCounterToDate (thread : CLR_RT_Thread)
    (iGlobalExecutionCounter : Int) : CLR_RT_Thread :=
  if thread.m_executionCounter - iGlobalExecutionCounter > maximumCredit then
    { thread with
      m_executionCounter := iGlobalExecutionCounter + maximumCredit }
  else
    thread

end CLR_RT_Thread

/-! ## The engine -/

/-- The engine between two calls; a thread runs from when it is picked until
its quantum ends. -/
structure CLR_RT_ExecutionEngine where
  threads : Nat → CLR_RT_Thread
  m_threadsReady : List Nat
  m_threadsWaiting : List Nat
  m_threadsZombie : List Nat
  m_GlobalExecutionCounter : Int
  m_cctorThread : Option Nat
  running : Option Nat

namespace CLR_RT_ExecutionEngine

variable (engine : CLR_RT_ExecutionEngine) (th : Nat)

/-- `GetExecutionCounter` of a thread of the engine. -/
def counter (th : Nat) : Int :=
  (engine.threads th).GetExecutionCounter

/-- One thread is changed. -/
def modifyThread (change : CLR_RT_Thread → CLR_RT_Thread) :
    CLR_RT_ExecutionEngine :=
  { engine with
    threads := Function.update engine.threads th (change (engine.threads th)) }

/-- The status of a thread is changed. -/
def setStatus (m_status : ThreadStatus) : CLR_RT_ExecutionEngine :=
  engine.modifyThread th fun thread => { thread with m_status }

/-- The flag `TH_F_Suspended` of a thread is changed. -/
def setSuspended (suspended : Bool) : CLR_RT_ExecutionEngine :=
  engine.modifyThread th fun thread => { thread with suspended }

/-- Whether a thread is on one of the lists. -/
def linked : Bool :=
  th ∈ engine.m_threadsReady ∨ th ∈ engine.m_threadsWaiting ∨
    th ∈ engine.m_threadsZombie

/-- `Unlink`: a thread is on one list at most. -/
def unlink : CLR_RT_ExecutionEngine :=
  { engine with
    m_threadsReady := engine.m_threadsReady.filter (· ≠ th)
    m_threadsWaiting := engine.m_threadsWaiting.filter (· ≠ th)
    m_threadsZombie := engine.m_threadsZombie.filter (· ≠ th) }

/-- `m_threadsWaiting.LinkAtBack`. -/
def linkWaiting : CLR_RT_ExecutionEngine :=
  let engine := engine.unlink th
  { engine with m_threadsWaiting := engine.m_threadsWaiting ++ [th] }

/-- `m_threadsZombie.LinkAtFront`. -/
def linkZombie : CLR_RT_ExecutionEngine :=
  let engine := engine.unlink th
  { engine with m_threadsZombie := th :: engine.m_threadsZombie }

/-- The list with a thread in front of the first one whose counter is lower. -/
def insertByCounter (counter : Nat → Int) (thTarget : Nat) :
    List Nat → List Nat
  | [] => [thTarget]
  | th :: rest =>
      if counter th < counter thTarget then thTarget :: th :: rest
      else th :: insertByCounter counter thTarget rest

/-- `InsertThreadRoundRobin`: a thread is unlinked and inserted by its
counter. -/
def InsertThreadRoundRobin : CLR_RT_ExecutionEngine :=
  let engine := engine.unlink th
  { engine with
    m_threadsReady :=
      insertByCounter engine.counter th engine.m_threadsReady }

/-- `Passivate`, up to the callbacks that other calls follow from. -/
def Passivate : CLR_RT_ExecutionEngine :=
  let engine := (engine.setSuspended th false).linkZombie th
  if (engine.threads th).system then
    engine.setStatus th .TH_S_Unstarted
  else
    engine.setStatus th .TH_S_Terminated

/-- `PutInProperList`: a thread goes to the list for its status. -/
def PutInProperList : CLR_RT_ExecutionEngine :=
  match (engine.threads th).m_status with
  | .TH_S_Ready =>
      if (engine.threads th).suspended then engine.linkWaiting th
      else engine.InsertThreadRoundRobin th
  | .TH_S_Waiting => engine.linkWaiting th
  | .TH_S_Terminated => engine.Passivate th
  | .TH_S_Unstarted => engine.linkZombie th

/-- `Restart`. -/
def Restart : CLR_RT_ExecutionEngine :=
  (engine.setStatus th .TH_S_Ready).PutInProperList th

/-- `Suspend`. -/
def Suspend : CLR_RT_ExecutionEngine :=
  let thread := engine.threads th
  if thread.suspended = false ∧ thread.m_status ≠ .TH_S_Terminated then
    (engine.setSuspended th true).PutInProperList th
  else
    engine

/-- `Resume`. -/
def Resume : CLR_RT_ExecutionEngine :=
  let thread := engine.threads th
  if thread.suspended = true ∧ thread.m_status ≠ .TH_S_Terminated then
    (engine.setSuspended th false).PutInProperList th
  else
    engine

/-- `Terminate`. -/
def Terminate : CLR_RT_ExecutionEngine :=
  (engine.setStatus th .TH_S_Terminated).PutInProperList th

/-- `Abort`: a thread that has not terminated is restarted. -/
def Abort : CLR_RT_ExecutionEngine :=
  if (engine.threads th).m_status ≠ .TH_S_Terminated then engine.Restart th
  else engine

/-- `PushThreadProcDelegate`: a thread that gets a delegate is ready. -/
def PushThreadProcDelegate : CLR_RT_ExecutionEngine :=
  (engine.setStatus th .TH_S_Ready).PutInProperList th

/-- `NewThread` with the thread's node from the event cache. -/
def NewThread (priority : Int) (system hasDelegate : Bool) :
    CLR_RT_ExecutionEngine :=
  let engine := engine.modifyThread th fun _ => {
    m_status := .TH_S_Unstarted
    suspended := false
    system
    m_executionCounter := 0
    m_priority := priority
  }
  if hasDelegate then
    (engine.PushThreadProcDelegate th).PutInProperList th
  else
    engine.PutInProperList th

/-- `SetThreadPriority`, which leaves the thread where it is. -/
def SetThreadPriority (threadPri : Int) : CLR_RT_ExecutionEngine :=
  engine.modifyThread th fun thread => { thread with m_priority := threadPri }

/-- `UpdateToLowestExecutionCounter`: a thread comes below the counter of the
engine. -/
def UpdateToLowestExecutionCounter : CLR_RT_ExecutionEngine :=
  engine.modifyThread th fun thread =>
    { thread with m_executionCounter := engine.m_GlobalExecutionCounter - 1 }

/-! ### ScheduleThreads -/

/-- How far the counter of the engine may fall. -/
def EXECUTION_COUNTER_MAXIMUM : Int := 0x70000000

/-- What is added to the counters then. -/
def EXECUTION_COUNTER_ADJUSTMENT : Int := 0x60000000

/-- `AdjustExecutionCounter` for the threads of a list. -/
def AdjustExecutionCounter (threadList : List Nat) (iUpdateValue : Int) :
    CLR_RT_ExecutionEngine :=
  { engine with
    threads := fun th =>
      let thread := engine.threads th
      if th ∈ threadList then
        CLR_RT_Thread.BringExecCounterToDate
          { thread with
            m_executionCounter := thread.m_executionCounter + iUpdateValue }
          engine.m_GlobalExecutionCounter
      else thread }

/-- The check of the global counter when `ScheduleThreads` is entered. -/
def adjustCounters : CLR_RT_ExecutionEngine :=
  if engine.m_GlobalExecutionCounter < -EXECUTION_COUNTER_MAXIMUM then
    let engine : CLR_RT_ExecutionEngine := { engine with
      m_GlobalExecutionCounter :=
        engine.m_GlobalExecutionCounter + EXECUTION_COUNTER_ADJUSTMENT }
    let engine := engine.AdjustExecutionCounter engine.m_threadsReady
      EXECUTION_COUNTER_ADJUSTMENT
    let engine := engine.AdjustExecutionCounter engine.m_threadsWaiting
      EXECUTION_COUNTER_ADJUSTMENT
    engine.AdjustExecutionCounter engine.m_threadsZombie
      EXECUTION_COUNTER_ADJUSTMENT
  else
    engine

/-- Whether a thread for static constructors is to be run. -/
def runsConstructor (cctor : Nat) : Bool :=
  (engine.threads cctor).m_status = .TH_S_Ready ∧
    (engine.threads cctor).suspended = false

/-- The thread that `ScheduleThreads` takes from the front of the ready threads:
none while a thread runs, or where a thread for static constructors is run or
waited for. -/
def firstReady : Option Nat :=
  match engine.running, engine.m_cctorThread with
  | some _, _ => none
  | none, none => engine.m_threadsReady.head?
  | none, some cctor =>
      if engine.runsConstructor cctor ∧ ¬ engine.linked cctor then
        engine.m_threadsReady.head?
      else none

/-- The thread that is executed next. -/
def nextThread : Option Nat :=
  match engine.running, engine.m_cctorThread with
  | none, some cctor =>
      if engine.runsConstructor cctor ∧ engine.linked cctor then some cctor
      else engine.firstReady
  | _, _ => engine.firstReady

/-- The debit of the thread that is executed next. -/
def debit : CLR_RT_ExecutionEngine :=
  let debitForEachRun := (engine.threads th).GetQuantumDebit
  let engine := engine.modifyThread th fun thread =>
    let thread :=
      thread.BringExecCounterToDate engine.m_GlobalExecutionCounter
    { thread with
      m_executionCounter := thread.m_executionCounter - debitForEachRun }
  let m_executionCounter := (engine.threads th).m_executionCounter
  if m_executionCounter < engine.m_GlobalExecutionCounter then
    { engine with m_GlobalExecutionCounter := m_executionCounter }
  else
    engine

/-- How `Execute` ends. -/
inductive ExecuteResult where
  | SUCCEEDED
  | CLR_E_RESCHEDULE
  | CLR_E_THREAD_WAITING
  | FAILED
deriving DecidableEq

/-- A thread begins to run. -/
def quantumBegins : CLR_RT_ExecutionEngine :=
  { engine.debit th with running := some th }

/-- No thread runs any more. -/
def afterQuantum : CLR_RT_ExecutionEngine :=
  { engine with running := none }

/-- What follows `Execute`. -/
def quantumEnds : ExecuteResult → CLR_RT_ExecutionEngine
  | .SUCCEEDED | .CLR_E_RESCHEDULE => engine.afterQuantum.PutInProperList th
  | .CLR_E_THREAD_WAITING =>
      (engine.afterQuantum.setStatus th .TH_S_Waiting).PutInProperList th
  | .FAILED =>
      (engine.afterQuantum.setStatus th .TH_S_Terminated).PutInProperList th

end CLR_RT_ExecutionEngine

/-! ## Runs -/

/-- The calls that change the counters or the lists. -/
inductive EngineCall where
  | newThread (th : Nat) (priority : Int) (system hasDelegate : Bool)
  | pushThreadProcDelegate (th : Nat)
  | restart (th : Nat)
  | suspend (th : Nat)
  | resume (th : Nat)
  | terminate (th : Nat)
  | abort (th : Nat)
  | setThreadPriority (th : Nat) (threadPri : Int)
  | setCctorThread (cctor : Option Nat)
  | release (th : Nat)
  | adjustCounters
  | execute (th : Nat)
  | sleepZero (th : Nat)
  | setStatus (th : Nat) (m_status : ThreadStatus)
  | quantumEnds (th : Nat) (hr : CLR_RT_ExecutionEngine.ExecuteResult)

/-- When a call can be made: nodes of new threads are on no list, the others
are; `ScheduleThreads` is where it was left. -/
def CLR_RT_ExecutionEngine.Allows (engine : CLR_RT_ExecutionEngine) :
    EngineCall → Prop
  | .newThread th _ _ _ => engine.linked th = false ∧ engine.running ≠ some th
  | .pushThreadProcDelegate th | .restart th | .suspend th | .resume th
  | .terminate th | .abort th | .setThreadPriority th _ =>
      engine.linked th = true
  | .setCctorThread _ => True
  | .release th => th ∈ engine.m_threadsZombie
  | .adjustCounters => engine.running = none
  | .execute th => engine.nextThread = some th
  | .sleepZero th => engine.running = some th
  | .setStatus th m_status => engine.linked th = true ∧
      (m_status = .TH_S_Waiting ∨
        engine.running = some th ∧ m_status = .TH_S_Terminated)
  | .quantumEnds th _ => engine.running = some th

/-- The engine behind a call. -/
def CLR_RT_ExecutionEngine.after (engine : CLR_RT_ExecutionEngine) :
    EngineCall → CLR_RT_ExecutionEngine
  | .newThread th priority system hasDelegate =>
      engine.NewThread th priority system hasDelegate
  | .pushThreadProcDelegate th => engine.PushThreadProcDelegate th
  | .restart th => engine.Restart th
  | .suspend th => engine.Suspend th
  | .resume th => engine.Resume th
  | .terminate th => engine.Terminate th
  | .abort th => engine.Abort th
  | .setThreadPriority th threadPri => engine.SetThreadPriority th threadPri
  | .setCctorThread cctor => { engine with m_cctorThread := cctor }
  | .release th => engine.unlink th
  | .adjustCounters => engine.adjustCounters
  | .execute th => engine.quantumBegins th
  | .sleepZero th => engine.UpdateToLowestExecutionCounter th
  | .setStatus th m_status => engine.setStatus th m_status
  | .quantumEnds th hr => engine.quantumEnds th hr

/-- An allowed call leads from one engine to another. -/
def EngineStep (engine : CLR_RT_ExecutionEngine) (call : EngineCall)
    (later : CLR_RT_ExecutionEngine) : Prop :=
  engine.Allows call ∧ later = engine.after call

/-- The engine before there are threads. -/
def EngineStart (engine : CLR_RT_ExecutionEngine) : Prop :=
  engine.m_threadsReady = [] ∧ engine.m_threadsWaiting = [] ∧
    engine.m_threadsZombie = [] ∧ engine.m_GlobalExecutionCounter = 0 ∧
    engine.m_cctorThread = none ∧ engine.running = none

end Scheduling

end NanoClr
