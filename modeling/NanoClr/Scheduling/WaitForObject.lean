import NanoClr.Library.TransitionSystem
import NanoClr.Scheduling.ScheduleThreads

/-!
# Waiting for objects

Threads that wait for objects to be signalled: `WaitForSignal`, `SignalObject`
with its pass over the waiting threads, and the calls that come in between.
-/

namespace NanoClr

namespace Scheduling

/-! ## Wait objects -/

/-- How a wait ended: the results `TH_WAIT_RESULT_`. -/
inductive WaitResult where
  | INIT
  | TIMEOUT
  | HANDLE_ALL
  | HANDLE (i : Nat)
deriving DecidableEq

/-- `CLR_RT_HeapBlock_WaitForObject`: until when a thread waits for which
objects. -/
structure CLR_RT_HeapBlock_WaitForObject where
  m_timeExpire : Int
  m_objects : List Nat
  m_fWaitAll : Bool

/-- An object is reset, if it is an automatic one. -/
def resetFlags (HB_SignalAutoReset HB_Signaled : Nat → Bool) (obj : Nat) :
    Nat → Bool :=
  if HB_SignalAutoReset obj then Function.update HB_Signaled obj false
  else HB_Signaled

/-- The first of the objects that is signalled, with its place. -/
def firstSignaled (HB_Signaled : Nat → Bool) : Nat → List Nat →
    Option (Nat × Nat)
  | _, [] => none
  | i, obj :: objects =>
      if HB_Signaled obj then some (i, obj)
      else firstSignaled HB_Signaled (i + 1) objects

/-- `TryWaitForSignal`, where it succeeds: the result of the wait and the flags
of the objects behind it. -/
def TryWaitForSignal (HB_SignalAutoReset HB_Signaled : Nat → Bool)
    (objects : List Nat) (fWaitAll : Bool) :
    Option (WaitResult × (Nat → Bool)) :=
  if fWaitAll then
    if objects.all HB_Signaled then
      some (.HANDLE_ALL,
        objects.foldl (resetFlags HB_SignalAutoReset) HB_Signaled)
    else
      none
  else
    (firstSignaled HB_Signaled 0 objects).map fun found =>
      (.HANDLE found.1, resetFlags HB_SignalAutoReset HB_Signaled found.2)

/-! ## The engine with its wait objects -/

/-- The engine with what its threads wait for and the flags of the objects. -/
structure WaitingEngine where
  engine : CLR_RT_ExecutionEngine
  m_waitForObject : Nat → Option CLR_RT_HeapBlock_WaitForObject
  m_waitForObject_Result : Nat → WaitResult
  HB_Signaled : Nat → Bool
  HB_SignalAutoReset : Nat → Bool

namespace WaitingEngine

variable (waiting : WaitingEngine) (th : Nat)

/-- Whether `PutInProperList` ends in `InsertThreadRoundRobin` or `Passivate`,
which give the wait object back. -/
def releases : Bool :=
  match (waiting.engine.threads th).m_status with
  | .TH_S_Ready => !(waiting.engine.threads th).suspended
  | .TH_S_Terminated => true
  | .TH_S_Waiting | .TH_S_Unstarted => false

/-- `PutInProperList`. -/
def PutInProperList : WaitingEngine :=
  { waiting with
    engine := waiting.engine.PutInProperList th
    m_waitForObject :=
      if waiting.releases th then
        Function.update waiting.m_waitForObject th none
      else waiting.m_waitForObject }

/-- A thread is changed and put in its list. -/
def change (change : CLR_RT_Thread → CLR_RT_Thread) : WaitingEngine :=
  WaitingEngine.PutInProperList
    { waiting with engine := waiting.engine.modifyThread th change } th

/-- `Restart`. -/
def Restart : WaitingEngine :=
  waiting.change th fun thread => { thread with m_status := .TH_S_Ready }

/-- `Suspend`. -/
def Suspend : WaitingEngine :=
  let thread := waiting.engine.threads th
  if thread.suspended = false ∧ thread.m_status ≠ .TH_S_Terminated then
    waiting.change th fun thread => { thread with suspended := true }
  else
    waiting

/-- `Resume`. -/
def Resume : WaitingEngine :=
  let thread := waiting.engine.threads th
  if thread.suspended = true ∧ thread.m_status ≠ .TH_S_Terminated then
    waiting.change th fun thread => { thread with suspended := false }
  else
    waiting

/-- `Terminate`. -/
def Terminate : WaitingEngine :=
  waiting.change th fun thread => { thread with m_status := .TH_S_Terminated }

/-- `Sleep`, and the end of the quantum that follows it. -/
def Sleep : WaitingEngine :=
  waiting.change th fun thread => { thread with m_status := .TH_S_Waiting }

/-- `NewThread` with a delegate: `PushThreadProcDelegate` puts the thread in its
list, and then it is put there once more. -/
def NewThread (m_priority : Int) (system : Bool) : WaitingEngine :=
  let waiting : WaitingEngine := { waiting with
    engine := waiting.engine.modifyThread th fun _ => {
      m_status := .TH_S_Unstarted
      suspended := false
      system
      m_executionCounter := 0
      m_priority }
    m_waitForObject := Function.update waiting.m_waitForObject th none }
  (waiting.Restart th).PutInProperList th

/-! ### Waits -/

/-- The most objects that are waited for at once. -/
def maximumObjects : Nat := 64

/-- `CreateInstance`, and the end of the quantum that follows it. -/
def CreateInstance (wait : CLR_RT_HeapBlock_WaitForObject) : WaitingEngine :=
  WaitingEngine.change
    { waiting with
      m_waitForObject :=
        Function.update waiting.m_waitForObject th (some wait)
      m_waitForObject_Result :=
        Function.update waiting.m_waitForObject_Result th .INIT }
    th fun thread => { thread with m_status := .TH_S_Waiting }

/-- `WaitForSignal`; `granted` says whether the event cache has a node. -/
def WaitForSignal (wait : CLR_RT_HeapBlock_WaitForObject) (granted : Bool) :
    WaitingEngine :=
  if maximumObjects < wait.m_objects.length then
    waiting
  else
    match TryWaitForSignal waiting.HB_SignalAutoReset waiting.HB_Signaled
        wait.m_objects wait.m_fWaitAll with
    | some signals =>
        { waiting with
          m_waitForObject_Result :=
            Function.update waiting.m_waitForObject_Result th signals.1
          HB_Signaled := signals.2 }
    | none => if granted then waiting.CreateInstance th wait else waiting

/-- `Reset`. -/
def Reset (object : Nat) : WaitingEngine :=
  { waiting with HB_Signaled := Function.update waiting.HB_Signaled object false }

/-- `CheckThreads` for the wait of a thread. -/
def CheckWait (now : Int) : WaitingEngine :=
  match waiting.m_waitForObject th with
  | some wait =>
      if wait.m_timeExpire ≤ now then
        WaitingEngine.Restart
          { waiting with
            m_waitForObject_Result :=
              Function.update waiting.m_waitForObject_Result th .TIMEOUT } th
      else waiting
  | none => waiting

/-! ### Signals -/

/-- `TryWaitForSignal` for a thread that waits, where it is restarted. -/
def tryRestart : Option WaitingEngine :=
  match waiting.m_waitForObject th with
  | some wait =>
      (TryWaitForSignal waiting.HB_SignalAutoReset waiting.HB_Signaled
          wait.m_objects wait.m_fWaitAll).map fun signals =>
        WaitingEngine.Restart
          { waiting with
            m_waitForObject_Result :=
              Function.update waiting.m_waitForObject_Result th signals.1
            HB_Signaled := signals.2 } th
  | none => none

/-- The thread behind another one in the list of waiting threads. -/
def Next : Option Nat :=
  (waiting.engine.m_threadsWaiting.dropWhile (· ≠ th)).tail.head?

/-- The loop of `SignalObject` from a thread on, in so many rounds: the engine
behind it and the threads that were restarted. The next thread is looked up
before the thread is restarted. -/
def signalFrom (object : Nat) : Nat → WaitingEngine → Option Nat →
    Option (WaitingEngine × List Nat)
  | _, waiting, none => some (waiting, [])
  | 0, _, some _ => none
  | rounds + 1, waiting, some th =>
      let thNext := waiting.Next th
      let restarted := waiting.tryRestart th
      let later := restarted.getD waiting
      let woken := if restarted.isSome then [th] else []
      if later.HB_Signaled object then
        (signalFrom object rounds later thNext).map fun rest =>
          (rest.1, woken ++ rest.2)
      else
        some (later, woken)

/-- The object is signalled. -/
def setSignaled (object : Nat) : WaitingEngine :=
  { waiting with HB_Signaled := Function.update waiting.HB_Signaled object true }

/-- `SignalObject` returns with some threads restarted. -/
def Signals (object : Nat) (later : WaitingEngine) (woken : List Nat) : Prop :=
  ∃ rounds, signalFrom object rounds (waiting.setSignaled object)
    waiting.engine.m_threadsWaiting.head? = some (later, woken)

end WaitingEngine

/-! ## Runs -/

/-- The calls that change what threads wait for. -/
inductive WaitCall where
  | newThread (th : Nat) (priority : Int) (system : Bool)
  | sleep (th : Nat)
  | restart (th : Nat)
  | suspend (th : Nat)
  | resume (th : Nat)
  | terminate (th : Nat)
  | waitForSignal (th : Nat) (wait : CLR_RT_HeapBlock_WaitForObject)
      (granted : Bool)
  | reset (object : Nat)
  | checkWait (th : Nat) (now : Int)
  | signalObject (object : Nat)

namespace WaitingEngine

/-- A thread that may run: it is on the list of the ready threads. -/
def Runs (waiting : WaitingEngine) (th : Nat) : Prop :=
  th ∈ waiting.engine.m_threadsReady ∧
    (waiting.engine.threads th).m_status = .TH_S_Ready ∧
    (waiting.engine.threads th).suspended = false

instance (waiting : WaitingEngine) (th : Nat) : Decidable (waiting.Runs th) :=
  inferInstanceAs (Decidable (_ ∧ _ ∧ _))

/-- When a call can be made. -/
def allows (waiting : WaitingEngine) : WaitCall → Bool
  | .newThread th _ _ => !waiting.engine.linked th
  | .sleep th => decide (waiting.Runs th)
  | .restart th | .suspend th | .resume th | .terminate th =>
      waiting.engine.linked th
  | .waitForSignal th _ _ => decide (waiting.Runs th)
  | .reset _ => true
  | .checkWait th _ => decide (th ∈ waiting.engine.m_threadsWaiting)
  | .signalObject _ => true

/-- What a call does; for a signal, what it does ahead of its pass. -/
def after (waiting : WaitingEngine) : WaitCall → WaitingEngine
  | .newThread th priority system => waiting.NewThread th priority system
  | .sleep th => waiting.Sleep th
  | .restart th => waiting.Restart th
  | .suspend th => waiting.Suspend th
  | .resume th => waiting.Resume th
  | .terminate th => waiting.Terminate th
  | .waitForSignal th wait granted => waiting.WaitForSignal th wait granted
  | .reset object => waiting.Reset object
  | .checkWait th now => waiting.CheckWait th now
  | .signalObject object => waiting.setSignaled object

/-- A call leads from one engine to another; a signal where it returns. -/
def Calls (waiting : WaitingEngine) (call : WaitCall) (later : WaitingEngine) :
    Prop :=
  match call with
  | .signalObject object => ∃ woken, waiting.Signals object later woken
  | call => later = waiting.after call

end WaitingEngine

/-- A call that can be made. -/
def WaitStep (waiting : WaitingEngine) (call : WaitCall)
    (later : WaitingEngine) : Prop :=
  waiting.allows call = true ∧ waiting.Calls call later

/-- The engine before there are threads. -/
def WaitStart (waiting : WaitingEngine) : Prop :=
  EngineStart waiting.engine ∧ ∀ th, waiting.m_waitForObject th = none

end Scheduling

end NanoClr
