import NanoClr.Library.TransitionSystem
import NanoClr.Scheduling.ReadyInvariant

/-!
# The thread that is picked

As long as no call puts a thread out of order, the thread that is picked has
the highest counter of the ready threads.
-/

namespace NanoClr

namespace Scheduling

open CLR_RT_ExecutionEngine

/-! ## The calls -/

/-- A thread whose counter changes stays between its neighbours among the ready
threads. -/
def StaysInOrder (engine : CLR_RT_ExecutionEngine) (th : Nat)
    (counter : Int) : Prop :=
  ∀ before after, engine.readyOthers = before ++ th :: after →
    (∀ other ∈ before, counter ≤ engine.counter other) ∧
      ∀ other ∈ after, engine.counter other ≤ counter

/-- Cutting off the threads' extra credit leaves the ready threads in order. -/
def AdjustsInOrder (engine : CLR_RT_ExecutionEngine) : Prop :=
  let limit := engine.m_GlobalExecutionCounter + CLR_RT_Thread.maximumCredit
  let limited := fun th =>
    (engine.threads th).m_priority +
      min (engine.threads th).m_executionCounter limit
  engine.m_threadsReady.Pairwise fun left right => limited right ≤ limited left

/-- When a call keeps the ready threads in order. -/
def KeepsOrder (engine : CLR_RT_ExecutionEngine) : EngineCall → Prop
  | .newThread th priority _ hasDelegate =>
      hasDelegate = true → EntersInOrder engine th priority
  | .pushThreadProcDelegate th | .restart th =>
      (engine.threads th).suspended = false →
        EntersInOrder engine th (engine.counter th)
  | .abort th =>
      (engine.threads th).suspended = false →
        (engine.threads th).m_status ≠ .TH_S_Terminated →
        EntersInOrder engine th (engine.counter th)
  | .resume th =>
      (engine.threads th).suspended = true →
        (engine.threads th).m_status = .TH_S_Ready →
        EntersInOrder engine th (engine.counter th)
  | .setThreadPriority th threadPri =>
      StaysInOrder engine th
        (threadPri + (engine.threads th).m_executionCounter)
  | .adjustCounters =>
      engine.m_GlobalExecutionCounter < -EXECUTION_COUNTER_MAXIMUM →
        AdjustsInOrder engine
  | _ => True

section Calls

variable {engine : CLR_RT_ExecutionEngine} {th : Nat}

theorem ReadyInvariant.restart
    (invariant : ReadyInvariant engine)
    (enters : (engine.threads th).suspended = false →
      EntersInOrder engine th (engine.counter th)) :
    ReadyInvariant (engine.Restart th) :=
  invariant.modifyAndPut (fun _ => rfl) fun _ => enters

theorem ReadyInvariant.suspend
    (invariant : ReadyInvariant engine) :
    ReadyInvariant (engine.Suspend th) := by
  rw [Suspend]
  split
  · exact invariant.modifyAndPut (fun _ => rfl) (by simp)
  · exact invariant

theorem ReadyInvariant.resume
    (invariant : ReadyInvariant engine)
    (enters : (engine.threads th).suspended = true →
      (engine.threads th).m_status = .TH_S_Ready →
      EntersInOrder engine th (engine.counter th)) :
    ReadyInvariant (engine.Resume th) := by
  rw [Resume]
  split
  · next isSuspended =>
    exact invariant.modifyAndPut (fun _ => rfl)
      fun isReady _ => enters isSuspended.1 isReady
  · exact invariant

theorem ReadyInvariant.terminate
    (invariant : ReadyInvariant engine) :
    ReadyInvariant (engine.Terminate th) :=
  invariant.modifyAndPut (fun _ => rfl) (by simp)

theorem ReadyInvariant.abort
    (invariant : ReadyInvariant engine)
    (enters : (engine.threads th).suspended = false →
      (engine.threads th).m_status ≠ .TH_S_Terminated →
      EntersInOrder engine th (engine.counter th)) :
    ReadyInvariant (engine.Abort th) := by
  rw [Abort]
  split
  · next notTerminated =>
    exact invariant.restart fun notSuspended =>
      enters notSuspended notTerminated
  · exact invariant

theorem EntersInOrder.again
    {bound : Int}
    (enters : EntersInOrder engine th bound) :
    EntersInOrder (engine.InsertThreadRoundRobin th) th bound := by
  have same : (engine.InsertThreadRoundRobin th).m_threadsReady.filter
      (· ≠ th) = engine.m_threadsReady.filter (· ≠ th) :=
    filter_insertByCounter.trans
      (List.filter_eq_self.mpr fun _ member => (List.mem_filter.mp member).2)
  rw [EntersInOrder, same]
  exact enters

/-- A node that becomes a thread. -/
theorem EntersInOrder.newNode
    {thread : CLR_RT_Thread}
    {bound : Int}
    (enters : EntersInOrder engine th bound) :
    EntersInOrder (engine.modifyThread th fun _ => thread) th bound := by
  have others : ∀ other ∈ engine.m_threadsReady.filter (· ≠ th),
      (engine.modifyThread th fun _ => thread).counter other =
        engine.counter other := fun other member =>
    counter_modifyThread_of_ne
      (of_decide_eq_true (List.mem_filter.mp member).2)
  have same : (engine.m_threadsReady.filter (· ≠ th)).dropWhile
        (fun other =>
          bound ≤ (engine.modifyThread th fun _ => thread).counter other) =
      (engine.m_threadsReady.filter (· ≠ th)).dropWhile
        (fun other => bound ≤ engine.counter other) :=
    dropWhile_congr fun other member => by rw [others other member]
  intro other member isOther
  rw [others other ((List.dropWhile_sublist _).subset member)]
  exact enters other (same ▸ member) isOther

theorem PushThreadProcDelegate_eq
    (notSuspended : (engine.threads th).suspended = false) :
    engine.PushThreadProcDelegate th =
      (engine.setStatus th .TH_S_Ready).InsertThreadRoundRobin th := by
  simp [PushThreadProcDelegate, PutInProperList, setStatus, modifyThread,
    notSuspended]

theorem ReadyInvariant.newThread
    {priority : Int}
    {system hasDelegate : Bool}
    (invariant : ReadyInvariant engine)
    (notLinked : engine.linked th = false)
    (enters : hasDelegate = true → EntersInOrder engine th priority) :
    ReadyInvariant (engine.NewThread th priority system hasDelegate) := by
  let thread : CLR_RT_Thread := {
    m_status := .TH_S_Unstarted
    suspended := false
    system
    m_executionCounter := 0
    m_priority := priority
  }
  let created := engine.modifyThread th fun _ => thread
  have isThread : created.threads th = thread := Function.update_self _ _ _
  have notReady : th ∉ engine.m_threadsReady := by
    simp only [linked, decide_eq_false_iff_not, not_or] at notLinked
    exact notLinked.1
  have invariant' : ReadyInvariant created :=
    invariant.modifyThread fun isOther =>
      absurd (List.mem_of_mem_filter isOther) notReady
  cases hasDelegate with
  | false =>
      apply putInProperList invariant'.unlink
      intro isReady
      have unstarted : (created.threads th).m_status = .TH_S_Unstarted := by
        rw [isThread]
      cases unstarted.symm.trans isReady
  | true =>
      have counterIs : created.counter th = priority := by
        rw [counter, isThread]
        exact Int.add_zero priority
      have entersFirst : EntersInOrder created th (created.counter th) :=
        counterIs ▸ (enters rfl).newNode
      have started : created.PushThreadProcDelegate th =
          (created.setStatus th .TH_S_Ready).InsertThreadRoundRobin th :=
        PushThreadProcDelegate_eq (by rw [isThread])
      have keptStarted : ReadyInvariant (created.PushThreadProcDelegate th) :=
        invariant'.restart fun _ => entersFirst
      have isReady : EntersInOrder (created.setStatus th .TH_S_Ready) th
          (created.counter th) := entersFirst.modifyThread fun _ => rfl
      have entersAgain : EntersInOrder (created.PushThreadProcDelegate th) th
          (created.counter th) := by
        rw [started]
        exact isReady.again
      apply putInProperList keptStarted.unlink
      intro _ _
      have kept : (created.setStatus th .TH_S_Ready).counter th =
          created.counter th := counter_modifyThread_self
      have same : (created.PushThreadProcDelegate th).counter th =
          created.counter th := by
        rw [started]
        exact kept
      rw [same]
      exact entersAgain

theorem ReadyInvariant.setThreadPriority
    {threadPri : Int}
    (invariant : ReadyInvariant engine)
    (stays : StaysInOrder engine th
      (threadPri + (engine.threads th).m_executionCounter)) :
    ReadyInvariant (engine.SetThreadPriority th threadPri) := by
  by_cases isOther : th ∈ engine.readyOthers
  · refine ⟨?_, invariant.nodup, invariant.apart⟩
    obtain ⟨before, after, split⟩ := List.append_of_mem isOther
    have ⟨ahead, behind⟩ := stays before after split
    have nodup : (before ++ th :: after).Nodup :=
      split ▸ invariant.nodup.filter _
    have ordered := invariant.ordered
    rw [split] at ordered
    have same : (engine.SetThreadPriority th threadPri).readyOthers =
        before ++ th :: after := split
    have self : (engine.SetThreadPriority th threadPri).counter th =
        threadPri + (engine.threads th).m_executionCounter :=
      counter_modifyThread_self
    have others : ∀ other, other ≠ th →
        (engine.SetThreadPriority th threadPri).counter other =
          engine.counter other := fun _ => counter_modifyThread_of_ne
    have ⟨beforeNodup, afterNodup, apart⟩ := List.nodup_append'.mp nodup
    have notBefore : ∀ other ∈ before, other ≠ th := fun other member isTh =>
      apart member (isTh ▸ List.mem_cons_self)
    have notAfter : ∀ other ∈ after, other ≠ th := fun other member isTh =>
      (List.nodup_cons.mp afterNodup).1 (isTh ▸ member)
    have ⟨orderedBefore, orderedAfter, across⟩ :=
      List.pairwise_append.mp ordered
    rw [same]
    refine List.pairwise_append.mpr
      ⟨?_, List.pairwise_cons.mpr ⟨?_, ?_⟩, ?_⟩
    · apply orderedBefore.imp_of_mem
      intro left right isLeft isRight order
      rw [others left (notBefore left isLeft),
        others right (notBefore right isRight)]
      exact order
    · intro other member
      rw [self, others other (notAfter other member)]
      exact behind other member
    · apply orderedAfter.of_cons.imp_of_mem
      intro left right isLeft isRight order
      rw [others left (notAfter left isLeft),
        others right (notAfter right isRight)]
      exact order
    · intro left isLeft right isRight
      rw [others left (notBefore left isLeft)]
      rcases List.mem_cons.mp isRight with rfl | inAfter
      · rw [self]
        exact ahead left isLeft
      · rw [others right (notAfter right inAfter)]
        exact across left isLeft right (List.mem_cons_of_mem th inAfter)
  · exact invariant.modifyThread fun inOthers => absurd inOthers isOther

/-- The counter of a ready thread once the counters are adjusted. -/
theorem counter_adjustCounters
    (invariant : ReadyInvariant engine)
    (low : engine.m_GlobalExecutionCounter < -EXECUTION_COUNTER_MAXIMUM)
    (isReady : th ∈ engine.m_threadsReady) :
    engine.adjustCounters.counter th =
      (engine.threads th).m_priority +
        min (engine.threads th).m_executionCounter
          (engine.m_GlobalExecutionCounter + CLR_RT_Thread.maximumCredit) +
        EXECUTION_COUNTER_ADJUSTMENT := by
  have ⟨notWaiting, notZombie⟩ := invariant.apart th isReady
  simp only [adjustCounters, if_pos low, AdjustExecutionCounter, counter,
    if_pos isReady, if_neg notWaiting, if_neg notZombie,
    CLR_RT_Thread.BringExecCounterToDate, CLR_RT_Thread.GetExecutionCounter]
  split <;> simp only <;> omega

theorem ReadyInvariant.adjustCounters
    (invariant : ReadyInvariant engine)
    (adjusts : engine.m_GlobalExecutionCounter < -EXECUTION_COUNTER_MAXIMUM →
      AdjustsInOrder engine) :
    ReadyInvariant engine.adjustCounters := by
  by_cases low : engine.m_GlobalExecutionCounter < -EXECUTION_COUNTER_MAXIMUM
  · have lists : engine.adjustCounters.m_threadsReady =
          engine.m_threadsReady ∧
        engine.adjustCounters.m_threadsWaiting = engine.m_threadsWaiting ∧
        engine.adjustCounters.m_threadsZombie = engine.m_threadsZombie := by
      simp [CLR_RT_ExecutionEngine.adjustCounters, low, AdjustExecutionCounter]
    have ordered : engine.m_threadsReady.Pairwise fun left right =>
        engine.adjustCounters.counter right ≤
          engine.adjustCounters.counter left := by
      apply (adjusts low).imp_of_mem
      intro left right isLeft isRight order
      rw [counter_adjustCounters invariant low isLeft,
        counter_adjustCounters invariant low isRight]
      exact Int.add_le_add_right order _
    refine ⟨?_, lists.1 ▸ invariant.nodup, ?_⟩
    · rw [readyOthers, lists.1]
      exact ordered.sublist List.filter_sublist
    · rw [lists.1, lists.2.1, lists.2.2]
      exact invariant.apart
  · rw [CLR_RT_ExecutionEngine.adjustCounters, if_neg low]
    exact invariant

theorem readyOthers_of_idle
    (noneRuns : engine.running = none) :
    engine.readyOthers = engine.m_threadsReady := by
  rw [readyOthers, noneRuns]
  exact List.filter_eq_self.mpr fun other _ => by simp

theorem ReadyInvariant.quantumBegins
    (invariant : ReadyInvariant engine)
    (noneRuns : engine.running = none) :
    ReadyInvariant (engine.quantumBegins th) := by
  have lists :
      (engine.quantumBegins th).m_threadsReady = engine.m_threadsReady ∧
        (engine.quantumBegins th).m_threadsWaiting =
          engine.m_threadsWaiting ∧
        (engine.quantumBegins th).m_threadsZombie = engine.m_threadsZombie := by
    simp only [CLR_RT_ExecutionEngine.quantumBegins, debit]
    split <;> exact ⟨rfl, rfl, rfl⟩
  have threads : ∀ other, other ≠ th →
      (engine.quantumBegins th).threads other = engine.threads other := by
    intro other different
    simp only [CLR_RT_ExecutionEngine.quantumBegins, debit]
    split <;> exact Function.update_of_ne different _ _
  apply invariant.sameReady lists.1 lists.2.1 lists.2.2
  · rw [readyOthers_of_idle noneRuns, ← lists.1]
    exact List.filter_sublist
  · intro other member
    have different : other ≠ th := by
      have notRunning := of_decide_eq_true (List.mem_filter.mp member).2
      exact fun same => notRunning (congrArg some same)
    exact congrArg CLR_RT_Thread.GetExecutionCounter (threads other different)

theorem ReadyInvariant.quantumEnds
    {hr : ExecuteResult}
    (invariant : ReadyInvariant engine)
    (runs : engine.running = some th) :
    ReadyInvariant (engine.quantumEnds th hr) := by
  have others : engine.m_threadsReady.filter (· ≠ th) = engine.readyOthers := by
    rw [readyOthers, runs]
    exact List.filter_congr fun other _ => by simp
  have ordered : (engine.afterQuantum.m_threadsReady.filter
      (· ≠ th)).Pairwise fun left right =>
        engine.afterQuantum.counter right ≤ engine.afterQuantum.counter left :=
    others ▸ invariant.ordered
  have unlinked : ReadyInvariant (engine.afterQuantum.unlink th) := by
    have before : ReadyInvariant (engine.unlink th) := invariant.unlink
    exact ⟨ordered.sublist List.filter_sublist, before.nodup, before.apart⟩
  have enters : EntersInOrder engine.afterQuantum th
      (engine.afterQuantum.counter th) :=
    entersInOrder_of_ordered ordered _
  have waits : ∀ m_status, m_status ≠ .TH_S_Ready → ReadyInvariant
      ((engine.afterQuantum.setStatus th m_status).PutInProperList th) := by
    intro m_status notReady
    have changed : ReadyInvariant
        ((engine.afterQuantum.setStatus th m_status).unlink th) :=
      unlinked.unlinkModified fun _ => rfl
    apply putInProperList changed
    intro isReady
    rw [status_setStatus] at isReady
    exact absurd isReady notReady
  cases hr with
  | SUCCEEDED => exact putInProperList unlinked fun _ _ => enters
  | CLR_E_RESCHEDULE => exact putInProperList unlinked fun _ _ => enters
  | CLR_E_THREAD_WAITING => exact waits .TH_S_Waiting (by decide)
  | FAILED => exact waits .TH_S_Terminated (by decide)

/-- A thread is picked from the front of the ready threads, while none
runs. -/
theorem firstReady_some
    (isFirst : engine.firstReady = some th) :
    engine.running = none ∧ engine.m_threadsReady.head? = some th := by
  unfold firstReady at isFirst
  split at isFirst
  · cases isFirst
  · next noneRuns _ => exact ⟨noneRuns, isFirst⟩
  · next noneRuns _ =>
    split at isFirst
    · exact ⟨noneRuns, isFirst⟩
    · cases isFirst

theorem nextThread_some
    (isNext : engine.nextThread = some th) :
    engine.running = none := by
  unfold nextThread at isNext
  split at isNext
  · next noneRuns _ => exact noneRuns
  · exact (firstReady_some isNext).1

theorem ReadyInvariant.sleepZero
    (invariant : ReadyInvariant engine)
    (runs : engine.running = some th) :
    ReadyInvariant (engine.UpdateToLowestExecutionCounter th) := by
  apply invariant.modifyThread
  intro isOther
  have notRunning := of_decide_eq_true (List.mem_filter.mp isOther).2
  exact absurd runs.symm notRunning

/-- Every call that keeps the order keeps the invariant. -/
theorem ReadyInvariant.after
    {call : EngineCall}
    (invariant : ReadyInvariant engine)
    (allows : engine.Allows call)
    (keeps : KeepsOrder engine call) :
    ReadyInvariant (engine.after call) := by
  cases call with
  | newThread th priority system hasDelegate =>
      exact invariant.newThread allows.1 keeps
  | pushThreadProcDelegate th => exact invariant.restart keeps
  | restart th => exact invariant.restart keeps
  | suspend th => exact invariant.suspend
  | resume th => exact invariant.resume keeps
  | terminate th => exact invariant.terminate
  | abort th => exact invariant.abort keeps
  | setThreadPriority th threadPri => exact invariant.setThreadPriority keeps
  | setCctorThread cctor =>
      exact ⟨invariant.ordered, invariant.nodup, invariant.apart⟩
  | release th => exact invariant.unlink
  | adjustCounters => exact invariant.adjustCounters keeps
  | execute th => exact invariant.quantumBegins (nextThread_some allows)
  | sleepZero th => exact invariant.sleepZero allows
  | setStatus th m_status => exact invariant.setStatus
  | quantumEnds th hr => exact invariant.quantumEnds allows

end Calls

/-! ## Runs -/

/-- The thread that is taken from the front of the ready threads has the
highest counter of them. -/
def PicksMaximal (engine : CLR_RT_ExecutionEngine) : Prop :=
  ∀ th, engine.firstReady = some th →
    ∀ other ∈ engine.m_threadsReady, engine.counter other ≤ engine.counter th

theorem ReadyInvariant.picksMaximal
    {engine : CLR_RT_ExecutionEngine}
    (invariant : ReadyInvariant engine) :
    PicksMaximal engine := by
  intro th isFirst other member
  have ⟨noneRuns, atFront⟩ := firstReady_some isFirst
  obtain ⟨rest, isReady⟩ := List.head?_eq_some_iff.mp atFront
  have ordered := invariant.ordered
  rw [readyOthers_of_idle noneRuns, isReady] at ordered
  rw [isReady] at member
  rcases List.mem_cons.mp member with rfl | later
  · exact Int.le_refl _
  · exact (List.pairwise_cons.mp ordered).1 other later

/-- In every run whose calls keep the ready threads in order, the thread that
is picked has the highest counter. -/
theorem scheduleThreads_picksMaximal
    {taken : List (CLR_RT_ExecutionEngine × EngineCall)}
    {engine : CLR_RT_ExecutionEngine}
    (run : Run EngineStart EngineStep taken engine)
    (met : ∀ entry ∈ taken, KeepsOrder entry.1 entry.2) :
    PicksMaximal engine := by
  apply ReadyInvariant.picksMaximal
  apply run.invariant_of ReadyInvariant KeepsOrder _ _ met
  · rintro engine ⟨ready, waiting, zombie, _⟩
    refine ⟨?_, ?_, ?_⟩ <;> simp [readyOthers, ready]
  · rintro engine call later invariant keeps ⟨allows, rfl⟩
    exact invariant.after allows keeps

/-! ## A thread that is created in a quantum -/

/-- No thread has been created. -/
def emptyEngine : CLR_RT_ExecutionEngine where
  threads := fun _ => {
    m_status := .TH_S_Unstarted
    suspended := false
    system := false
    m_executionCounter := 0
    m_priority := 0
  }
  m_threadsReady := []
  m_threadsWaiting := []
  m_threadsZombie := []
  m_GlobalExecutionCounter := 0
  m_cctorThread := none
  running := none

/-- A thread of normal priority. -/
def oneThread : CLR_RT_ExecutionEngine :=
  emptyEngine.after (.newThread 1 2 false true)

/-- Two threads of normal priority are ready. -/
def twoThreads : CLR_RT_ExecutionEngine :=
  oneThread.after (.newThread 2 2 false true)

/-- The first of two threads of normal priority runs. -/
def firstRuns : CLR_RT_ExecutionEngine :=
  twoThreads.after (.execute 1)

/-- The thread that runs creates one of the lowest priority. -/
def lowestCreated : CLR_RT_ExecutionEngine :=
  firstRuns.after (.newThread 3 0 false true)

/-- The first thread has used its quantum. -/
def quantumOver : CLR_RT_ExecutionEngine :=
  lowestCreated.after (.quantumEnds 1 .SUCCEEDED)

theorem firstRuns_run :
    Run EngineStart EngineStep
      [
        (emptyEngine, .newThread 1 2 false true),
        (oneThread, .newThread 2 2 false true),
        (twoThreads, .execute 1)
      ]
      firstRuns := by
  have starts : EngineStart emptyEngine := ⟨rfl, rfl, rfl, rfl, rfl, rfl⟩
  have one : EngineStep emptyEngine (.newThread 1 2 false true) oneThread :=
    ⟨⟨by decide, by decide⟩, rfl⟩
  have two : EngineStep oneThread (.newThread 2 2 false true) twoThreads :=
    ⟨⟨by decide, by decide⟩, rfl⟩
  have isNext : twoThreads.nextThread = some 1 := by decide
  have runs : EngineStep twoThreads (.execute 1) firstRuns := ⟨isNext, rfl⟩
  exact (((Run.start starts).next one).next two).next runs

/-- Once the quantum is over, the highest of two threads is picked. -/
theorem scheduleThreads_picksMaximal_two :
    PicksMaximal (firstRuns.after (.quantumEnds 1 .SUCCEEDED)) := by
  have runs : firstRuns.running = some 1 := by decide
  have ends : EngineStep firstRuns (.quantumEnds 1 .SUCCEEDED)
      (firstRuns.after (.quantumEnds 1 .SUCCEEDED)) := ⟨runs, rfl⟩
  apply scheduleThreads_picksMaximal (firstRuns_run.next ends)
  intro entry member
  simp only [List.cons_append, List.nil_append, List.mem_cons,
    List.not_mem_nil, or_false] at member
  rcases member with rfl | rfl | rfl | rfl
  · exact fun _ => by decide
  · exact fun _ => by decide
  · trivial
  · trivial

/-- The thread that was created is picked, though another has a higher
counter. -/
theorem scheduleThreads_picksLower :
    ¬ ∀ (taken : List (CLR_RT_ExecutionEngine × EngineCall))
      (engine : CLR_RT_ExecutionEngine),
      Run EngineStart EngineStep taken engine → PicksMaximal engine := by
  intro picksMaximal
  have creates : EngineStep firstRuns (.newThread 3 0 false true)
      lowestCreated := ⟨⟨by decide, by decide⟩, rfl⟩
  have runs : lowestCreated.running = some 1 := by decide
  have ends : EngineStep lowestCreated (.quantumEnds 1 .SUCCEEDED)
      quantumOver := ⟨runs, rfl⟩
  have run := (firstRuns_run.next creates).next ends
  have maximal := picksMaximal _ _ run 3 (by decide) 2 (by decide)
  revert maximal
  decide

end Scheduling

end NanoClr
