import Mathlib.Data.List.Nodup
import Mathlib.Data.List.Pairwise
import NanoClr.Scheduling.ScheduleThreads

/-!
# Ready threads in order

The ready threads other than the one that runs are ordered by their counters.
What putting a thread in its list asks for to keep them so.
-/

namespace NanoClr

namespace Scheduling

open CLR_RT_ExecutionEngine

/-! ## Insertion by counter -/

section Insertion

variable {counter : Nat → Int} {thTarget : Nat} {threads : List Nat}

theorem mem_insertByCounter {th : Nat} :
    th ∈ insertByCounter counter thTarget threads ↔
      th = thTarget ∨ th ∈ threads := by
  induction threads with
  | nil => simp [insertByCounter]
  | cons other rest inductionHypothesis =>
      rw [insertByCounter]
      split
      · simp
      · simp only [List.mem_cons, inductionHypothesis]
        tauto

/-- An insertion keeps the order of the threads that are looked at, when none
behind the place of the insertion has a higher counter. -/
theorem pairwise_insertByCounter
    {looked : Nat → Bool}
    (ordered : (threads.filter looked).Pairwise
      fun left right => counter right ≤ counter left)
    (inOrder : ∀ other ∈ threads.dropWhile
        (fun other => counter thTarget ≤ counter other),
      looked other → counter other ≤ counter thTarget) :
    ((insertByCounter counter thTarget threads).filter looked).Pairwise
      fun left right => counter right ≤ counter left := by
  induction threads with
  | nil => cases isLooked : looked thTarget <;> simp [insertByCounter, isLooked]
  | cons other rest inductionHypothesis =>
      rw [insertByCounter]
      split
      · next lower =>
        have first : ¬ counter thTarget ≤ counter other := by omega
        rw [List.dropWhile_cons_of_neg (by simpa using first)] at inOrder
        cases isLooked : looked thTarget with
        | false =>
            rw [List.filter_cons_of_neg (by simp [isLooked])]
            exact ordered
        | true =>
            rw [List.filter_cons_of_pos isLooked]
            refine List.pairwise_cons.mpr ⟨fun inner member => ?_, ordered⟩
            have ⟨inList, isInner⟩ := List.mem_filter.mp member
            exact inOrder inner inList isInner
      · next notLower =>
        have before : counter thTarget ≤ counter other := by omega
        rw [List.dropWhile_cons_of_pos (by simpa using before)] at inOrder
        cases isLooked : looked other with
        | false =>
            rw [List.filter_cons_of_neg (by simp [isLooked])] at ordered ⊢
            exact inductionHypothesis ordered inOrder
        | true =>
            rw [List.filter_cons_of_pos isLooked] at ordered ⊢
            have ⟨above, rest⟩ := List.pairwise_cons.mp ordered
            refine List.pairwise_cons.mpr
              ⟨fun inner member => ?_, inductionHypothesis rest inOrder⟩
            have ⟨inList, isInner⟩ := List.mem_filter.mp member
            rcases mem_insertByCounter.mp inList with rfl | inRest
            · exact before
            · exact above inner (List.mem_filter.mpr ⟨inRest, isInner⟩)

/-- Behind the first lower counter of an ordered list, all are lower. -/
theorem le_of_mem_dropWhile
    {bound : Int}
    {th : Nat}
    (ordered : threads.Pairwise fun left right => counter right ≤ counter left)
    (member : th ∈ threads.dropWhile fun other => bound ≤ counter other) :
    counter th ≤ bound := by
  induction threads with
  | nil => simp at member
  | cons other rest inductionHypothesis =>
      have ⟨above, rest⟩ := List.pairwise_cons.mp ordered
      by_cases before : bound ≤ counter other
      · rw [List.dropWhile_cons_of_pos (by simpa using before)] at member
        exact inductionHypothesis rest member
      · rw [List.dropWhile_cons_of_neg (by simpa using before)] at member
        rcases List.mem_cons.mp member with rfl | later
        · omega
        · have := above th later
          omega

theorem nodup_insertByCounter
    (nodup : threads.Nodup)
    (outside : thTarget ∉ threads) :
    (insertByCounter counter thTarget threads).Nodup := by
  induction threads with
  | nil => exact List.nodup_singleton thTarget
  | cons other rest inductionHypothesis =>
      have ⟨notInRest, rest⟩ := List.nodup_cons.mp nodup
      have ⟨different, outside'⟩ := not_or.mp (List.mem_cons.not.mp outside)
      rw [insertByCounter]
      split
      · exact List.nodup_cons.mpr ⟨outside, nodup⟩
      · refine List.nodup_cons.mpr ⟨?_, inductionHypothesis rest outside'⟩
        intro inserted
        rcases mem_insertByCounter.mp inserted with same | inRest
        · exact different same.symm
        · exact notInRest inRest

/-- The other threads around the thread that is inserted. -/
theorem filter_insertByCounter :
    (insertByCounter counter thTarget threads).filter (· ≠ thTarget) =
      threads.filter (· ≠ thTarget) := by
  induction threads with
  | nil => simp [insertByCounter]
  | cons other rest inductionHypothesis =>
      rw [insertByCounter]
      split
      · simp
      · simp only [List.filter_cons, inductionHypothesis]

theorem dropWhile_congr
    {left right : Nat → Bool}
    (same : ∀ th ∈ threads, left th = right th) :
    threads.dropWhile left = threads.dropWhile right := by
  induction threads with
  | nil => rfl
  | cons th rest inductionHypothesis =>
      have ⟨first, later⟩ := List.forall_mem_cons.mp same
      simp only [List.dropWhile_cons, first, inductionHypothesis later]

end Insertion

/-! ## The invariant -/

/-- The ready threads other than the one that runs. -/
def CLR_RT_ExecutionEngine.readyOthers (engine : CLR_RT_ExecutionEngine) :
    List Nat :=
  engine.m_threadsReady.filter fun th => some th ≠ engine.running

/-- The ready threads are in order, apart from the one that runs, and on no
other list. -/
structure ReadyInvariant (engine : CLR_RT_ExecutionEngine) : Prop where
  ordered : engine.readyOthers.Pairwise
    fun left right => engine.counter right ≤ engine.counter left
  nodup : engine.m_threadsReady.Nodup
  apart : ∀ th ∈ engine.m_threadsReady,
    th ∉ engine.m_threadsWaiting ∧ th ∉ engine.m_threadsZombie

/-- A thread that enters the ready threads with a counter is put in front of no
thread with a higher one, other than the thread that runs. -/
def EntersInOrder (engine : CLR_RT_ExecutionEngine) (th : Nat)
    (counter : Int) : Prop :=
  ∀ other ∈ (engine.m_threadsReady.filter (· ≠ th)).dropWhile
      (fun other => counter ≤ engine.counter other),
    some other ≠ engine.running → engine.counter other ≤ counter

instance (engine : CLR_RT_ExecutionEngine) (th : Nat) (counter : Int) :
    Decidable (EntersInOrder engine th counter) :=
  inferInstanceAs (Decidable (∀ other ∈ (engine.m_threadsReady.filter
    (· ≠ th)).dropWhile _, _ → _))

section Invariant

variable {engine later : CLR_RT_ExecutionEngine} {th : Nat}

/-- The same ready threads, some of them running, with the same counters. -/
theorem ReadyInvariant.sameReady
    (invariant : ReadyInvariant engine)
    (ready : later.m_threadsReady = engine.m_threadsReady)
    (waiting : later.m_threadsWaiting = engine.m_threadsWaiting)
    (zombie : later.m_threadsZombie = engine.m_threadsZombie)
    (sublist : later.readyOthers.Sublist engine.readyOthers)
    (counters : ∀ th ∈ later.readyOthers,
      later.counter th = engine.counter th) :
    ReadyInvariant later := by
  refine ⟨?_, ready ▸ invariant.nodup, ?_⟩
  · apply (invariant.ordered.sublist sublist).imp_of_mem
    intro left right isLeft isRight order
    rw [counters left isLeft, counters right isRight]
    exact order
  · rw [ready, waiting, zombie]
    exact invariant.apart

theorem counter_modifyThread_of_ne
    {other : Nat}
    {change : CLR_RT_Thread → CLR_RT_Thread}
    (different : other ≠ th) :
    (engine.modifyThread th change).counter other = engine.counter other :=
  congrArg CLR_RT_Thread.GetExecutionCounter
    (Function.update_of_ne different _ _)

theorem counter_modifyThread_self
    {change : CLR_RT_Thread → CLR_RT_Thread} :
    (engine.modifyThread th change).counter th =
      (change (engine.threads th)).GetExecutionCounter :=
  congrArg CLR_RT_Thread.GetExecutionCounter (Function.update_self _ _ _)

/-- A change of a thread that leaves its counter. -/
theorem ReadyInvariant.modifyThread
    {change : CLR_RT_Thread → CLR_RT_Thread}
    (invariant : ReadyInvariant engine)
    (same : th ∈ engine.readyOthers →
      (change (engine.threads th)).GetExecutionCounter = engine.counter th) :
    ReadyInvariant (engine.modifyThread th change) := by
  refine ReadyInvariant.sameReady invariant rfl rfl rfl
    (List.Sublist.refl engine.readyOthers) ?_
  intro other member
  by_cases isTh : other = th
  · subst isTh
    rw [counter_modifyThread_self]
    exact same member
  · exact counter_modifyThread_of_ne isTh

theorem ReadyInvariant.setStatus
    {m_status : ThreadStatus}
    (invariant : ReadyInvariant engine) :
    ReadyInvariant (engine.setStatus th m_status) :=
  invariant.modifyThread fun _ => rfl

theorem ReadyInvariant.unlink
    (invariant : ReadyInvariant engine) :
    ReadyInvariant (engine.unlink th) := by
  refine ⟨?_, invariant.nodup.filter _, ?_⟩
  · exact invariant.ordered.sublist (List.filter_sublist.filter _)
  · intro other member
    have ⟨apartWaiting, apartZombie⟩ :=
      invariant.apart other (List.mem_of_mem_filter member)
    exact ⟨fun inWaiting => apartWaiting (List.mem_of_mem_filter inWaiting),
      fun inZombie => apartZombie (List.mem_of_mem_filter inZombie)⟩

theorem ReadyInvariant.unlinkModified
    {change : CLR_RT_Thread → CLR_RT_Thread}
    (unlinked : ReadyInvariant (engine.unlink th))
    (same : ∀ thread,
      (change thread).GetExecutionCounter = thread.GetExecutionCounter) :
    ReadyInvariant ((engine.modifyThread th change).unlink th) := by
  have changed : ReadyInvariant ((engine.unlink th).modifyThread th change) :=
    unlinked.modifyThread fun _ => same _
  exact changed

/-- A thread that is unlinked is on no list. -/
theorem not_mem_unlink :
    th ∉ (engine.unlink th).m_threadsReady ∧
      th ∉ (engine.unlink th).m_threadsWaiting ∧
      th ∉ (engine.unlink th).m_threadsZombie := by
  simp [CLR_RT_ExecutionEngine.unlink]

theorem ReadyInvariant.linkWaiting
    (unlinked : ReadyInvariant (engine.unlink th)) :
    ReadyInvariant (engine.linkWaiting th) := by
  refine ⟨unlinked.ordered, unlinked.nodup, ?_⟩
  intro other member
  have ⟨apartWaiting, apartZombie⟩ := unlinked.apart other member
  refine ⟨?_, apartZombie⟩
  intro inWaiting
  rcases List.mem_append.mp inWaiting with before | isTh
  · exact apartWaiting before
  · exact not_mem_unlink.1 (List.mem_singleton.mp isTh ▸ member)

theorem ReadyInvariant.linkZombie
    (unlinked : ReadyInvariant (engine.unlink th)) :
    ReadyInvariant (engine.linkZombie th) := by
  refine ⟨unlinked.ordered, unlinked.nodup, ?_⟩
  intro other member
  have ⟨apartWaiting, apartZombie⟩ := unlinked.apart other member
  refine ⟨apartWaiting, ?_⟩
  intro inZombie
  rcases List.mem_cons.mp inZombie with isTh | before
  · exact not_mem_unlink.1 (isTh ▸ member)
  · exact apartZombie before

theorem ReadyInvariant.insertThreadRoundRobin
    (unlinked : ReadyInvariant (engine.unlink th))
    (enters : EntersInOrder engine th (engine.counter th)) :
    ReadyInvariant (engine.InsertThreadRoundRobin th) := by
  refine ⟨?_, ?_, ?_⟩
  · apply pairwise_insertByCounter unlinked.ordered
    intro other member isOther
    exact enters other member (of_decide_eq_true isOther)
  · exact nodup_insertByCounter unlinked.nodup not_mem_unlink.1
  · intro other member
    rcases mem_insertByCounter.mp member with rfl | before
    · exact not_mem_unlink.2
    · exact unlinked.apart other before

theorem ReadyInvariant.passivate
    (unlinked : ReadyInvariant (engine.unlink th)) :
    ReadyInvariant (engine.Passivate th) := by
  have changed : ReadyInvariant ((engine.setSuspended th false).unlink th) :=
    unlinked.unlinkModified fun _ => rfl
  have linked : ReadyInvariant ((engine.setSuspended th false).linkZombie th) :=
    changed.linkZombie
  rw [Passivate]
  split
  · exact linked.setStatus
  · exact linked.setStatus

/-- A thread that is put in its list keeps the order if it enters the ready
threads in order. -/
theorem ReadyInvariant.putInProperList
    (unlinked : ReadyInvariant (engine.unlink th))
    (enters : (engine.threads th).m_status = .TH_S_Ready →
      (engine.threads th).suspended = false →
      EntersInOrder engine th (engine.counter th)) :
    ReadyInvariant (engine.PutInProperList th) := by
  rw [PutInProperList]
  cases status : (engine.threads th).m_status with
  | TH_S_Ready =>
      simp only
      split
      · exact linkWaiting unlinked
      · next notSuspended =>
        exact insertThreadRoundRobin unlinked
          (enters status (by simpa using notSuspended))
  | TH_S_Waiting => exact linkWaiting unlinked
  | TH_S_Terminated => exact passivate unlinked
  | TH_S_Unstarted => exact linkZombie unlinked

/-- While no thread runs, threads enter in order. -/
theorem entersInOrder_of_ordered
    (ordered : (engine.m_threadsReady.filter (· ≠ th)).Pairwise
      fun left right => engine.counter right ≤ engine.counter left)
    (counter : Int) :
    EntersInOrder engine th counter :=
  fun _ member _ => le_of_mem_dropWhile ordered member

theorem status_setStatus {m_status : ThreadStatus} :
    ((engine.setStatus th m_status).threads th).m_status = m_status := by
  simp [CLR_RT_ExecutionEngine.setStatus, CLR_RT_ExecutionEngine.modifyThread]

/-- Changes that leave a thread's counter leave all counters. -/
theorem counter_modifyThread
    {change : CLR_RT_Thread → CLR_RT_Thread}
    (same : ∀ thread,
      (change thread).GetExecutionCounter = thread.GetExecutionCounter) :
    (engine.modifyThread th change).counter = engine.counter := by
  funext other
  by_cases isTh : other = th
  · subst isTh
    rw [counter_modifyThread_self, same]
    rfl
  · exact counter_modifyThread_of_ne isTh

theorem EntersInOrder.modifyThread
    {other : Nat}
    {bound : Int}
    {change : CLR_RT_Thread → CLR_RT_Thread}
    (enters : EntersInOrder engine other bound)
    (same : ∀ thread,
      (change thread).GetExecutionCounter = thread.GetExecutionCounter) :
    EntersInOrder (engine.modifyThread th change) other bound := by
  rw [EntersInOrder, counter_modifyThread same]
  exact enters

/-- A thread that changes without its counter and is put in its list. -/
theorem ReadyInvariant.modifyAndPut
    {change : CLR_RT_Thread → CLR_RT_Thread}
    (invariant : ReadyInvariant engine)
    (same : ∀ thread,
      (change thread).GetExecutionCounter = thread.GetExecutionCounter)
    (enters : (change (engine.threads th)).m_status = .TH_S_Ready →
      (change (engine.threads th)).suspended = false →
      EntersInOrder engine th (engine.counter th)) :
    ReadyInvariant ((engine.modifyThread th change).PutInProperList th) := by
  have changed : ReadyInvariant (engine.modifyThread th change) :=
    invariant.modifyThread fun _ => same _
  apply putInProperList changed.unlink
  have updated : (engine.modifyThread th change).threads th =
      change (engine.threads th) := Function.update_self _ _ _
  rw [updated, counter_modifyThread same]
  intro isReady notSuspended
  exact (enters isReady notSuspended).modifyThread same

end Invariant

end Scheduling

end NanoClr
