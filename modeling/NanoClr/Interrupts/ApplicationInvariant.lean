import NanoClr.Interrupts.EventQueues

/-!
# The application queue

The count of the application queue is right between its operations, and an
event leaves the queue for its dispatch or with its dispatcher.  The walk over
the nodes of a released dispatcher stays on the queue as long as no dispatch
takes the node behind the one that was removed.
-/

namespace NanoClr

namespace Interrupts

open ApplicationQueue

/-! ## Dispatches -/

/-- How many nodes a call of `SpawnDispatcher` takes when there are enough. -/
def attempts : List DispatchOutcome → Nat
  | .starts :: _ => 1
  | .fails :: outcomes => attempts outcomes + 1
  | _ => 0

/-- Whether a call of `SpawnDispatcher` starts a dispatch when there are enough
nodes. -/
def succeeds : List DispatchOutcome → Bool
  | .starts :: _ => true
  | .fails :: outcomes => succeeds outcomes
  | _ => false

/-- A call that takes the given number of nodes, or all if there are not so
many. -/
structure Dispatches (queue : ApplicationQueue) (count : Nat)
    (later : ApplicationQueue) : Prop where
  m_applicationQueue :
    later.m_applicationQueue = queue.m_applicationQueue.drop count
  counted : ∀ extra,
    queue.m_queuedInterrupts = .ofNat queue.m_applicationQueue.length + extra →
      later.m_queuedInterrupts =
        .ofNat later.m_applicationQueue.length + extra
  dispatched : later.dispatched = queue.dispatched ++
    (queue.m_applicationQueue.take count).map (·.toSavedEvent)
  transferred : later.transferred = queue.transferred
  released : later.released = queue.released
  usedUnlinked : later.usedUnlinked = queue.usedUnlinked

theorem Dispatches.none (queue : ApplicationQueue) :
    Dispatches queue 0 queue where
  m_applicationQueue := rfl
  counted := fun _ counted => counted
  dispatched := by simp
  transferred := rfl
  released := rfl
  usedUnlinked := rfl

theorem spawnDispatcher_busy
    {queue : ApplicationQueue}
    (busy : queue.dispatching.isSome = true)
    (outcomes : List DispatchOutcome) :
    SpawnDispatcher outcomes queue = queue := by
  obtain ⟨interrupt, isBusy⟩ := Option.isSome_iff_exists.mp busy
  cases outcomes with
  | nil => rfl
  | cons outcome outcomes => simp [SpawnDispatcher, isBusy]

theorem spawnDispatcher_empty
    {queue : ApplicationQueue}
    (empty : queue.m_applicationQueue = [])
    (outcomes : List DispatchOutcome) :
    SpawnDispatcher outcomes queue = queue := by
  cases outcomes with
  | nil => rfl
  | cons outcome outcomes =>
      rw [SpawnDispatcher, empty]
      split
      next same => cases same
      next => rfl

/-- Taking the first node before the others. -/
theorem Dispatches.cons
    {queue unlinked later : ApplicationQueue}
    {interrupt : CLR_RT_ApplicationInterrupt}
    {rest : List CLR_RT_ApplicationInterrupt}
    {count : Nat}
    (dispatching : Option CLR_RT_ApplicationInterrupt)
    (nodes : queue.m_applicationQueue = interrupt :: rest)
    (unlinks : unlinked = { queue with
      m_applicationQueue := rest
      dispatched := queue.dispatched ++ [interrupt.toSavedEvent] })
    (dispatches : Dispatches unlinked count later) :
    Dispatches queue (count + 1) { later with
      dispatching
      m_queuedInterrupts := later.m_queuedInterrupts - 1 } where
  m_applicationQueue := by
    rw [dispatches.m_applicationQueue, unlinks, nodes, List.drop_succ_cons]
  counted := fun extra counted => by
    have before : unlinked.m_queuedInterrupts =
        .ofNat unlinked.m_applicationQueue.length + (extra + 1) := by
      rw [nodes, List.length_cons, UInt32.ofNat_add] at counted
      rw [unlinks]
      show queue.m_queuedInterrupts = .ofNat rest.length + (extra + 1)
      rw [counted, UInt32.add_assoc, UInt32.add_comm extra 1]
      rfl
    show later.m_queuedInterrupts - 1 = _
    rw [dispatches.counted (extra + 1) before, ← UInt32.add_assoc,
      UInt32.add_sub_cancel]
  dispatched := by
    rw [dispatches.dispatched, unlinks, nodes, List.take_succ_cons,
      List.map_cons, List.append_assoc]
    rfl
  transferred := by rw [dispatches.transferred, unlinks]
  released := by rw [dispatches.released, unlinks]
  usedUnlinked := by rw [dispatches.usedUnlinked, unlinks]

/-- How many nodes a call takes when there are enough, with the thread free or
busy. -/
def wanted (busy : Bool) (outcomes : List DispatchOutcome) : Nat :=
  if busy then 0 else attempts outcomes

theorem spawnDispatcher_spec
    (outcomes : List DispatchOutcome)
    (queue : ApplicationQueue) :
    Dispatches queue (wanted queue.dispatching.isSome outcomes)
        (SpawnDispatcher outcomes queue) ∧
      (wanted queue.dispatching.isSome outcomes ≤
        queue.m_applicationQueue.length →
        (SpawnDispatcher outcomes queue).dispatching.isSome =
          (queue.dispatching.isSome || succeeds outcomes)) := by
  cases busy : queue.dispatching with
  | some interrupt =>
      rw [spawnDispatcher_busy (by simp [busy])]
      exact ⟨.none queue, fun _ => by simp [busy]⟩
  | none =>
      simp only [wanted, Option.isSome_none, Bool.false_or, Bool.false_eq_true,
        if_false]
      induction outcomes generalizing queue with
      | nil => exact ⟨.none queue, fun _ => by simp [SpawnDispatcher, succeeds,
          busy]⟩
      | cons outcome outcomes inductionHypothesis =>
          cases nodes : queue.m_applicationQueue with
          | nil =>
              rw [spawnDispatcher_empty nodes]
              refine ⟨?_, fun enough => ?_⟩
              · exact {
                  m_applicationQueue := by simp [nodes]
                  counted := fun _ counted => counted
                  dispatched := by simp [nodes]
                  transferred := rfl
                  released := rfl
                  usedUnlinked := rfl }
              · cases outcome with
                | bailsOut => simp [busy, succeeds]
                | fails => simp [attempts] at enough
                | starts => simp [attempts] at enough
          | cons interrupt rest =>
              cases outcome with
              | bailsOut =>
                  simp only [SpawnDispatcher, busy, nodes]
                  exact ⟨.none queue, fun _ => by simp [succeeds]⟩
              | starts =>
                  simp only [SpawnDispatcher, busy, nodes]
                  exact ⟨.cons (some interrupt) nodes rfl (.none _),
                    fun _ => rfl⟩
              | fails =>
                  simp only [SpawnDispatcher, busy, nodes]
                  have both := inductionHypothesis { queue with
                    m_applicationQueue := rest
                    dispatched :=
                      queue.dispatched ++ [interrupt.toSavedEvent] } busy
                  rw [busy] at both
                  exact ⟨.cons _ nodes (by rw [busy]) both.1, fun enough =>
                    both.2 (by simpa [attempts] using enough)⟩

/-! ## The invariant -/

/-- The count is the number of nodes, and every event that was transferred is
on the queue, or was dispatched, or belongs to a released dispatcher. -/
structure ApplicationInvariant (queue : ApplicationQueue) : Prop where
  counted : queue.m_queuedInterrupts = .ofNat queue.m_applicationQueue.length
  placed : ∀ event ∈ queue.transferred,
    event ∈ queue.m_applicationQueue.map (·.toSavedEvent) ∨
      event ∈ queue.dispatched ∨ event.m_context ∈ queue.released
  linked : queue.usedUnlinked = false

namespace ApplicationInvariant

variable {queue later : ApplicationQueue}

theorem link
    (invariant : ApplicationInvariant queue)
    (queueRec : CLR_RT_ApplicationInterrupt) :
    ApplicationInvariant (queue.link queueRec) where
  counted := by
    rw [ApplicationQueue.link, List.length_append, UInt32.ofNat_add,
      invariant.counted]
    rfl
  placed := fun event member => by
    rcases List.mem_append.mp member with before | isNew
    · rcases invariant.placed event before with onQueue | elsewhere
      · refine .inl ?_
        rw [ApplicationQueue.link, List.map_append]
        exact List.mem_append_left _ onQueue
      · exact .inr elsewhere
    · refine .inl ?_
      rw [ApplicationQueue.link, List.map_append]
      exact List.mem_append_right _ isNew
  linked := invariant.linked

theorem dispatches
    {count : Nat}
    (invariant : ApplicationInvariant queue)
    (dispatches : Dispatches queue count later) :
    ApplicationInvariant later where
  counted := by
    have exact := dispatches.counted 0 (by simpa using invariant.counted)
    simpa using exact
  placed := fun event member => by
    rw [dispatches.transferred] at member
    rw [dispatches.m_applicationQueue, dispatches.dispatched,
      dispatches.released, List.map_drop, List.map_take]
    rcases invariant.placed event member with onQueue | elsewhere | isReleased
    · rw [← List.take_append_drop count
        (queue.m_applicationQueue.map (·.toSavedEvent))] at onQueue
      rcases List.mem_append.mp onQueue with isTaken | stays
      · exact .inr (.inl (List.mem_append_right _ isTaken))
      · exact .inl stays
    · exact .inr (.inl (List.mem_append_left _ elsewhere))
    · exact .inr (.inr isReleased)
  linked := dispatches.usedUnlinked.trans invariant.linked

theorem threadTerminates
    (invariant : ApplicationInvariant queue)
    (outcomes : List DispatchOutcome) :
    ApplicationInvariant (queue.threadTerminates outcomes) := by
  have idle : ApplicationInvariant { queue with dispatching := none } :=
    ⟨invariant.counted, invariant.placed, invariant.linked⟩
  exact idle.dispatches (spawnDispatcher_spec outcomes _).1

theorem dispatchNode
    {interrupt : CLR_RT_ApplicationInterrupt}
    (invariant : ApplicationInvariant queue)
    (isFirst : queue.m_applicationQueue.head? = some interrupt)
    (outcomes : List DispatchOutcome) :
    ApplicationInvariant (queue.dispatchNode interrupt outcomes) ∧
      (queue.dispatchNode interrupt outcomes).transferred =
        queue.transferred := by
  obtain ⟨rest, nodes⟩ := List.head?_eq_some_iff.mp isFirst
  have taken : ∃ count,
      Dispatches queue count (queue.dispatchNode interrupt outcomes) := by
    have onQueue : interrupt ∈ interrupt :: rest := List.mem_cons_self
    unfold ApplicationQueue.dispatchNode
    simp only [nodes, onQueue, if_true, List.erase_cons_head]
    split
    next outcomes =>
      have both := spawnDispatcher_spec outcomes { queue with
        m_applicationQueue := rest
        dispatched := queue.dispatched ++ [interrupt.toSavedEvent] }
      exact ⟨_, .cons _ nodes rfl both.1⟩
    next => exact ⟨_, .cons _ nodes rfl (.none _)⟩
  obtain ⟨count, dispatches⟩ := taken
  exact ⟨invariant.dispatches dispatches, dispatches.transferred⟩

/-- Removing a node of a released dispatcher. -/
theorem removeNode
    {dispatcher : Nat}
    {passed rest : List CLR_RT_ApplicationInterrupt}
    {interrupt : CLR_RT_ApplicationInterrupt}
    (invariant : ApplicationInvariant queue)
    (nodes : queue.m_applicationQueue = passed ++ interrupt :: rest)
    (isReleased : dispatcher ∈ queue.released)
    (ofDispatcher : interrupt.m_context = dispatcher) :
    ApplicationInvariant { queue with
      m_applicationQueue := passed ++ rest
      m_queuedInterrupts := queue.m_queuedInterrupts - 1 } where
  counted := by
    have counted := invariant.counted
    rw [nodes, List.length_append, List.length_cons, ← Nat.add_assoc,
      ← List.length_append, UInt32.ofNat_add] at counted
    show queue.m_queuedInterrupts - 1 = .ofNat (passed ++ rest).length
    rw [counted]
    exact UInt32.add_sub_cancel _ _
  placed := fun event member => by
    rcases invariant.placed event member with onQueue | elsewhere
    · rw [nodes, List.map_append, List.map_cons, List.mem_append,
        List.mem_cons] at onQueue
      rw [List.map_append, List.mem_append]
      rcases onQueue with inFront | rfl | behind
      · exact .inl (.inl inFront)
      · exact .inr (.inr (ofDispatcher ▸ isReleased))
      · exact .inl (.inr behind)
    · exact .inr elsewhere
  linked := invariant.linked

end ApplicationInvariant

/-! ## Releasing a dispatcher -/

/-- No dispatch in the walk over the nodes of a released dispatcher takes the
node behind the one that was removed, and none takes any where the first node
has to stay. -/
def WalkUndisturbed (keepsFirst : Bool) (dispatcher : Nat) :
    List (List DispatchOutcome) → Nat → Bool →
      List CLR_RT_ApplicationInterrupt → Prop
  | _, _, _, [] => True
  | calls, passed, busy, interrupt :: rest =>
      if interrupt.m_context = dispatcher then
        let taken := wanted busy (calls.headD [])
        (if keepsFirst then taken = 0 else rest = [] ∨ taken ≤ passed) ∧
          WalkUndisturbed keepsFirst dispatcher calls.tail (passed - taken)
            (busy || succeeds (calls.headD [])) rest
      else
        WalkUndisturbed keepsFirst dispatcher calls (passed + 1) busy rest

theorem releaseNodes_spec
    {keepsFirst : Bool}
    {dispatcher : Nat}
    (rest : List CLR_RT_ApplicationInterrupt)
    {calls : List (List DispatchOutcome)}
    {passed : List CLR_RT_ApplicationInterrupt}
    {queue : ApplicationQueue}
    (nodes : queue.m_applicationQueue = passed ++ rest)
    (invariant : ApplicationInvariant queue)
    (isReleased : dispatcher ∈ queue.released)
    (undisturbed : WalkUndisturbed keepsFirst dispatcher calls passed.length
      queue.dispatching.isSome rest) :
    ApplicationInvariant (releaseNodes dispatcher calls passed rest queue) ∧
      (releaseNodes dispatcher calls passed rest queue).transferred =
        queue.transferred ∧
      (keepsFirst = true → passed ≠ [] →
        (releaseNodes dispatcher calls passed rest queue
          ).m_applicationQueue.head? = passed.head?) := by
  induction rest generalizing calls passed queue with
  | nil =>
      refine ⟨invariant, rfl, fun _ _ => ?_⟩
      rw [releaseNodes, nodes, List.append_nil]
  | cons interrupt rest inductionHypothesis =>
      rw [releaseNodes]
      rw [WalkUndisturbed] at undisturbed
      split at undisturbed
      next ofDispatcher =>
        simp only [ofDispatcher, if_true]
        obtain ⟨fits, undisturbed⟩ := undisturbed
        have removed := invariant.removeNode nodes isReleased ofDispatcher
        obtain ⟨dispatches, busyAfter⟩ :=
          spawnDispatcher_spec (calls.headD []) { queue with
            m_applicationQueue := passed ++ rest
            m_queuedInterrupts := queue.m_queuedInterrupts - 1 }
        generalize SpawnDispatcher (calls.headD []) { queue with
            m_applicationQueue := passed ++ rest
            m_queuedInterrupts := queue.m_queuedInterrupts - 1 } = later
          at dispatches busyAfter ⊢
        have kept := removed.dispatches dispatches
        dsimp only at dispatches busyAfter
        generalize wanted queue.dispatching.isSome (calls.headD []) = count
          at fits undisturbed dispatches busyAfter
        have left : later.m_applicationQueue = (passed ++ rest).drop count :=
          dispatches.m_applicationQueue
        have taken : (passed ++ rest).length -
            later.m_applicationQueue.length =
              min count (passed ++ rest).length := by
          rw [left, List.length_drop]
          omega
        have few : rest = [] ∧ keepsFirst = false ∨
            count ≤ passed.length ∧ (keepsFirst = true → count = 0) := by
          cases keepsFirst with
          | true =>
              simp only [if_true] at fits
              exact .inr ⟨by omega, fun _ => fits⟩
          | false => simpa using fits
        rcases few with ⟨rfl, keeps⟩ | ⟨few, keeps⟩
        · rw [taken, List.append_nil, if_neg (by omega)]
          refine ⟨kept, dispatches.transferred, fun keeps' => ?_⟩
          rw [keeps] at keeps'
          cases keeps'
        · have enough : count ≤ (passed ++ rest).length := by
            rw [List.length_append]
            omega
          rw [taken, Nat.min_eq_left enough, if_neg (by omega)]
          obtain ⟨kept, same, first⟩ := inductionHypothesis
            (left.trans (List.drop_append_of_le_length few)) kept
            (dispatches.released ▸ isReleased)
            (by rw [busyAfter enough, List.length_drop]; exact undisturbed)
          refine ⟨kept, same.trans dispatches.transferred,
            fun keepsFirst nonempty => ?_⟩
          have nothing := keeps keepsFirst
          subst nothing
          exact first keepsFirst nonempty
      next otherDispatcher =>
        simp only [otherDispatcher, if_false]
        have moved : queue.m_applicationQueue =
            (passed ++ [interrupt]) ++ rest := by
          rw [nodes, List.append_assoc]
          rfl
        obtain ⟨kept, same, first⟩ := inductionHypothesis moved invariant
          isReleased (by simpa using undisturbed)
        refine ⟨kept, same, fun keeps nonempty => ?_⟩
        rw [first keeps (List.append_ne_nil_of_left_ne_nil nonempty _),
          List.head?_append_of_ne_nil _ nonempty]

section Release

variable {queue : ApplicationQueue} {dispatcher : Nat}
  {calls : List (List DispatchOutcome)}

theorem ApplicationInvariant.release
    (invariant : ApplicationInvariant queue)
    (dispatcher : Nat) :
    ApplicationInvariant { queue with
      released := queue.released ++ [dispatcher] } where
  counted := invariant.counted
  placed := fun event member => by
    rcases invariant.placed event member with onQueue | elsewhere | isReleased
    · exact .inl onQueue
    · exact .inr (.inl elsewhere)
    · exact .inr (.inr (List.mem_append_left _ isReleased))
  linked := invariant.linked

theorem ApplicationInvariant.releaseWhenDeadEx
    (invariant : ApplicationInvariant queue)
    (undisturbed : WalkUndisturbed false dispatcher calls 0
      queue.dispatching.isSome queue.m_applicationQueue) :
    ApplicationInvariant (queue.ReleaseWhenDeadEx dispatcher calls) ∧
      (queue.ReleaseWhenDeadEx dispatcher calls).transferred =
        queue.transferred := by
  have begun := invariant.release dispatcher
  have nodes : { queue with
      released := queue.released ++ [dispatcher] }.m_applicationQueue =
        [] ++ queue.m_applicationQueue := rfl
  obtain ⟨kept, transferred, -⟩ :=
    releaseNodes_spec queue.m_applicationQueue nodes begun
      (List.mem_append_right _ List.mem_cons_self) undisturbed
  exact ⟨kept, transferred⟩

/-- A release that leaves the first node where it is. -/
theorem ApplicationInvariant.releaseWhenDeadEx_first
    {first : CLR_RT_ApplicationInterrupt}
    {rest : List CLR_RT_ApplicationInterrupt}
    (invariant : ApplicationInvariant queue)
    (nodes : queue.m_applicationQueue = first :: rest)
    (other : first.m_context ≠ dispatcher)
    (undisturbed : WalkUndisturbed true dispatcher calls 0
      queue.dispatching.isSome queue.m_applicationQueue) :
    ApplicationInvariant (queue.ReleaseWhenDeadEx dispatcher calls) ∧
      (queue.ReleaseWhenDeadEx dispatcher calls).transferred =
        queue.transferred ∧
      (queue.ReleaseWhenDeadEx dispatcher calls).m_applicationQueue.head? =
        some first := by
  rw [nodes, WalkUndisturbed, if_neg other] at undisturbed
  have begun := invariant.release dispatcher
  have split : { queue with
      released := queue.released ++ [dispatcher] }.m_applicationQueue =
        [first] ++ rest := nodes
  have undisturbed : WalkUndisturbed true dispatcher calls [first].length
      queue.dispatching.isSome rest := undisturbed
  obtain ⟨kept, transferred, isFirst⟩ :=
    releaseNodes_spec rest split begun
      (List.mem_append_right _ List.mem_cons_self) undisturbed
  have moved : ∀ begun, ApplicationQueue.releaseNodes dispatcher calls []
      (first :: rest) begun =
      ApplicationQueue.releaseNodes dispatcher calls [first] rest begun := by
    intro begun
    rw [ApplicationQueue.releaseNodes, if_neg other]
    rfl
  rw [ReleaseWhenDeadEx]
  generalize isBegun :
    { queue with released := queue.released ++ [dispatcher] } = begun
    at kept transferred isFirst ⊢
  have same : begun.transferred = queue.transferred := by rw [← isBegun]
  rw [nodes, moved]
  exact ⟨kept, transferred.trans same, isFirst rfl (List.cons_ne_nil _ _)⟩

end Release

end Interrupts

end NanoClr
