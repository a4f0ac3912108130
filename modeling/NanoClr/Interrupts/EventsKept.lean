import NanoClr.Interrupts.EventRuns

/-!
# Events that are kept

Runs in which no interrupt and no release of a dispatcher comes at a bad moment
transfer the events in order and lose none without a reason.
-/

namespace NanoClr

namespace Interrupts

open CLR_HW_Hardware

/-- What is promised of the events: they are transferred in the order they were
saved, each at most once and with its own data; an event is lost only when it
was displaced or discarded or belongs to a dispatcher that was disposed of or
released; the count is right; and no null record or unlinked node is used. -/
structure EventsKept (hardware : CLR_HW_Hardware) : Prop where
  inOrder : hardware.application.transferred.Pairwise
    fun left right => left.number < right.number
  ownData : ∀ event ∈ hardware.application.transferred,
    hardware.saved[event.number]? = some event
  lost : ∀ event ∈ hardware.saved,
    event ∈ hardware.application.transferred ∨ event ∈ hardware.contents ∨
      event ∈ hardware.inHand ∨ event ∈ hardware.displaced ∨
      event ∈ hardware.discarded ∨ event.m_context ∈ hardware.disposed
  dispatched : ∀ event ∈ hardware.application.transferred,
    event ∈ hardware.application.m_applicationQueue.map (·.toSavedEvent) ∨
      event ∈ hardware.application.dispatched ∨
      event.m_context ∈ hardware.application.released
  counted : hardware.application.m_queuedInterrupts =
    .ofNat hardware.application.m_applicationQueue.length
  noNull : hardware.usedNull = false
  linked : hardware.application.usedUnlinked = false

theorem EventInvariant.eventsKept
    {hardware : CLR_HW_Hardware}
    (invariant : EventInvariant hardware) :
    EventsKept hardware where
  inOrder := (List.pairwise_append.mp invariant.ordered).1
  ownData := fun event isTransferred => by
    have isSaved := invariant.known event (.inl isTransferred)
    obtain ⟨number, isSaved⟩ := List.mem_iff_getElem?.mp isSaved
    rwa [invariant.numbered number event isSaved]
  lost := invariant.kept
  dispatched := invariant.application.placed
  counted := invariant.application.counted
  noNull := invariant.notNull
  linked := invariant.application.linked

/-- When what happens does no harm: an interrupt as said; a copy of a record
that is still the oldest one; a release whose dispatches do not take the node
behind a removed one, nor the node that is about to be dispatched. -/
def Undisturbed (hardware : CLR_HW_Hardware) : Happening → Prop
  | .save context data1 data2 time =>
      SaveUndisturbed hardware (hardware.newEvent context data1 data2 time)
  | .copy => ∀ rec, hardware.phase = .transferring rec →
      hardware.m_HalQueue.m_reader = rec
  | .release dispatcher calls =>
      match hardware.phase with
      | .spawning interrupt =>
          interrupt.m_context ≠ dispatcher ∧
            WalkUndisturbed true dispatcher calls 0
              hardware.application.dispatching.isSome
              hardware.application.m_applicationQueue
      | _ =>
          WalkUndisturbed false dispatcher calls 0
            hardware.application.dispatching.isSome
            hardware.application.m_applicationQueue
  | _ => True

section Steps

variable {hardware later : CLR_HW_Hardware}

theorem EventInvariant.release
    {dispatcher : Nat}
    {calls : List (List DispatchOutcome)}
    (invariant : EventInvariant hardware)
    (releases : hardware.phase.releases = true)
    (undisturbed : Undisturbed hardware (.release dispatcher calls)) :
    EventInvariant { hardware with
      application :=
        hardware.application.ReleaseWhenDeadEx dispatcher calls } := by
  have holds := invariant.phase
  rw [PhaseInvariant] at holds
  rw [Undisturbed] at undisturbed
  have released : ApplicationInvariant
        (hardware.application.ReleaseWhenDeadEx dispatcher calls) ∧
      (hardware.application.ReleaseWhenDeadEx dispatcher calls).transferred =
        hardware.application.transferred ∧
      PhaseInvariant { hardware with
        application :=
          hardware.application.ReleaseWhenDeadEx dispatcher calls } := by
    cases isPhase : hardware.phase with
    | spawning interrupt =>
        rw [isPhase] at undisturbed holds
        obtain ⟨other, undisturbed⟩ := undisturbed
        obtain ⟨rest, nodes⟩ := List.head?_eq_some_iff.mp holds
        exact invariant.application.releaseWhenDeadEx_first nodes other
          undisturbed
    | idle =>
        rw [isPhase] at undisturbed
        obtain ⟨kept, transferred⟩ :=
          invariant.application.releaseWhenDeadEx undisturbed
        exact ⟨kept, transferred, trivial⟩
    | transferring rec =>
        rw [isPhase] at undisturbed holds
        obtain ⟨kept, transferred⟩ :=
          invariant.application.releaseWhenDeadEx undisturbed
        exact ⟨kept, transferred, holds⟩
    | _ =>
        rw [isPhase] at releases
        cases releases
  exact invariant.applicationStep released.1 released.2.1 released.2.2

/-- Whatever happens without doing harm keeps the invariant. -/
theorem EventInvariant.after
    {happening : Happening}
    (invariant : EventInvariant hardware)
    (undisturbed : Undisturbed hardware happening)
    (happens : after hardware happening = some later) :
    EventInvariant later := by
  cases happening with
  | save context data1 data2 time =>
      obtain rfl := Option.some.inj happens
      exact invariant.save rfl
        (saveToHALQueue_saves invariant.wellFormed context data1 data2 time)
        undisturbed
  | release dispatcher calls =>
      rw [Interrupts.after] at happens
      split at happens
      next releases =>
        obtain rfl := Option.some.inj happens
        exact invariant.release releases undisturbed
      next => cases happens
  | beginTransfer =>
      cases isPhase : hardware.phase with
      | idle =>
          simp only [Interrupts.after, isPhase, Option.some.injEq] at happens
          exact happens ▸ invariant.beginTransfer isPhase
      | _ => simp [Interrupts.after, isPhase] at happens
  | peek =>
      cases isPhase : hardware.phase with
      | transfer =>
          simp only [Interrupts.after, isPhase, Option.some.injEq] at happens
          exact happens ▸ invariant.peek isPhase
      | _ => simp [Interrupts.after, isPhase] at happens
  | copy =>
      cases isPhase : hardware.phase with
      | transferring rec =>
          simp only [Interrupts.after, isPhase, Option.some.injEq] at happens
          exact happens ▸ invariant.copy isPhase (undisturbed rec isPhase)
      | _ => simp [Interrupts.after, isPhase] at happens
  | outOfMemory =>
      cases isPhase : hardware.phase with
      | transferring rec =>
          simp only [Interrupts.after, isPhase, Option.some.injEq] at happens
          exact happens ▸ invariant.outOfMemory isPhase
      | _ => simp [Interrupts.after, isPhase] at happens
  | popTransferred =>
      cases isPhase : hardware.phase with
      | transferred rec =>
          simp only [Interrupts.after, isPhase, Option.some.injEq] at happens
          exact happens ▸ invariant.popTransferred isPhase
      | _ => simp [Interrupts.after, isPhase] at happens
  | countElements dispatcher =>
      cases isPhase : hardware.phase with
      | idle =>
          simp only [Interrupts.after, isPhase, Option.some.injEq] at happens
          exact happens ▸ invariant.countElements isPhase dispatcher
      | _ => simp [Interrupts.after, isPhase] at happens
  | popRecord =>
      cases isPhase : hardware.phase with
      | removing dispatcher remaining =>
          cases remaining with
          | zero => simp [Interrupts.after, isPhase] at happens
          | succ remaining =>
              simp only [Interrupts.after, isPhase, Option.some.injEq]
                at happens
              exact happens ▸ invariant.popRecord isPhase
      | _ => simp [Interrupts.after, isPhase] at happens
  | endRemoval =>
      cases isPhase : hardware.phase with
      | removing dispatcher remaining =>
          cases remaining with
          | zero =>
              simp only [Interrupts.after, isPhase, Option.some.injEq]
                at happens
              exact happens ▸ invariant.endRemoval isPhase
          | succ remaining => simp [Interrupts.after, isPhase] at happens
      | _ => simp [Interrupts.after, isPhase] at happens
  | testRecord =>
      cases isPhase : hardware.phase with
      | popped dispatcher remaining testRec event =>
          simp only [Interrupts.after, isPhase, Option.some.injEq] at happens
          exact happens ▸ invariant.testRecord isPhase
      | _ => simp [Interrupts.after, isPhase] at happens
  | pushRecord =>
      cases isPhase : hardware.phase with
      | pushing dispatcher remaining testRec event =>
          simp only [Interrupts.after, isPhase, Option.some.injEq] at happens
          exact happens ▸ invariant.pushRecord isPhase
      | _ => simp [Interrupts.after, isPhase] at happens
  | assignRecord =>
      cases isPhase : hardware.phase with
      | assigning dispatcher remaining testRec newRec =>
          simp only [Interrupts.after, isPhase, Option.some.injEq] at happens
          exact happens ▸ invariant.assignRecord isPhase
      | _ => simp [Interrupts.after, isPhase] at happens
  | beginSpawn rebootPending =>
      cases isPhase : hardware.phase with
      | idle =>
          simp only [Interrupts.after, isPhase, Option.some.injEq] at happens
          exact happens ▸ invariant.beginSpawn isPhase rebootPending
      | _ => simp [Interrupts.after, isPhase] at happens
  | endSpawn ensured outcomes =>
      cases isPhase : hardware.phase with
      | spawning interrupt =>
          simp only [Interrupts.after, isPhase, Option.some.injEq] at happens
          exact happens ▸ invariant.endSpawn isPhase ensured outcomes
      | _ => simp [Interrupts.after, isPhase] at happens
  | threadTerminates outcomes =>
      cases isPhase : hardware.phase with
      | idle =>
          simp only [Interrupts.after, isPhase, Option.ite_none_right_eq_some,
            Option.some.injEq] at happens
          have kept := invariant.threadTerminates isPhase outcomes
          rw [← happens.2]
          simpa only [isPhase] using kept
      | _ => simp [Interrupts.after, isPhase] at happens

theorem Initialized.invariant
    (initialized : Initialized hardware) :
    EventInvariant hardware := by
  obtain ⟨size, positive, isQueue⟩ := initialized.m_HalQueue
  have contents : hardware.contents = [] := by
    rw [CLR_HW_Hardware.contents, isQueue]
    rfl
  have inHand : hardware.inHand = [] := by
    rw [CLR_HW_Hardware.inHand, initialized.phase]
  have waiting : hardware.waiting = [] := by
    rw [CLR_HW_Hardware.waiting, initialized.phase]
    exact contents
  exact {
    wellFormed := isQueue ▸ Hal_Queue_UnknownSize.initialize_wellFormed positive
    numbered := by simp [initialized.saved]
    known := by simp [initialized.application, contents, inHand]
    ordered := by simp [initialized.application, waiting]
    kept := by simp [initialized.saved]
    phase := by
      rw [PhaseInvariant, initialized.phase]
      trivial
    application := by
      rw [initialized.application]
      exact ⟨rfl, by simp, rfl⟩
    notNull := initialized.usedNull }

end Steps

/-! ## Runs -/

/-- Both queues before anything has happened. -/
def beforeInterrupts (size : Nat) : CLR_HW_Hardware where
  m_HalQueue := .Initialize size
  m_data := fun _ => {
    number := 0
    m_time := 0
    m_context := 0
    m_data1 := 0
    m_data2 := 0
    m_data3 := 0 }
  application := {
    m_applicationQueue := []
    m_queuedInterrupts := 0
    dispatching := none
    transferred := []
    dispatched := []
    released := []
    usedUnlinked := false }
  phase := .idle
  saved := []
  displaced := []
  discarded := []
  disposed := []
  usedNull := false

theorem beforeInterrupts_initialized
    {size : Nat}
    (positive : 0 < size) :
    Initialized (beforeInterrupts size) where
  m_HalQueue := ⟨size, positive, rfl⟩
  application := rfl
  phase := rfl
  saved := rfl
  displaced := rfl
  discarded := rfl
  disposed := rfl
  usedNull := rfl

/-- The state after several happenings. -/
def afterAll (hardware : CLR_HW_Hardware) (happenings : List Happening) :
    Option CLR_HW_Hardware :=
  happenings.foldlM after hardware

theorem run_of_afterAll
    {taken : List (CLR_HW_Hardware × Happening)}
    {hardware later : CLR_HW_Hardware}
    {happenings : List Happening}
    (run : Run Initialized
      (fun hardware happening later => after hardware happening = some later)
      taken hardware)
    (happen : afterAll hardware happenings = some later) :
    ∃ taken, Run Initialized
      (fun hardware happening later => after hardware happening = some later)
      taken later := by
  induction happenings generalizing taken hardware with
  | nil =>
      obtain rfl := Option.some.inj happen
      exact ⟨taken, run⟩
  | cons first happenings inductionHypothesis =>
      rw [afterAll, List.foldlM_cons, Option.bind_eq_bind,
        Option.bind_eq_some_iff] at happen
      obtain ⟨middle, happens, happen⟩ := happen
      exact inductionHypothesis (run.next happens) happen

/-- In every run in which nothing comes at a bad moment the events are kept. -/
theorem interruptEvents_kept
    {taken : List (CLR_HW_Hardware × Happening)}
    {hardware : CLR_HW_Hardware}
    (run : Run Initialized
      (fun hardware happening later => after hardware happening = some later)
      taken hardware)
    (undisturbed : ∀ entry ∈ taken, Undisturbed entry.1 entry.2) :
    EventsKept hardware :=
  (run.invariant_of EventInvariant Undisturbed
    (fun _ initialized => initialized.invariant)
    (fun _ _ _ invariant undisturbed happens =>
      invariant.after undisturbed happens)
    undisturbed).eventsKept

/-- Two dispatchers have an event each, the second is disposed of, and another
event comes while the first is transferred. -/
def transferOfTwo : List Happening :=
  [.save 1 0 0 0, .save 2 5 6 0, .countElements 2, .popRecord, .testRecord,
    .pushRecord, .assignRecord, .popRecord, .testRecord, .endRemoval,
    .beginTransfer, .peek, .save 1 7 8 9, .copy, .popTransferred, .peek, .copy,
    .popTransferred]

/-- The happenings with the states they come in. -/
def trailOfTwo : List (CLR_HW_Hardware × Happening) :=
  trail (fun hardware happening => (after hardware happening).getD hardware)
    (beforeInterrupts 16) transferOfTwo

/-- The first event is turned around before it is copied. -/
theorem trailOfTwo_undisturbed :
    ∀ entry ∈ trailOfTwo, (after entry.1 entry.2).isSome ∧
      Undisturbed entry.1 entry.2 := by
  have same {rec other : Nat}
      (isPhase : Phase.transferring rec = .transferring other) :
      rec = other :=
    Phase.transferring.inj isPhase
  simp only [trailOfTwo, transferOfTwo, trail, List.forall_mem_cons]
  exact ⟨⟨rfl, trivial⟩, ⟨rfl, trivial⟩, ⟨rfl, trivial⟩, ⟨rfl, trivial⟩,
    ⟨rfl, trivial⟩, ⟨rfl, trivial⟩, ⟨rfl, trivial⟩, ⟨rfl, trivial⟩,
    ⟨rfl, trivial⟩, ⟨rfl, trivial⟩, ⟨rfl, trivial⟩, ⟨rfl, trivial⟩,
    ⟨rfl, trivial⟩, ⟨rfl, fun _ => same⟩, ⟨rfl, trivial⟩, ⟨rfl, trivial⟩,
    ⟨rfl, fun _ => same⟩, ⟨rfl, trivial⟩, List.forall_mem_nil _⟩

/-- The events are kept while one dispatcher is disposed of and an interrupt
comes in the middle of a transfer. -/
theorem interruptEvents_kept_disposal :
    ∃ hardware : CLR_HW_Hardware,
      Run Initialized
          (fun hardware happening later =>
            after hardware happening = some later)
          trailOfTwo hardware ∧
        hardware.application.transferred.map (·.m_context) = [1, 1] ∧
        EventsKept hardware := by
  have start : Run Initialized
      (fun hardware happening later => after hardware happening = some later)
      [] (beforeInterrupts 16) :=
    .start (beforeInterrupts_initialized (by decide))
  have steps : ∀ entry ∈ trailOfTwo,
      after entry.1 entry.2 = some ((after entry.1 entry.2).getD entry.1) := by
    intro entry member
    obtain ⟨later, happens⟩ := Option.isSome_iff_exists.mp
      (trailOfTwo_undisturbed entry member).1
    rw [happens, Option.getD_some]
  have run := start.follow _ steps
  exact ⟨_, run, rfl, interruptEvents_kept run fun entry member =>
    (trailOfTwo_undisturbed entry member).2⟩

/-- An event without data. -/
def savedOnce : Happening :=
  .save 1 0 0 0

/-- What becomes of the events when an interrupt comes between the two steps of
a transfer from a full queue. -/
def transferFromFull : List Happening :=
  List.replicate 16 savedOnce ++
    [.beginTransfer, .peek, savedOnce, .copy, .popTransferred]

/-- The second event that is saved. -/
def secondEvent : SavedEvent where
  number := 1
  m_time := 0
  m_context := 1
  m_data1 := 0
  m_data2 := 0

/-- An event that was saved and is nowhere to be found. -/
def isLost (hardware : CLR_HW_Hardware) (event : SavedEvent) : Bool :=
  event ∈ hardware.saved ∧ event ∉ hardware.application.transferred ∧
    event ∉ hardware.contents ∧ event ∉ hardware.inHand ∧
    event ∉ hardware.displaced ∧ event ∉ hardware.discarded ∧
    event.m_context ∉ hardware.disposed

theorem not_isLost
    {hardware : CLR_HW_Hardware}
    (kept : EventsKept hardware)
    (event : SavedEvent) :
    isLost hardware event = false := by
  have placed := kept.lost event
  simp only [isLost, decide_eq_false_iff_not]
  tauto

/-- An interrupt between the two steps of a transfer from a full queue makes the
transfer lose another event. -/
theorem interruptEvents_notKept :
    ∃ taken hardware,
      Run Initialized
        (fun hardware happening later => after hardware happening = some later)
        taken hardware ∧
      ¬EventsKept hardware := by
  have lost : (afterAll (beforeInterrupts 16) transferFromFull).any
      (isLost · secondEvent) = true := by
    decide +kernel
  obtain ⟨hardware, happen, lost⟩ := (Option.any_eq_true _ _).mp lost
  obtain ⟨taken, run⟩ := run_of_afterAll
    (.start (beforeInterrupts_initialized (by decide))) happen
  refine ⟨taken, hardware, run, fun kept => ?_⟩
  rw [not_isLost kept] at lost
  cases lost

end Interrupts

end NanoClr
